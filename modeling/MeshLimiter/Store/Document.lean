import MeshLimiter.Json.Record
import MeshLimiter.Store
/-!
# Materials as documents

The JSON form of a material: all values by key, and the keys that are groups. A material may also be
given as a list of entries in the order in which they are written.
-/

namespace MeshLimiter

def ResourceId.toJson (id : ResourceId) : Json := .str id.path

def ResourceId.ofJson? (v : Json) : Option ResourceId := do
  let f := Json.Fields.named (← v.members?)
  return {
    ns := ← f.required 0 "namespace" Json.text?
    name := ← f.required 1 "name" Json.text? }

namespace Material

def toJson (m : Material) : Json :=
  .obj [("values", .ofMap .str m.values), ("groups", .arr (m.groups.toList.map .str))]

def addEntry? (m : Material) (v : Json) : Option Material := do
  let f := Json.Fields.named (← v.members?)
  return m.put (← f.withDefault 2 "g" false Json.bool?) (← f.required 0 "k" Json.text?)
    (← f.required 1 "v" Json.text?)

def ofEntries? (v : Json) : Option Material := do
  (← v.items?).foldlM addEntry? {}

end Material

def Entry.toJson (e : Entry) : Json :=
  .obj [("revision", .ofNat e.revision), ("material", e.material.toJson)]

end MeshLimiter
