import MeshLimiter.Material
import MeshLimiter.ResourceId
/-!
# The store of materials

For each limiter there is an entry with its material and a revision that grows whenever the material
changes. An entry that is taken out of the store lives on for those that still work on it, and a new
one for the same limiter is another entry; so entries are known by a number of their own.

Revisions are numbers without a bound. Where a revision is a word of 64 bits, it is the same number
until the material of one entry has changed 2 ^ 64 times (`Entry.toNat_word`).
-/

namespace MeshLimiter

/-- The number that an entry is known by. -/
structure EntryId where
  index : Nat
deriving DecidableEq, Repr

/-- A material and how often it has changed. -/
structure Entry where
  material : Material := {}
  revision : Nat := 0
deriving DecidableEq

/-- Puts a material in the place of the one held; the revision grows if they differ. -/
def Entry.update (e : Entry) (m : Material) : Entry :=
  if e.material = m then e else { material := m, revision := e.revision + 1 }

/-- The revision as a word of 64 bits. -/
def Entry.word (e : Entry) : UInt64 :=
  .ofNat e.revision

/-- The word changes as the revision does: by one with a new material, and not at all with the
same. -/
theorem Entry.word_update (e : Entry) (m : Material) :
    (e.update m).word = if e.material = m then e.word else e.word + 1 := by
  unfold update
  split
  · rfl
  · exact UInt64.ofNat_add e.revision 1

/-- Below 2 ^ 64 it is the revision. -/
theorem Entry.toNat_word {e : Entry} (h : e.revision < UInt64.size) : e.word.toNat = e.revision :=
  UInt64.toNat_ofNat_of_lt h

/-- The entries ever made, and the one that each limiter has now. -/
structure MaterialStore where
  entries : List Entry := []
  current : Std.ExtTreeMap ResourceId EntryId := ∅

namespace MaterialStore

def find? (s : MaterialStore) (id : ResourceId) : Option EntryId :=
  s.current[id]?

def get (s : MaterialStore) (e : EntryId) : Entry :=
  s.entries.getD e.index {}

def lookup? (s : MaterialStore) (id : ResourceId) : Option Entry :=
  (s.find? id).map s.get

/-- The entry of a limiter, made if there is none. -/
def entry (s : MaterialStore) (id : ResourceId) : EntryId × MaterialStore :=
  match s.find? id with
  | some e => (e, s)
  | none =>
    let e : EntryId := ⟨s.entries.length⟩
    (e, { entries := s.entries ++ [{}], current := s.current.insert id e })

/-- Replaces the material of an entry; the revision it has then. -/
def update (s : MaterialStore) (e : EntryId) (m : Material) : Nat × MaterialStore :=
  let new := (s.get e).update m
  (new.revision, { s with entries := s.entries.set e.index new })

/-- Takes the entry of a limiter out of the store; whether there was one. -/
def remove (s : MaterialStore) (id : ResourceId) : Bool × MaterialStore :=
  (s.current.contains id, { s with current := s.current.erase id })

def size (s : MaterialStore) : Nat :=
  s.current.size

end MaterialStore

end MeshLimiter
