import MeshLimiter.Json.Basic
/-!
# Records in JSON

A record is written as an object with a member for each field, in any order, or as an array with the
fields in the order of their declaration. A field must not be given twice; members of other names
are passed over.
-/

namespace MeshLimiter.Json

/-- The fields given for a record: by name, or by place. -/
inductive Fields where
  | named (members : List (String × Json))
  | placed (items : List Json)

/-- The fields of a record with `count` fields; an array must not have more items. -/
def fields? (count : Nat) : Json → Option Fields
  | .obj members => some (.named members)
  | .arr items => if items.length ≤ count then some (.placed items) else none
  | _ => none

namespace Fields

/-- What is given for a field, if anything; none as a whole if it is given twice. -/
def given? (f : Fields) (place : Nat) (name : String) : Option (Option Json) :=
  match f with
  | .named members =>
    match members.filter fun (k, _) => k == name with
    | [] => some none
    | [(_, v)] => some (some v)
    | _ => none
  | .placed items => some items[place]?

def required {α : Type} (f : Fields) (place : Nat) (name : String) (read : Json → Option α) :
    Option α :=
  (f.given? place name).bind fun v => v.bind read

/-- A field with a default for when it is not given. -/
def withDefault {α : Type} (f : Fields) (place : Nat) (name : String) (default : α)
    (read : Json → Option α) : Option α :=
  (f.given? place name).bind fun v =>
    match v with
    | none => some default
    | some v => read v

def optional {α : Type} (f : Fields) (place : Nat) (name : String) (read : Json → Option α) :
    Option (Option α) :=
  f.withDefault place name none (optional? read)

end Fields

end MeshLimiter.Json
