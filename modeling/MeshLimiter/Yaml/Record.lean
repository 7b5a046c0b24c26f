import MeshLimiter.Decimal.Integer
import MeshLimiter.Yaml.Node
import Std.Data.ExtTreeMap
/-!
# Values in YAML

A scalar of any style is a text. Numbers must be plain. A plain scalar without text stands for an
empty list, map or record. The fields of a record are given by name, or in a list by place.
-/

namespace MeshLimiter.Yaml

/-- Whether a text is written with digits only but with a zero in front, after an optional sign. -/
def isPaddedNumber (cs : List Char) : Bool :=
  let ds :=
    match cs with
    | '+' :: ds => ds
    | '-' :: ds => ds
    | ds => ds
  match ds with
  | '0' :: d :: more => (d :: more).all Char.isDigit
  | _ => false

/-- The natural number that a plain text stands for: in decimal without a zero in front, or in
another base after its mark. -/
def readNat? (cs : List Char) : Option Nat :=
  let body :=
    match cs with
    | '+' :: body => body
    | body => body
  let marked : Option Nat :=
    match body with
    | '0' :: 'x' :: ds => Decimal.readDigits? 16 ds
    | '0' :: 'o' :: ds => Decimal.readDigits? 8 ds
    | '0' :: 'b' :: ds => Decimal.readDigits? 2 ds
    | _ => none
  match marked with
  | some n => some n
  | none => if isPaddedNumber cs then none else Decimal.readDigits? 10 body

namespace Node

def text? : Node → Option String
  | scalar text _ _ => some text
  | _ => none

def isBlank : Node → Bool
  | scalar text style _ => text.isEmpty && style = .plain
  | _ => false

/-- The tag of whole numbers. -/
def intTag : String := "tag:yaml.org,2002:int"

def uint64? : Node → Option UInt64
  | scalar text style tag =>
    if style = .plain || (style = .literal && tag == some intTag) then
      (readNat? text.toList).bind fun n => if n < Nat.pow 2 64 then some (UInt64.ofNat n) else none
    else none
  | _ => none

def nullTag : String := "tag:yaml.org,2002:null"

def nullWords : List String := ["", "null", "Null", "NULL", "~"]

/-- One of a fixed list of names: the text of a scalar, or its own tag if it has one and is null. -/
def name? : Node → Option String
  | scalar text style tag =>
    match tag.map String.toList with
    | some ('!' :: name) =>
      if style = .plain && nullWords.contains text then some (String.ofList name) else none
    | _ => some text
  | _ => none

def items? : Node → Option (List Node)
  | sequence items => some items
  | n => if n.isBlank then some [] else none

def listOf? {α : Type} (f : Node → Option α) (n : Node) : Option (List α) :=
  n.items?.bind fun items => items.mapM f

/-- A map from texts; the last of each name stays. -/
def mapOf? {α : Type} (f : Node → Option α) (n : Node) : Option (Std.ExtTreeMap String α) := do
  let entries ←
    match n with
    | mapping entries => some entries
    | n => if n.isBlank then some [] else none
  let read ← entries.mapM fun (m : Node × Node) => do return (← m.1.text?, ← f m.2)
  return read.foldl (fun m (k, v) => m.insert k v) ∅

/-- The fields given for a record: by name, or by place. -/
inductive Fields where
  | named (members : List (String × Node))
  | placed (items : List Node)

/-- The fields of a record with `count` fields; a list must not have more items. -/
def fields? (count : Nat) : Node → Option Fields
  | mapping entries =>
    (entries.mapM fun (m : Node × Node) => m.1.text?.map fun k => (k, m.2)).map Fields.named
  | sequence items => if items.length ≤ count then some (.placed items) else none
  | n => if n.isBlank then some (.named []) else none

namespace Fields

/-- What is given for a field, if anything; none as a whole if it is given twice. -/
def given? (f : Fields) (place : Nat) (name : String) : Option (Option Node) :=
  match f with
  | .named members =>
    match members.filter fun (k, _) => k == name with
    | [] => some none
    | [(_, v)] => some (some v)
    | _ => none
  | .placed items => some items[place]?

def required {α : Type} (f : Fields) (place : Nat) (name : String) (read : Node → Option α) :
    Option α :=
  (f.given? place name).bind fun v => v.bind read

/-- A field with a default for when it is not given. -/
def withDefault {α : Type} (f : Fields) (place : Nat) (name : String) (default : α)
    (read : Node → Option α) : Option α :=
  (f.given? place name).bind fun v =>
    match v with
    | none => some default
    | some v => read v

end Fields

end Node

end MeshLimiter.Yaml
