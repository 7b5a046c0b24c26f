import Std.Data.ExtTreeMap
/-!
# JSON values

Values of the data format, with whole numbers kept apart from numbers with a fraction or exponent.
The members of an object are a list, so that a document can be kept as it was written; `normal`
sorts them by name and keeps the last of each name.
-/

namespace MeshLimiter

/-- A number of a document. -/
inductive Number where
  | int (value : Int)
  | real (value : Float)
deriving DecidableEq, Repr

/-- A JSON value. -/
inductive Json where
  | null
  | bool (value : Bool)
  | num (value : Number)
  | str (text : String)
  | arr (items : List Json)
  | obj (members : List (String × Json))
deriving Repr, Inhabited

namespace Json

mutual

/-- Decides whether two values are written alike. -/
def decEq : (a b : Json) → Decidable (a = b)
  | .null, b => match b with
    | .null => isTrue rfl
    | .bool _ | .num _ | .str _ | .arr _ | .obj _ => isFalse nofun
  | .bool x, b => match b with
    | .bool y => if h : x = y then isTrue (by rw [h]) else isFalse fun e => h (Json.bool.inj e)
    | .null | .num _ | .str _ | .arr _ | .obj _ => isFalse nofun
  | .num x, b => match b with
    | .num y => if h : x = y then isTrue (by rw [h]) else isFalse fun e => h (Json.num.inj e)
    | .null | .bool _ | .str _ | .arr _ | .obj _ => isFalse nofun
  | .str x, b => match b with
    | .str y => if h : x = y then isTrue (by rw [h]) else isFalse fun e => h (Json.str.inj e)
    | .null | .bool _ | .num _ | .arr _ | .obj _ => isFalse nofun
  | .arr x, b => match b with
    | .arr y => match decEqItems x y with
      | isTrue h => isTrue (by rw [h])
      | isFalse h => isFalse fun e => h (Json.arr.inj e)
    | .null | .bool _ | .num _ | .str _ | .obj _ => isFalse nofun
  | .obj x, b => match b with
    | .obj y => match decEqMembers x y with
      | isTrue h => isTrue (by rw [h])
      | isFalse h => isFalse fun e => h (Json.obj.inj e)
    | .null | .bool _ | .num _ | .str _ | .arr _ => isFalse nofun

/-- Decides whether two lists of values are alike. -/
def decEqItems : (a b : List Json) → Decidable (a = b)
  | [], [] => isTrue rfl
  | [], _ :: _ => isFalse nofun
  | _ :: _, [] => isFalse nofun
  | x :: xs, y :: ys =>
    match decEq x y, decEqItems xs ys with
    | isTrue h, isTrue hs => isTrue (by rw [h, hs])
    | isFalse h, _ => isFalse fun e => h (List.cons.inj e).1
    | _, isFalse hs => isFalse fun e => hs (List.cons.inj e).2

/-- Decides whether two lists of members are alike. -/
def decEqMembers : (a b : List (String × Json)) → Decidable (a = b)
  | [], [] => isTrue rfl
  | [], _ :: _ => isFalse nofun
  | _ :: _, [] => isFalse nofun
  | (k, x) :: xs, (l, y) :: ys =>
    if hk : k = l then
      match decEq x y, decEqMembers xs ys with
      | isTrue h, isTrue hs => isTrue (by rw [hk, h, hs])
      | isFalse h, _ => isFalse fun e => h (Prod.mk.inj (List.cons.inj e).1).2
      | _, isFalse hs => isFalse fun e => hs (List.cons.inj e).2
    else isFalse fun e => hk (Prod.mk.inj (List.cons.inj e).1).1

end

instance : DecidableEq Json := decEq

def ofNat (n : Nat) : Json := .num (.int n)

def ofInt (i : Int) : Json := .num (.int i)

/-- An optional member of an object: nothing at all for none. -/
def member? (name : String) (value : Option Json) : List (String × Json) :=
  match value with
  | some v => [(name, v)]
  | none => []

/-- A member that stands only when its flag is set. -/
def flag? (name : String) (value : Bool) : List (String × Json) :=
  if value then [(name, .bool true)] else []

/-- Members by name, the last of each name. -/
def lastByName (members : List (String × Json)) : Std.ExtTreeMap String Json :=
  members.foldl (fun m (k, v) => m.insert k v) ∅

/-- A map as an object with the names in order. -/
def ofMap {α : Type} (f : α → Json) (m : Std.ExtTreeMap String α) : Json :=
  .obj (m.toList.map fun (k, v) => (k, f v))

mutual

/-- The value with the members of every object sorted by name, the last of each name kept. -/
def normal : Json → Json
  | .arr items => .arr (normalItems items)
  | .obj members => ofMap id (lastByName (normalMembers members))
  | v => v

def normalItems : List Json → List Json
  | [] => []
  | v :: vs => normal v :: normalItems vs

def normalMembers : List (String × Json) → List (String × Json)
  | [] => []
  | (k, v) :: ms => (k, normal v) :: normalMembers ms

end

def text? : Json → Option String
  | .str s => some s
  | _ => none

/-- The truth value of a value that is one. -/
def bool? : Json → Option Bool
  | .bool b => some b
  | _ => none

/-- The integer of a value that is a whole number. -/
def int? : Json → Option Int
  | .num (.int i) => some i
  | _ => none

/-- The integer of a whole number between two bounds. -/
def intIn? (lo hi : Int) (v : Json) : Option Int :=
  v.int?.filter fun i => lo ≤ i && i ≤ hi

/-- A whole number that fits a given count of bits. -/
def natOfBits? (bits : Nat) (v : Json) : Option Nat :=
  (v.intIn? 0 (Int.pow 2 bits - 1)).map Int.toNat

def items? : Json → Option (List Json)
  | .arr items => some items
  | _ => none

/-- The members of an object, as written. -/
def members? : Json → Option (List (String × Json))
  | .obj members => some members
  | _ => none

def listOf? {α : Type} (f : Json → Option α) (v : Json) : Option (List α) :=
  v.items?.bind fun items => items.mapM f

/-- A map from names: every member is read, and the last of each name stays. -/
def mapOf? {α : Type} (f : Json → Option α) (v : Json) : Option (Std.ExtTreeMap String α) := do
  let members ← v.members?
  let read ← members.mapM fun (k, v) => (f v).map fun x => (k, x)
  return read.foldl (fun m (k, x) => m.insert k x) ∅

/-- Null for none, anything else read by `f`. -/
def optional? {α : Type} (f : Json → Option α) : Json → Option (Option α)
  | .null => some none
  | v => (f v).map some

/-- One of a fixed list of names: a text, or an object whose only member has that name and is
null. -/
def name? : Json → Option String
  | .str s => some s
  | .obj [(s, .null)] => some s
  | _ => none

end Json

end MeshLimiter
