import MeshLimiter.Decimal.Shortest
import MeshLimiter.Json.Writer
import MeshLimiter.Material
import MeshLimiter.Query.Basic
import MeshLimiter.Text.Quoted
/-!
# Samples

The answer to a query, and how it is stored: the values of a vector are added up for a single value;
a group keeps each under the signature of its labels, and all of them together as one text.
-/

namespace MeshLimiter

/-- The answer to a query. -/
inductive Sample where
  | scalar (value : Float)
  | vector (values : List (Labels × Float))

namespace Sample

/-- A label set as shown: names and quoted values between braces. -/
def signature (labels : Labels) : String :=
  "\x7b" ++ ",".intercalate (labels.toList.map fun (k, v) => k ++ "=" ++ Text.quoted v) ++ "\x7d"

/-- The sum of numbers, from the left; the empty sum is negative zero, which changes no number. -/
def total (xs : List Float) : Float :=
  xs.foldl (· + ·) (-0.0)

/-- The values by label set; a scalar has no labels. -/
def points : Sample → List (Labels × Float)
  | scalar x => [(∅, x)]
  | vector xs => xs

/-- The key of a value of a group. -/
def memberKey (metric : String) (labels : Labels) : String :=
  metric ++ "." ++ signature labels

/-- The text of a group: the values by signature. -/
def groupText (points : List (Labels × Float)) : String :=
  (Json.ofMap .str (points.foldl (fun (m : Std.ExtTreeMap String String) (l, x) =>
    m.insert (signature l) (Decimal.floatText x)) ∅)).compact

/-- Stores the answer to a query; none if there is nothing to store. -/
def store? (m : Material) (q : Query) (s : Sample) : Option Material :=
  match q.kind, s with
  | .value, scalar x => some (m.insert q.name (Decimal.floatText x))
  | .value, vector xs =>
    if xs.isEmpty then none
    else some (m.insert q.name (Decimal.floatText (total (xs.map fun p => p.2))))
  | .group, s =>
    if s.points.isEmpty then none
    else
      let members := s.points.foldl (fun (m : Material) (l, x) =>
        m.insert (memberKey q.name l) (Decimal.floatText x)) m
      some (members.insertGroup q.name (groupText s.points))

end Sample

/-- Whether a key was stored for a query: its name, or for a group any key below the name. -/
def Query.owns (q : Query) (key : String) : Bool :=
  key == q.name || (q.kind == .group && (q.name ++ ".").toList.isPrefixOf key.toList)

/-- Copies what an earlier material held for a query that failed. -/
def Query.carryOver (q : Query) (previous m : Material) : Material :=
  previous.values.foldl (fun (acc : Material) key value =>
    if q.owns key then acc.put (previous.isGroup key) key value else acc) m

end MeshLimiter
