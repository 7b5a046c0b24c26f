import MeshLimiter.Material
import MeshLimiter.Template.Error
import MeshLimiter.Text.Blank
import MeshLimiter.Text.Search
/-!
# Rendering a template

A template is a text with placeholders between double braces, each a point and the key of a metric.
It is first cut into pieces; rendering then puts the value of its key in the place of each
placeholder, from the left, and never looks at the values again.
-/

namespace MeshLimiter.Template

/-- A part of a template. -/
inductive Piece where
  | literal (text : List Char)
  | placeholder (inner : List Char)
  /-- A placeholder that is not closed; nothing comes after it. -/
  | unterminated
deriving DecidableEq, Repr

/-- The two characters that open a placeholder. -/
def openMark : List Char := ['\x7b', '\x7b']

/-- The two characters that close a placeholder. -/
def closeMark : List Char := ['\x7d', '\x7d']

/-- The inside of a placeholder and what follows it. Of a longer run of closing braces the last two
close the placeholder, since a key may itself end in braces. -/
def cutPlaceholder? (cs : List Char) : Option (List Char × List Char) :=
  (Text.cutAt? closeMark cs).map fun (inner, rest) =>
    let braces := rest.takeWhile (· = '\x7d')
    (inner ++ braces, rest.dropWhile (· = '\x7d'))

theorem length_le_of_cutPlaceholder? {cs inner rest : List Char}
    (h : cutPlaceholder? cs = some (inner, rest)) : rest.length ≤ cs.length := by
  obtain ⟨⟨i, r⟩, hc, h⟩ := Option.map_eq_some_iff.1 h
  have h1 := Text.length_lt_of_cutAt? (by simp [closeMark]) hc
  have h2 := (List.dropWhile_suffix (· = '\x7d') (l := r)).length_le
  simp only [Prod.mk.injEq] at h
  rw [← h.2]
  omega

def pieces (cs : List Char) : List Piece :=
  match h : Text.cutAt? openMark cs with
  | none => [.literal cs]
  | some (lead, after) =>
    have h1 := Text.length_lt_of_cutAt? (by simp [openMark]) h
    match h' : cutPlaceholder? after with
    | none => [.literal lead, .unterminated]
    | some (inner, rest) =>
      have h2 := length_le_of_cutPlaceholder? h'
      .literal lead :: .placeholder inner :: pieces rest
termination_by cs.length
decreasing_by omega

/-- The key of a placeholder: what follows the point, blanks at both ends aside. -/
def placeholderKey (inner : List Char) : Except Error String :=
  match Text.trim inner with
  | '.' :: c :: cs => .ok (String.ofList (c :: cs))
  | text => .error (.invalidPlaceholder (String.ofList text))

/-- The value that stands for a key; a group has none. -/
def lookup (m : Material) (key : String) : Except Error String :=
  if m.isGroup key then .error (.groupMetric key)
  else
    match m.get? key with
    | some value => .ok value
    | none => .error (.unknownMetric key)

/-- The text that a piece of `template` is rendered to. -/
def Piece.render (template : String) (m : Material) : Piece → Except Error (List Char)
  | literal text => .ok text
  | placeholder inner => do
    let key ← placeholderKey inner
    let value ← lookup m key
    return value.toList
  | unterminated => .error (.unterminated template)

/-- The text of a template with its placeholders filled in; the leftmost that cannot be decides the
error. -/
def render (template : String) (m : Material) : Except Error String :=
  ((pieces template.toList).mapM (Piece.render template m)).map fun parts =>
  String.ofList parts.flatten

end MeshLimiter.Template
