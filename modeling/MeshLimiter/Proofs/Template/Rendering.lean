import MeshLimiter.Proofs.Template.Layout
import MeshLimiter.Proofs.Template.Spelling
/-!
# Templates of expressions

A template of an expression is written like the expression, with placeholders in the place of some
of its operands. Rendering finds each of these, wherever it stands, and touches nothing else.

* **`Part`**: what a template is made of;
* **`Part.text`**, **`Part.filled`**, **`Part.tokens`**: how it is written, what it is rendered to,
  and what it is meant as, where each placeholder is a single operand;
* **`render_template`**: a template is rendered part by part.
-/

namespace MeshLimiter

namespace Template

/-- What a placeholder may name: any key without blanks and without the mark that closes it. -/
structure Key where
  name : String
  ne_empty : name.toList ≠ []
  unblank : ∀ c ∈ name.toList, Text.isBlank c = false
  open_end : ¬ closeMark <:+: name.toList

/-- What a template of an expression is made of. -/
inductive Part where
  | gap (c : Char) (blank : Text.isBlank c = true)
  | token (t : Token) (text : List Char) (spells : t.Spells text)
  | placeholder (key : Key)

namespace Part

/-- As it is written. -/
def text : Part → List Char
  | gap c _ => [c]
  | token _ text _ => text
  | placeholder key => openMark ++ ('.' :: key.name.toList ++ closeMark)

/-- As it is rendered, where values are given for keys. -/
def filled (value : String → String) : Part → List Char
  | gap c _ => [c]
  | token _ text _ => text
  | placeholder key => (value key.name).toList

/-- As it is meant, where numbers are given for keys. -/
def tokens (x : String → Float) : Part → List Token
  | gap _ _ => []
  | token t _ _ => [t]
  | placeholder key => [.number (x key.name)]

end Part

/-- The template that is made of parts. -/
def template (parts : List Part) : String :=
  String.ofList (parts.flatMap Part.text)

/-! ## Braces stand in placeholders only

The texts of tokens have none, so each one that stands in a template belongs to a placeholder. -/

theorem Token.Spells.no_brace {t : Token} {s : List Char} (h : t.Spells s) :
    '\x7b' ∉ s ∧ '\x7d' ∉ s := by
  cases h with
  | number h =>
    obtain ⟨body, tail, rfl, hshape⟩ := literal_shape h
    have hbody : ∀ c ∈ body, c ≠ '\x7b' ∧ c ≠ '\x7d' := by
      intro c hc
      rcases hshape.body c hc with hdigit | rfl
      · exact ⟨by rintro rfl; simp at hdigit, by rintro rfl; simp at hdigit⟩
      · decide
    have htail : ∀ c ∈ tail, c ≠ '\x7b' ∧ c ≠ '\x7d' := by
      rcases hshape.tail with rfl | ⟨mark, sign, ds, hmark, hsign, -, hds, rfl⟩
      · exact List.forall_mem_nil _
      · have hdigit : ∀ c ∈ ds, c ≠ '\x7b' ∧ c ≠ '\x7d' := fun c hc =>
          ⟨by rintro rfl; simpa using hds _ hc, by rintro rfl; simpa using hds _ hc⟩
        refine List.forall_mem_cons.2 ⟨?_, List.forall_mem_append.2 ⟨?_, hdigit⟩⟩
        · rcases hmark with rfl | rfl <;> decide
        · rcases hsign with rfl | rfl | rfl <;> simp
    have hall : ∀ c ∈ body ++ tail, c ≠ '\x7b' ∧ c ≠ '\x7d' :=
      List.forall_mem_append.2 ⟨hbody, htail⟩
    exact ⟨fun hc => (hall _ hc).1 rfl, fun hc => (hall _ hc).2 rfl⟩
  | isTrue | isFalse | opening | closing => decide
  | op o => cases o <;> decide

/-- No template begins with a closing brace. -/
theorem head_template_ne (parts : List Part) (cs : List Char) :
    parts.flatMap Part.text ≠ '\x7d' :: cs := by
  intro h
  cases parts with
  | nil => cases h
  | cons part parts =>
    rw [List.flatMap_cons] at h
    cases part with
    | gap c hblank =>
      obtain ⟨rfl, -⟩ := List.cons.inj h
      exact absurd hblank (by decide)
    | token t s hs =>
      obtain ⟨c, us, rfl, -⟩ := hs.head
      obtain ⟨rfl, -⟩ := List.cons.inj h
      exact hs.no_brace.2 List.mem_cons_self
    | placeholder key => exact absurd (List.cons.inj h).1 (by decide)

/-! ## Rendering

The placeholders are found where they are meant, and values are put in. -/

/-- A placeholder refers to its key. -/
def Key.reference (key : Key) : Reference where
  before := []
  key := key.name
  behind := []
  before_blank := Reference.blank_of_mem_nil
  behind_blank := Reference.blank_of_mem_nil
  key_ne := key.ne_empty
  key_last c hc := key.unblank c (List.mem_of_getLast? hc)
  key_closes hstands := key.open_end (hstands.trans (List.rdropWhile_prefix _ _).isInfix)
  behind_eq _ := rfl

theorem leads_of_not_mem {lead : List Char} (h : '\x7b' ∉ lead) : Leads lead :=
  ⟨Text.not_pair_infix_of_not_mem h, fun hlast => h (List.mem_of_getLast? hlast)⟩

/-- What comes before a template is rendered to itself, if there is no brace in it, and then the
template part by part. -/
theorem rendered_template {m : Material} {value : String → String} (whole : String)
    (parts : List Part)
    (hvalue : ∀ key, .placeholder key ∈ parts → lookup m key.name = .ok (value key.name))
    {lead : List Char} (hlead : '\x7b' ∉ lead) :
    rendered whole m (lead ++ parts.flatMap Part.text)
      = .ok (lead ++ parts.flatMap (Part.filled value)) := by
  induction parts generalizing lead with
  | nil =>
    rw [List.flatMap_nil, List.flatMap_nil, List.append_nil]
    exact rendered_plain (Text.not_pair_infix_of_not_mem hlead)
  | cons part parts ih =>
    have hvalue' : ∀ key, .placeholder key ∈ parts → lookup m key.name = .ok (value key.name) :=
      fun key hkey => hvalue key (List.mem_cons_of_mem part hkey)
    rw [List.flatMap_cons, List.flatMap_cons]
    -- all but placeholders are left in the text that comes before the next one
    have hplain : ∀ s, '\x7b' ∉ s → rendered whole m (lead ++ (s ++ parts.flatMap Part.text))
        = .ok (lead ++ (s ++ parts.flatMap (Part.filled value))) := by
      intro s hs
      rw [← List.append_assoc, ← List.append_assoc]
      exact ih hvalue' fun hmem => (List.mem_append.1 hmem).elim hlead hs
    cases part with
    | gap c hblank =>
      refine hplain [c] fun hmem => ?_
      obtain rfl := List.mem_singleton.1 hmem
      exact absurd hblank (by decide)
    | token t s hs => exact hplain s hs.no_brace.1
    | placeholder key =>
      have htext : (Part.placeholder key).text = key.reference.text := by
        simp [Part.text, Reference.text, Reference.inside, Key.reference]
      have hrest : (parts.flatMap Part.text).head? ≠ some '\x7d' := by
        intro hhead
        obtain ⟨cs, hcs⟩ := List.head?_eq_some_iff.1 hhead
        exact head_template_ne parts cs hcs
      have hkey : lookup m key.reference.key = .ok (value key.name) := hvalue key List.mem_cons_self
      rw [htext, key.reference.rendered_eq (leads_of_not_mem hlead) hrest hkey]
      show (rendered whole m ([] ++ parts.flatMap Part.text)).map _ = _
      rw [ih hvalue' List.not_mem_nil]
      rfl

/-- **A template is rendered part by part.** -/
theorem render_template {m : Material} {value : String → String} {parts : List Part}
    (hvalue : ∀ key, .placeholder key ∈ parts → lookup m key.name = .ok (value key.name)) :
    render (template parts) m = .ok (String.ofList (parts.flatMap (Part.filled value))) := by
  have hchars : (template parts).toList = [] ++ parts.flatMap Part.text := String.toList_ofList
  rw [render_eq, hchars, rendered_template _ parts hvalue List.not_mem_nil]
  rfl

end Template

end MeshLimiter
