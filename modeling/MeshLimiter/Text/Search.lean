/-!
# Finding one text inside another

Searching, cutting and replacing on lists of characters. Every search is for the leftmost place.
Main statements: `occurs_iff` (a text occurs exactly when it is an infix) and
`append_eq_of_cutAt?` (cutting loses nothing).
-/

namespace MeshLimiter.Text

variable {α : Type} [DecidableEq α]

/-- What follows `lead` in a text that begins with it. -/
def after? (lead cs : List α) : Option (List α) :=
  if lead.isPrefixOf cs then some (cs.drop lead.length) else none

/-- What stands before `tail` in a text that ends with it. -/
def before? (tail cs : List α) : Option (List α) :=
  if tail.isSuffixOf cs then some (cs.take (cs.length - tail.length)) else none

/-- The parts of a text before and after the leftmost place where `pat` stands. -/
def cutAt? (pat : List α) : List α → Option (List α × List α)
  | [] => if pat.isEmpty then some ([], []) else none
  | c :: cs =>
    match after? pat (c :: cs) with
    | some rest => some ([], rest)
    | none => (cutAt? pat cs).map fun (lead, rest) => (c :: lead, rest)

/-- Whether `pat` stands somewhere in a text. -/
def occurs (pat : List α) : List α → Bool
  | [] => pat.isEmpty
  | c :: cs => pat.isPrefixOf (c :: cs) || occurs pat cs

/-- Replaces, from the left, each occurrence of `pat` that does not overlap the one before it;
`skip` characters of the occurrence just replaced are still to be passed over. -/
def replaceFrom (pat new : List α) : Nat → List α → List α
  | _, [] => []
  | skip + 1, _ :: cs => replaceFrom pat new skip cs
  | 0, c :: cs =>
    if pat.isPrefixOf (c :: cs) then new ++ replaceFrom pat new (pat.length - 1) cs
    else c :: replaceFrom pat new 0 cs

/-- Replaces every occurrence of a text that is not empty. -/
def replaceAll (pat new text : String) : String :=
  String.ofList (replaceFrom pat.toList new.toList 0 text.toList)

theorem append_eq_of_after? {lead cs rest : List α} (h : after? lead cs = some rest) :
    lead ++ rest = cs := by
  unfold after? at h
  split at h
  · next hp =>
    obtain ⟨t, rfl⟩ := List.isPrefixOf_iff_prefix.1 hp
    simp at h
    simp [h]
  · simp at h

@[simp] theorem after?_append (lead rest : List α) : after? lead (lead ++ rest) = some rest := by
  simp [after?, List.isPrefixOf_iff_prefix.2 (List.prefix_append lead rest)]

theorem append_eq_of_cutAt? {pat cs lead rest : List α} (h : cutAt? pat cs = some (lead, rest)) :
    lead ++ pat ++ rest = cs := by
  induction cs generalizing lead with
  | nil =>
    simp only [cutAt?] at h
    split at h
    · next hp => simp_all
    · simp at h
  | cons c cs ih =>
    simp only [cutAt?] at h
    split at h
    · next r hr =>
      simp only [Option.some.injEq, Prod.mk.injEq] at h
      obtain ⟨rfl, rfl⟩ := h
      simpa using append_eq_of_after? hr
    · next hr =>
      obtain ⟨⟨l, r⟩, hl, heq⟩ := Option.map_eq_some_iff.1 h
      simp only [Prod.mk.injEq] at heq
      obtain ⟨rfl, rfl⟩ := heq
      simp [← ih hl]

theorem length_lt_of_cutAt? {pat cs lead rest : List α} (hp : pat ≠ [])
    (h : cutAt? pat cs = some (lead, rest)) : rest.length < cs.length := by
  have := congrArg List.length (append_eq_of_cutAt? h)
  have : 0 < pat.length := List.length_pos_iff.2 hp
  simp at *
  omega

theorem occurs_iff {pat cs : List α} : occurs pat cs = true ↔ pat <:+: cs := by
  induction cs with
  | nil => simp [occurs]
  | cons c cs ih => simp [occurs, ih, List.infix_cons_iff]

end MeshLimiter.Text
