import MeshLimiter.Proofs.Text.Search
import MeshLimiter.Decimal.Integer
import MeshLimiter.Text.Quoted
/-!
# Quoted texts

Each character of a quoted text can be read back, and the text ends with the first quote that is
shown as itself. A brace is shown as itself too, and the number of a character that does not show
stands in braces, so closing braces stand side by side in a quoted text where one follows another,
or follows such a character.

* **`Text.quotedChars_append_inj`**: a quoted text tells the text and where it ends;
* **`Text.pair_infix_quotedChars_iff`**: where closing braces stand side by side in it.
-/

namespace MeshLimiter

/-! ## Numbers in hexadecimal

A character may be shown by its number, in as many digits as it takes. -/

namespace Decimal

theorem digitValue?_digitChar {d : Nat} (h : d < 16) : digitValue? 16 d.digitChar = some d := by
  have hall : ∀ d < 16, digitValue? 16 d.digitChar = some d := by decide
  exact hall d h

theorem foldlM_hexDigits (n : Nat) : (Nat.toDigits 16 n).foldlM
    (fun acc c => (digitValue? 16 c).map (acc * 16 + ·)) 0 = some n := by
  induction n using Nat.strong_induction_on with
  | _ n ih =>
    rw [Nat.toDigits_eq_if (by decide)]
    split
    · next hn => simp [digitValue?_digitChar hn]
    · next hn =>
      rw [List.foldlM_append, ih (n / 16) (by omega)]
      have hlast : n % 16 < 16 := Nat.mod_lt n (by decide)
      simp [digitValue?_digitChar hlast]
      omega

/-- A number in hexadecimal is read back. -/
theorem readDigits?_hexDigits (n : Nat) : readDigits? 16 (Nat.toDigits 16 n) = some n := by
  have hfold := foldlM_hexDigits n
  obtain ⟨c, cs, hcs⟩ := List.exists_cons_of_ne_nil (Nat.toDigits_ne_nil (n := n) (b := 16))
  rw [hcs] at hfold ⊢
  exact hfold

theorem ne_brace_of_mem_hexDigits {n : Nat} {c : Char} (h : c ∈ Nat.toDigits 16 n) :
    c ≠ '\x7d' := by
  have hdigit : ∀ d < 16, d.digitChar ≠ '\x7d' := by decide
  induction n using Nat.strong_induction_on with
  | _ n ih =>
    rw [Nat.toDigits_eq_if (by decide)] at h
    split at h
    · next hn =>
      rw [List.mem_singleton.1 h]
      exact hdigit n hn
    · next hn =>
      rcases List.mem_append.1 h with h | h
      · exact ih (n / 16) (by omega) h
      · rw [List.mem_singleton.1 h]
        exact hdigit _ (Nat.mod_lt n (by decide))

end Decimal

namespace Text

/-! ## A quoted text is read back

No escape begins as a character that stands for itself, and each ends by itself. -/

/-- The character that an escape stands for, after its backslash. -/
def readEscape : List Char → Option (Char × List Char)
  | '0' :: cs => some ('\x00', cs)
  | 't' :: cs => some ('\t', cs)
  | 'r' :: cs => some ('\r', cs)
  | 'n' :: cs => some ('\n', cs)
  | 'u' :: '\x7b' :: cs =>
    (Decimal.readDigits? 16 (cs.takeWhile (· ≠ '\x7d'))).map
      fun n => (Char.ofNat n, (cs.dropWhile (· ≠ '\x7d')).tail)
  | c :: cs => some (c, cs)
  | [] => none

/-- The first character of what is shown, and what follows it. -/
def readShown : List Char → Option (Char × List Char)
  | '\\' :: cs => readEscape cs
  | c :: cs => some (c, cs)
  | [] => none

theorem readShown_unicodeEscape (c : Char) (cs : List Char) :
    readShown (unicodeEscape c ++ cs) = some (c, cs) := by
  have hdigits : ∀ d ∈ Nat.toDigits 16 c.toNat, decide (d ≠ '\x7d') = true := fun d hd =>
    decide_eq_true (Decimal.ne_brace_of_mem_hexDigits hd)
  have htext : unicodeEscape c ++ cs
      = '\\' :: 'u' :: '\x7b' :: (Nat.toDigits 16 c.toNat ++ '\x7d' :: cs) := by
    simp [unicodeEscape]
  rw [htext, readShown, readEscape, List.takeWhile_append_of_pos hdigits,
    List.dropWhile_append_of_pos hdigits]
  simp [Decimal.readDigits?_hexDigits]

theorem readShown_escaped (c : Char) (cs : List Char) :
    readShown (escaped '"' c ++ cs) = some (c, cs) := by
  unfold escaped
  split
  · next h => rw [h]; rfl
  split
  · next h => rw [h]; rfl
  split
  · next h => rw [h]; rfl
  split
  · next h => rw [h]; rfl
  split
  · next h => rw [h]; rfl
  split
  · next h => rw [h]; rfl
  split
  · -- the six short escapes stand above, each read back by evaluation
    exact readShown_unicodeEscape c cs
  · next hslash _ _ =>
    rw [List.cons_append, List.nil_append, readShown]
    exact hslash

theorem escaped_append_inj {c d : Char} {s t : List Char}
    (h : escaped '"' c ++ s = escaped '"' d ++ t) : c = d ∧ s = t := by
  have hread := readShown_escaped c s
  rw [h, readShown_escaped d t] at hread
  obtain ⟨hcd, hst⟩ := Prod.mk.inj (Option.some.inj hread)
  exact ⟨hcd.symm, hst.symm⟩

/-- How a character is shown: as itself, as another one after a backslash, or by its number. Braces
are shown as themselves. -/
theorem escaped_cases (c : Char) : (escaped '"' c = [c] ∧ c ≠ '"') ∨
    c ≠ '\x7d' ∧ ((∃ d, escaped '"' c = ['\\', d] ∧ d ≠ '\x7d') ∨
      escaped '"' c = unicodeEscape c) := by
  have hbrace : escaped '"' '\x7d' = ['\x7d'] := by decide +kernel
  -- a brace is shown as it is; for any other character the branches are those of `escaped`
  by_cases hc : c = '\x7d'
  · exact .inl (by rw [hc]; exact ⟨hbrace, by decide⟩)
  unfold escaped
  split
  · exact .inr ⟨hc, .inl ⟨_, rfl, by decide⟩⟩
  split
  · exact .inr ⟨hc, .inl ⟨_, rfl, by decide⟩⟩
  split
  · exact .inr ⟨hc, .inl ⟨_, rfl, by decide⟩⟩
  split
  · exact .inr ⟨hc, .inl ⟨_, rfl, by decide⟩⟩
  split
  · exact .inr ⟨hc, .inl ⟨_, rfl, by decide⟩⟩
  split
  · exact .inr ⟨hc, .inl ⟨_, rfl, by decide⟩⟩
  split
  · exact .inr ⟨hc, .inr rfl⟩
  · next hquote _ => exact .inl ⟨rfl, hquote⟩

/-- The characters of a quoted text. -/
def quotedChars (s : String) : List Char :=
  '"' :: s.toList.flatMap (escaped '"') ++ ['"']

theorem toList_quoted (s : String) : (quoted s).toList = quotedChars s :=
  String.toList_ofList

theorem escaped_append_ne_quote (c : Char) (s t : List Char) : escaped '"' c ++ s ≠ '"' :: t := by
  intro h
  rcases escaped_cases c with ⟨hself, hquote⟩ | ⟨-, ⟨d, hshort, -⟩ | hnumber⟩
  · rw [hself] at h
    exact hquote (List.cons.inj h).1
  · rw [hshort] at h
    exact absurd (List.cons.inj h).1 (by decide)
  · rw [hnumber] at h
    exact absurd (List.cons.inj h).1 (by decide)

theorem flatMap_escaped_inj {cs ds s t : List Char}
    (h : cs.flatMap (escaped '"') ++ '"' :: s = ds.flatMap (escaped '"') ++ '"' :: t) :
    cs = ds ∧ s = t := by
  induction cs generalizing ds with
  | nil =>
    -- where one list ends, the closing quote meets an escaped character, which never begins with
    -- one
    cases ds with
    | nil => exact ⟨rfl, (List.cons.inj h).2⟩
    | cons d ds =>
      rw [List.flatMap_cons, List.append_assoc] at h
      exact absurd h.symm (escaped_append_ne_quote d _ _)
  | cons c cs ih =>
    cases ds with
    | nil =>
      rw [List.flatMap_cons, List.append_assoc] at h
      exact absurd h (escaped_append_ne_quote c _ _)
    | cons d ds =>
      rw [List.flatMap_cons, List.flatMap_cons, List.append_assoc, List.append_assoc] at h
      obtain ⟨rfl, hrest⟩ := escaped_append_inj h
      obtain ⟨rfl, hst⟩ := ih hrest
      exact ⟨rfl, hst⟩

/-- **A quoted text tells the text and where it ends.** -/
theorem quotedChars_append_inj {v w : String} {s t : List Char}
    (h : quotedChars v ++ s = quotedChars w ++ t) : v = w ∧ s = t := by
  simp only [quotedChars, List.cons_append, List.append_assoc, List.cons.injEq, true_and,
    List.nil_append] at h
  obtain ⟨hvw, hst⟩ := flatMap_escaped_inj h
  exact ⟨String.toList_inj.1 hvw, hst⟩

/-! ## Closing braces

A brace that is shown stands for itself, or ends the number of a character. -/

/-- What is shown of a character ends in a closing brace. -/
def ShownClosed (c : Char) : Prop :=
  c = '\x7d' ∨ escaped '"' c = unicodeEscape c

/-- The brace behind a number is the only closing one of its escape. -/
theorem exists_unicodeEscape (c : Char) :
    ∃ lead, unicodeEscape c = '\\' :: 'u' :: (lead ++ ['\x7d']) ∧ '\x7d' ∉ '\\' :: 'u' :: lead := by
  refine ⟨'\x7b' :: Nat.toDigits 16 c.toNat, by simp [unicodeEscape], ?_⟩
  have hdigits : '\x7d' ∉ Nat.toDigits 16 c.toNat :=
    fun hmem => Decimal.ne_brace_of_mem_hexDigits hmem rfl
  simpa using hdigits

theorem getLast?_escaped {c : Char} : (escaped '"' c).getLast? = some '\x7d' ↔ ShownClosed c := by
  obtain ⟨lead, hescape, -⟩ := exists_unicodeEscape c
  unfold ShownClosed
  rcases escaped_cases c with ⟨hself, -⟩ | ⟨hc, ⟨d, hshort, hd⟩ | hnumber⟩
  · simp [hself, hescape]
  · simp [hshort, hescape, hc, hd]
  · rw [hnumber, hescape, ← List.cons_append, ← List.cons_append, List.getLast?_concat]
    simp

theorem head?_escaped {c : Char} : (escaped '"' c).head? = some '\x7d' ↔ c = '\x7d' := by
  rcases escaped_cases c with ⟨hself, -⟩ | ⟨hc, ⟨d, hshort, hd⟩ | hnumber⟩
  · simp [hself]
  · simp [hshort, hc]
  · simp [hnumber, hc, unicodeEscape]

theorem not_pair_infix_escaped (c : Char) : ¬ ['\x7d', '\x7d'] <:+: escaped '"' c := by
  rcases escaped_cases c with ⟨hself, -⟩ | ⟨hc, ⟨d, hshort, hd⟩ | hnumber⟩
  · rw [hself]
    exact not_pair_infix_singleton c
  · rw [hshort]
    exact not_pair_infix_of_not_mem (by simp [hd.symm])
  · obtain ⟨lead, hescape, hlead⟩ := exists_unicodeEscape c
    rw [hnumber, hescape, ← List.cons_append, ← List.cons_append, pair_infix_append_left hlead]
    exact not_pair_infix_singleton _

/-- What is shown of a text begins with a closing brace if the text does. -/
theorem head?_flatMap_escaped {cs : List Char} :
    (cs.flatMap (escaped '"')).head? = some '\x7d' ↔ cs.head? = some '\x7d' := by
  cases cs with
  | nil => simp
  | cons c cs =>
    obtain ⟨d, ds, hshown⟩ : ∃ d ds, escaped '"' c = d :: ds := by
      rcases escaped_cases c with ⟨hself, -⟩ | ⟨-, ⟨d, hshort, -⟩ | hnumber⟩
      · exact ⟨_, _, hself⟩
      · exact ⟨_, _, hshort⟩
      · exact ⟨_, _, hnumber⟩
    have hhead := head?_escaped (c := c)
    rw [hshown] at hhead
    simpa [hshown] using hhead

/-- Closing braces stand side by side where one follows another, or a character that is shown by its
number. -/
theorem pair_infix_flatMap_escaped_iff {cs : List Char} :
    ['\x7d', '\x7d'] <:+: cs.flatMap (escaped '"') ↔ ∃ c, ShownClosed c ∧ [c, '\x7d'] <:+: cs := by
  induction cs with
  | nil => simp
  | cons c cs ih =>
    rw [List.flatMap_cons, pair_infix_append, getLast?_escaped, head?_flatMap_escaped, ih]
    have hcons (d : Char) : [d, '\x7d'] <:+: c :: cs ↔
        (d = c ∧ cs.head? = some '\x7d') ∨ [d, '\x7d'] <:+: cs := by
      rw [List.infix_cons_iff, List.cons_prefix_cons, List.singleton_prefix_iff_head?_eq_some]
    simp only [not_pair_infix_escaped, false_or, hcons, and_or_left, exists_or]
    rw [or_comm]
    simp

theorem pair_infix_quotedChars_iff {v : String} : ['\x7d', '\x7d'] <:+: quotedChars v ↔
    ∃ c, ShownClosed c ∧ [c, '\x7d'] <:+: v.toList := by
  rw [← pair_infix_flatMap_escaped_iff, quotedChars, pair_infix_append_right (by decide)]
  exact pair_infix_append_left (show '\x7d' ∉ ['"'] by decide)

end Text

end MeshLimiter
