import MeshLimiter.Text.Blank
import MeshLimiter.Text.Search
import Mathlib.Data.List.DropRight
/-!
# Searching texts

* **`Text.cutAt?_eq_none_iff`**, **`Text.cutAt?_eq_some_iff`**: a text is cut where the pattern is
  first complete;
* **`Text.append_cons_inj_of_first`**: the first of a character tells what stands before it and
  behind it;
* **`Text.infix_replaceFrom`**: a hole is still there when another is filled in;
* **`Text.pair_infix_append`**: where two equal characters stand side by side in a text of two
  parts;
* **`Text.trim_append`**, **`Text.exists_eq_trim`**: what is trimmed off a text.
-/

namespace MeshLimiter

namespace Text

section Cutting

variable {α : Type} [DecidableEq α] {pat lead rest cs : List α}

/-- A text is cut where the pattern is first complete. -/
theorem cutAt?_append (hfirst : ¬ pat <:+: lead ++ pat.dropLast) (hpat : pat ≠ []) :
    cutAt? pat (lead ++ (pat ++ rest)) = some (lead, rest) := by
  induction lead with
  | nil =>
    obtain ⟨c, cs, rfl⟩ := List.exists_cons_of_ne_nil hpat
    show cutAt? (c :: cs) (c :: (cs ++ rest)) = some ([], rest)
    have hafter : after? (c :: cs) (c :: (cs ++ rest)) = some rest := after?_append (c :: cs) rest
    rw [cutAt?, hafter]
  | cons c lead ih =>
    have hno : after? pat (c :: (lead ++ (pat ++ rest))) = none := by
      refine if_neg fun hprefix => hfirst ?_
      have hprefix : pat <+: c :: lead ++ pat.dropLast ++ (pat.getLast hpat :: rest) := by
        have hsplit : c :: lead ++ pat.dropLast ++ (pat.getLast hpat :: rest)
            = c :: (lead ++ (pat ++ rest)) := by
          rw [List.append_assoc, List.append_cons pat.dropLast, List.dropLast_concat_getLast]
          rfl
        rw [hsplit]
        exact List.isPrefixOf_iff_prefix.1 hprefix
      -- one character less than the pattern is left over at the end, so it would stand before that
      have hlength : pat.length ≤ (c :: lead ++ pat.dropLast).length := by
        simp
        omega
      exact (List.prefix_of_prefix_length_le hprefix (List.prefix_append _ _) hlength).isInfix
    have hrest : ¬ pat <:+: lead ++ pat.dropLast := fun hstands =>
      hfirst (List.infix_cons_iff.2 (.inr hstands))
    rw [List.cons_append, cutAt?, hno, ih hrest]
    rfl

theorem isSome_cutAt? : (cutAt? pat cs).isSome = occurs pat cs := by
  induction cs with
  | nil =>
    rw [cutAt?, occurs]
    cases pat <;> rfl
  | cons c cs ih =>
    rw [cutAt?, occurs, after?, ← ih]
    cases hprefix : pat.isPrefixOf (c :: cs) with
    | true => rfl
    | false => simp

/-- A text is cut unless the pattern stands nowhere in it. -/
theorem cutAt?_eq_none_iff : cutAt? pat cs = none ↔ ¬ pat <:+: cs := by
  rw [← occurs_iff, ← isSome_cutAt?, Option.not_isSome_iff_eq_none]

/-- The pattern is not complete before the cut. -/
theorem not_infix_of_cutAt? (hpat : pat ≠ []) (h : cutAt? pat cs = some (lead, rest)) :
    ¬ pat <:+: lead ++ pat.dropLast := by
  have hshort : ¬ pat <:+: pat.dropLast := by
    intro hstands
    have hlength := hstands.length_le
    have hpos := List.length_pos_iff.2 hpat
    rw [List.length_dropLast] at hlength
    omega
  induction cs generalizing lead with
  | nil =>
    rw [cutAt?, if_neg (by simpa using hpat)] at h
    cases h
  | cons c cs ih =>
    rw [cutAt?] at h
    split at h
    · cases h
      exact hshort
    · next hafter =>
      obtain ⟨⟨l, r⟩, hcut, heq⟩ := Option.map_eq_some_iff.1 h
      cases heq
      intro hstands
      rcases List.infix_cons_iff.1 hstands with hprefix | hstands
      · -- it would stand at the beginning, where it was looked for
        have hwhole : pat <+: c :: cs := by
          rw [← append_eq_of_cutAt? hcut]
          refine hprefix.trans (List.cons_prefix_cons.2 ⟨rfl, ?_⟩)
          rw [List.append_assoc]
          exact (List.prefix_append_right_inj l).2
            ((List.dropLast_prefix pat).trans (List.prefix_append ..))
        rw [after?, if_pos (List.isPrefixOf_iff_prefix.2 hwhole)] at hafter
        cases hafter
      · exact ih hcut hstands

theorem cutAt?_eq_some_iff (hpat : pat ≠ []) :
    cutAt? pat cs = some (lead, rest) ↔
    cs = lead ++ (pat ++ rest) ∧ ¬ pat <:+: lead ++ pat.dropLast := by
  constructor
  · intro h
    rw [← List.append_assoc]
    exact ⟨(append_eq_of_cutAt? h).symm, not_infix_of_cutAt? hpat h⟩
  · rintro ⟨rfl, hfirst⟩
    exact cutAt?_append hfirst hpat

end Cutting

section FirstOfAll

variable {α : Type}

/-- Two texts that agree, each cut at its first `c`, agree before and behind it. -/
theorem append_cons_inj_of_first {c : α} {a b u v : List α} (ha : c ∉ a) (hb : c ∉ b)
    (h : a ++ c :: u = b ++ c :: v) : a = b ∧ u = v := by
  rcases List.append_eq_append_iff.1 h with ⟨e, rfl, he⟩ | ⟨e, rfl, he⟩
  · cases e with
    | nil => simp_all
    | cons d e => simp_all
  · cases e with
    | nil => simp_all
    | cons d e => simp_all

end FirstOfAll

section Replacing

variable {α : Type} [DecidableEq α] {c : α} {pat hole new xs cs : List α}

/-- What the pattern does not begin in stays as it is. -/
theorem replaceFrom_append (h : c ∉ xs) :
    replaceFrom (c :: pat) new 0 (xs ++ cs) = xs ++ replaceFrom (c :: pat) new 0 cs := by
  induction xs with
  | nil => rfl
  | cons x xs ih =>
    rw [List.mem_cons, not_or] at h
    have hno : ¬ (c :: pat).isPrefixOf (x :: (xs ++ cs)) := by
      rw [List.isPrefixOf_iff_prefix, List.cons_prefix_cons]
      exact fun hprefix => h.1 hprefix.1
    rw [List.cons_append, replaceFrom, if_neg hno, ih h.2]
    rfl

/-- A hole that stands in a text is still there when another pattern is replaced, if both begin with
one character, which neither has behind. -/
theorem infix_replaceFrom (hpat : c ∉ pat) (hhole : c ∉ hole)
    (hunlike : ¬ hole <+: pat ∧ ¬ pat <+: hole)
    {skip : Nat} (hskip : c ∉ cs.take skip) (h : c :: hole <:+: cs) :
    c :: hole <:+: replaceFrom (c :: pat) new skip cs := by
  induction cs generalizing skip with
  | nil => exact absurd (List.infix_nil.1 h) (List.cons_ne_nil _ _)
  | cons x cs ih =>
    cases skip with
    | succ skip =>
      -- the hole begins behind the character that is passed over
      rw [List.take_succ_cons, List.mem_cons, not_or] at hskip
      rcases List.infix_cons_iff.1 h with hprefix | hlater
      · exact absurd (List.cons_prefix_cons.1 hprefix).1 hskip.1
      · exact ih hskip.2 hlater
    | zero =>
      rw [replaceFrom]
      split
      · next hstands =>
        obtain ⟨rfl, hpattern⟩ := List.cons_prefix_cons.1 (List.isPrefixOf_iff_prefix.1 hstands)
        rcases List.infix_cons_iff.1 h with hprefix | hlater
        · have hprefix := (List.cons_prefix_cons.1 hprefix).2
          exact ((List.prefix_or_prefix_of_prefix hprefix hpattern).elim hunlike.1 hunlike.2).elim
        · refine (ih ?_ hlater).trans (List.suffix_append ..).isInfix
          rwa [List.length_cons, Nat.add_sub_cancel, ← List.prefix_iff_eq_take.1 hpattern]
      · rcases List.infix_cons_iff.1 h with hprefix | hlater
        · obtain ⟨rfl, ⟨rest, rfl⟩⟩ := List.cons_prefix_cons.1 hprefix
          rw [replaceFrom_append hhole]
          exact (List.prefix_append (c :: hole) _).isInfix
        · exact List.infix_cons (ih (by simp) hlater)

end Replacing

section Pairs

variable {α : Type} {c : α} {xs ys : List α}

/-- Two equal characters stand side by side in one of two parts of a text, or where these meet. -/
theorem pair_infix_append : [c, c] <:+: xs ++ ys ↔
    [c, c] <:+: xs ∨ [c, c] <:+: ys ∨ xs.getLast? = some c ∧ ys.head? = some c := by
  rw [List.infix_append_iff_ne_nil]
  refine or_congr_right (or_congr_right ⟨?_, ?_⟩)
  · rintro ⟨l, r, hl, hr, heq, hsuffix, hprefix⟩
    match l, r, heq with
    | [], _, _ => exact absurd rfl hl
    | [_], [_], rfl =>
      obtain ⟨as, rfl⟩ := hsuffix
      obtain ⟨bs, rfl⟩ := hprefix
      exact ⟨List.getLast?_concat, rfl⟩
    | [_, _], [], rfl => exact absurd rfl hr
  · rintro ⟨hlast, hhead⟩
    obtain ⟨as, rfl⟩ := List.getLast?_eq_some_iff.1 hlast
    obtain ⟨bs, rfl⟩ := List.head?_eq_some_iff.1 hhead
    exact ⟨[c], [c], by simp, by simp, rfl, List.suffix_append .., List.prefix_append [c] bs⟩

theorem not_pair_infix_of_not_mem (h : c ∉ xs) : ¬ [c, c] <:+: xs :=
  fun hstands => h (hstands.subset List.mem_cons_self)

theorem not_pair_infix_singleton (d : α) : ¬ [c, c] <:+: [d] :=
  fun hstands => absurd hstands.length_le (by simp)

theorem pair_infix_append_left (h : c ∉ xs) : [c, c] <:+: xs ++ ys ↔ [c, c] <:+: ys := by
  rw [pair_infix_append]
  refine ⟨?_, fun hstands => .inr (.inl hstands)⟩
  rintro (hstands | hstands | ⟨hlast, -⟩)
  · exact absurd hstands (not_pair_infix_of_not_mem h)
  · exact hstands
  · exact absurd (List.mem_of_getLast? hlast) h

theorem pair_infix_append_right (h : c ∉ ys) : [c, c] <:+: xs ++ ys ↔ [c, c] <:+: xs := by
  rw [pair_infix_append]
  refine ⟨?_, .inl⟩
  rintro (hstands | hstands | ⟨-, hhead⟩)
  · exact hstands
  · exact absurd hstands (not_pair_infix_of_not_mem h)
  · exact absurd (List.mem_of_head? hhead) h

theorem pair_infix_append_cons {d : α} (h : d ≠ c) :
    [c, c] <:+: xs ++ d :: ys ↔ [c, c] <:+: xs ∨ [c, c] <:+: ys := by
  have htail : [c, c] <:+: d :: ys ↔ [c, c] <:+: ys :=
    pair_infix_append_left (show c ∉ [d] by simpa using h.symm)
  have hmeet : ¬ (xs.getLast? = some c ∧ (d :: ys).head? = some c) := fun hboth =>
    h (Option.some.inj hboth.2)
  rw [pair_infix_append, htail]
  simp only [hmeet, or_false]

end Pairs

section Ends

variable {α : Type} {p : α → Bool} {xs ys : List α}

theorem rdropWhile_append_of_pos (h : ∀ x ∈ ys, p x) :
    (xs ++ ys).rdropWhile p = xs.rdropWhile p := by
  have hreverse : ∀ y ∈ ys.reverse, p y := fun y hy => h y (List.mem_reverse.1 hy)
  rw [List.rdropWhile, List.reverse_append, List.dropWhile_append_of_pos hreverse]
  rfl

theorem rdropWhile_eq_self (h : ∀ x ∈ xs.getLast?, p x = false) : xs.rdropWhile p = xs := by
  rw [List.rdropWhile_eq_self_iff]
  intro hne
  rw [h _ (List.getLast?_eq_some_getLast hne)]
  exact Bool.false_ne_true

theorem rdropWhile_append_of_neg (h : ∀ x ∈ xs.getLast?, p x = false) :
    (xs ++ ys).rdropWhile p = xs ++ ys.rdropWhile p := by
  induction ys using List.reverseRecOn with
  | nil =>
    rw [List.append_nil, List.rdropWhile_nil, List.append_nil]
    exact rdropWhile_eq_self h
  | append_singleton ys y ih =>
    rw [← List.append_assoc, List.rdropWhile_concat, List.rdropWhile_concat, ih]
    split
    · rfl
    · rw [List.append_assoc]

variable {before text behind : List Char}

/-- The blanks around a text are trimmed off it. -/
theorem trim_append (hbefore : ∀ c ∈ before, isBlank c = true)
    (hbehind : ∀ c ∈ behind, isBlank c = true)
    (hhead : ∀ c ∈ text.head?, isBlank c = false) (hlast : ∀ c ∈ text.getLast?, isBlank c = false)
    (hne : text ≠ []) : trim (before ++ (text ++ behind)) = text := by
  show (skipBlank (before ++ (text ++ behind))).rdropWhile isBlank = text
  have hskip : skipBlank (before ++ (text ++ behind)) = text ++ behind := by
    obtain ⟨c, cs, rfl⟩ := List.exists_cons_of_ne_nil hne
    rw [skipBlank, List.dropWhile_append_of_pos hbefore]
    exact skipBlank_cons_of_not_blank (hhead c rfl)
  rw [hskip, rdropWhile_append_of_pos hbehind, rdropWhile_eq_self hlast]

/-- What is trimmed off a text is blank, and what is left does not end in a blank. -/
theorem exists_eq_trim (cs : List Char) : ∃ before behind, cs = before ++ (trim cs ++ behind) ∧
    (∀ c ∈ before, isBlank c = true) ∧ (∀ c ∈ behind, isBlank c = true) ∧
    ∀ c ∈ (trim cs).getLast?, isBlank c = false := by
  refine ⟨cs.takeWhile isBlank, (skipBlank cs).rtakeWhile isBlank, ?_, fun c hc =>
    List.mem_takeWhile_imp hc,
    fun c hc => List.mem_rtakeWhile_imp hc, fun c hc => ?_⟩
  · show cs = cs.takeWhile isBlank ++
        ((skipBlank cs).rdropWhile isBlank ++ (skipBlank cs).rtakeWhile isBlank)
    rw [List.rdropWhile_append_rtakeWhile, skipBlank, List.takeWhile_append_dropWhile]
  · obtain ⟨hne, rfl⟩ := List.mem_getLast?_eq_getLast hc
    exact Bool.eq_false_iff.2 (List.rdropWhile_last_not isBlank _ hne)

end Ends

end Text

end MeshLimiter
