import MeshLimiter.Json.Reader
import MeshLimiter.Json.Writer
/-!
# The text of a JSON value is its own

The compact text of a value without fractions tells the value and where it ends. A text inside is
read back as it was written; a number ends where the digits end; and all else is closed by a
character of its own.

* **`Json.readText_flatMap`**: a text is read back;
* **`Json.chars_append_inj`**: two values that begin the same characters are the same;
* **`Json.compact_inj`**: so no two values have the same text;
* **`Json.compact_obj_append_inj`**: and the text of an object tells where it ends, whatever
  follows.
-/

namespace MeshLimiter

/-! ## Integers

Their digits end where no digit follows. -/

namespace Decimal

/-- A text that goes on with anything but a digit. -/
def EndsNumber (cs : List Char) : Prop :=
  ∀ c ∈ cs.head?, c.isDigit = false

theorem natDigits_append_inj {m n : Nat} {s t : List Char} (hs : EndsNumber s) (ht : EndsNumber t)
    (h : natDigits m ++ s = natDigits n ++ t) : m = n ∧ s = t := by
  -- what follows begins with no digit, so the digits of both are cut off at the same place
  have hsplit : ∀ (k : Nat) {u : List Char}, EndsNumber u →
      (natDigits k ++ u).takeWhile Char.isDigit = natDigits k := by
    intro k u hu
    rw [List.takeWhile_append_of_pos fun c => isDigit_of_mem_natDigits]
    cases u with
    | nil => simp
    | cons c u => simp [hu c rfl]
  have hsame : natDigits m = natDigits n := by rw [← hsplit m hs, h, hsplit n ht]
  refine ⟨?_, List.append_cancel_left (h.trans (by rw [hsame]))⟩
  rw [← Nat.ofDigitChars_toDigits (b := 10) (n := m) (by decide) (by decide),
    ← Nat.ofDigitChars_toDigits (b := 10) (n := n) (by decide) (by decide)]
  exact congrArg (Nat.ofDigitChars 10 · 0) hsame

/-- A number begins with a digit or a sign. -/
theorem exists_intText (i : Int) : ∃ c cs, (intText i).toList = c :: cs ∧
    (c = '-' ∨ c.isDigit = true) := by
  cases i with
  | ofNat n =>
    obtain ⟨c, cs, hc, hd⟩ := exists_natDigits n
    exact ⟨c, cs, by simp [intText, natText, hc], .inr hd⟩
  | negSucc n => exact ⟨'-', natDigits (n + 1), by simp [intText, natText], .inl rfl⟩

theorem intText_append_inj {i j : Int} {s t : List Char} (hs : EndsNumber s) (ht : EndsNumber t)
    (h : (intText i).toList ++ s = (intText j).toList ++ t) : i = j ∧ s = t := by
  -- no digit is a minus sign, so numbers of different signs differ at once
  have hsign : ∀ (m n : Nat) (u v : List Char), natDigits m ++ u ≠ '-' :: (natDigits n ++ v) := by
    intro m n u v heq
    obtain ⟨c, cs, hc, hd⟩ := exists_natDigits m
    rw [hc, List.cons_append] at heq
    rw [(List.cons.inj heq).1] at hd
    cases hd
  cases i with
  | ofNat m =>
    cases j with
    | ofNat n =>
      obtain ⟨rfl, hst⟩ := natDigits_append_inj hs ht (by simpa [intText, natText] using h)
      exact ⟨rfl, hst⟩
    | negSucc n => exact (hsign _ _ _ _ (by simpa [intText, natText] using h)).elim
  | negSucc m =>
    cases j with
    | ofNat n => exact (hsign _ _ _ _ (by simpa [intText, natText] using h.symm)).elim
    | negSucc n =>
      obtain ⟨hmn, hst⟩ := natDigits_append_inj hs ht (by simpa [intText, natText] using h)
      exact ⟨by omega, hst⟩

end Decimal

namespace Json

open Decimal (EndsNumber)

/-! ## Texts

A text ends at the first quotation mark that is not escaped. -/

/-- The digits of a small number, read back. -/
theorem readDigits?_hex {n : Nat} (h : n < 0x20) :
    Decimal.readDigits? 16 ['0', '0', Nat.digitChar (n / 16), Nat.digitChar (n % 16)] = some n := by
  have hall : ∀ n < 0x20,
      Decimal.readDigits? 16 ['0', '0', Nat.digitChar (n / 16), Nat.digitChar (n % 16)]
        = some n := by
    decide
  exact hall n h

theorem escape?_u {n : Nat} (h : n < 0x20) (cs : List Char) :
    escape? ('u' :: '0' :: '0' :: Nat.digitChar (n / 16) :: Nat.digitChar (n % 16) :: cs)
      = some (Char.ofNat n, cs) := by
  rw [escape?, unicode?, hexQuad?, readDigits?_hex h]
  have hlow : ¬ 0xD800 ≤ n ∧ ¬ 0xDC00 ≤ n := by omega
  simp [hlow]

theorem readText_escape {cs rest : List Char} {c : Char} (h : escape? cs = some (c, rest)) :
    readText ('\\' :: cs) = (readText rest).map fun (text, rest) => (c :: text, rest) := by
  rw [readText]
  split
  · next heq => cases heq.symm.trans h
  · next heq =>
    cases heq.symm.trans h
    rfl

/-- A character is read back, whatever follows. -/
theorem readText_escapedChar (c : Char) (cs : List Char) : readText (escapedChar c ++ cs)
    = (readText cs).map fun (text, rest) => (c :: text, rest) := by
  unfold escapedChar
  split
  · next h => subst h; exact readText_escape rfl
  split
  · next h => subst h; exact readText_escape rfl
  split
  · next h => subst h; exact readText_escape rfl
  split
  · next h => subst h; exact readText_escape rfl
  split
  · next h => subst h; exact readText_escape rfl
  split
  · next h => subst h; exact readText_escape rfl
  split
  · next h => subst h; exact readText_escape rfl
  split
  · next h =>
    -- a control character is read back from its number
    have hread := readText_escape (escape?_u h cs)
    rw [Char.ofNat_toNat] at hread
    exact hread
  · next hquote hslash _ _ _ _ _ hcontrol =>
    rw [List.cons_append, List.nil_append, readText]
    · exact if_neg hcontrol
    · exact hquote
    · exact hslash

/-- **A text is read back** as it was written, up to its closing quote. -/
theorem readText_flatMap (s cs : List Char) :
    readText (s.flatMap escapedChar ++ '"' :: cs) = some (s, cs) := by
  induction s with
  | nil => rw [List.flatMap_nil, List.nil_append, readText]
  | cons c s ih =>
    rw [List.flatMap_cons, List.append_assoc, readText_escapedChar, ih]
    rfl

theorem textChars_append_inj {s t : String} {u v : List Char}
    (h : textChars s ++ u = textChars t ++ v) : s = t ∧ u = v := by
  have hread : ∀ (s : String) (u : List Char), readText (textChars s ++ u).tail
      = some (s.toList, u) := by
    intro s u
    rw [← readText_flatMap s.toList u]
    simp [textChars]
  have hsame := hread s u
  rw [h, hread t v] at hsame
  obtain ⟨hst, huv⟩ := Prod.mk.inj (Option.some.inj hsame)
  exact ⟨(String.toList_inj.1 hst).symm, huv.symm⟩

/-! ## Lists

Items are separated by commas, and each of them ends by itself. -/

section Lists

variable {α : Type} {f : α → List Char} {close : Char} {s t : List Char}

/-- Things with commas between them. -/
def listed (f : α → List Char) : List α → List Char
  | [] => []
  | x :: xs => f x ++ xs.flatMap fun y => ',' :: f y

/-- A thing that is written like no other that is asked for, whatever follows. -/
def WrittenApart (Q : α → Prop) (f : α → List Char) (x : α) : Prop :=
  ∀ ⦃y s t⦄, Q y → EndsNumber s → EndsNumber t → f x ++ s = f y ++ t → x = y ∧ s = t

variable {Q : α → Prop}

theorem endsNumber_flatMap (hdigit : close.isDigit = false) (xs : List α) (s : List Char) :
    EndsNumber ((xs.flatMap fun x => ',' :: f x) ++ close :: s) := by
  intro c hc
  cases xs with
  | nil => cases hc; exact hdigit
  | cons x xs => cases hc; rfl

/-- What goes on with commas up to a closing character. -/
theorem flatMap_append_inj (hcomma : close ≠ ',') (hdigit : close.isDigit = false) {xs ys : List α}
    (hxs : ∀ x ∈ xs, WrittenApart Q f x) (hys : ∀ y ∈ ys, Q y)
    (h : (xs.flatMap fun x => ',' :: f x) ++ close :: s = (ys.flatMap fun y => ',' :: f y)
      ++ close :: t) :
    xs = ys ∧ s = t := by
  induction xs generalizing ys with
  | nil =>
    cases ys with
    | nil => exact ⟨rfl, (List.cons.inj h).2⟩
    | cons y ys => exact (hcomma (List.cons.inj h).1).elim
  | cons x xs ih =>
    cases ys with
    | nil => exact (hcomma (List.cons.inj h).1.symm).elim
    | cons y ys =>
      simp only [List.flatMap_cons, List.cons_append, List.append_assoc, List.cons.injEq,
        true_and] at h
      -- the first values are cut off alike, since a comma or the close ends each
      obtain ⟨rfl, hrest⟩ := hxs x List.mem_cons_self (hys y List.mem_cons_self)
        (endsNumber_flatMap hdigit _ _) (endsNumber_flatMap hdigit _ _) h
      obtain ⟨rfl, hst⟩ := ih (fun z hz => hxs z (List.mem_cons_of_mem _ hz))
        (fun z hz => hys z (List.mem_cons_of_mem _ hz)) hrest
      exact ⟨rfl, hst⟩

/-- A list of things up to a closing character that none of them begins with. -/
theorem listed_append_inj (hcomma : close ≠ ',') (hdigit : close.isDigit = false)
    (hopen : ∀ y, Q y → ∀ u v, f y ++ u ≠ close :: v) {xs ys : List α}
    (hxs : ∀ x ∈ xs, WrittenApart Q f x) (hQ : ∀ x ∈ xs, Q x) (hys : ∀ y ∈ ys, Q y)
    (h : listed f xs ++ close :: s = listed f ys ++ close :: t) : xs = ys ∧ s = t := by
  cases xs with
  | nil =>
    cases ys with
    | nil => exact ⟨rfl, (List.cons.inj h).2⟩
    | cons y ys =>
      simp only [listed, List.nil_append, List.append_assoc] at h
      -- the close comes at once in one list, and no value begins with it
      exact (hopen y (hys y List.mem_cons_self) _ _ h.symm).elim
  | cons x xs =>
    cases ys with
    | nil =>
      simp only [listed, List.nil_append, List.append_assoc] at h
      exact (hopen x (hQ x List.mem_cons_self) _ _ h).elim
    | cons y ys =>
      rw [listed, listed, List.append_assoc, List.append_assoc] at h
      obtain ⟨rfl, hrest⟩ := hxs x List.mem_cons_self (hys y List.mem_cons_self)
        (endsNumber_flatMap hdigit _ _) (endsNumber_flatMap hdigit _ _) h
      obtain ⟨rfl, hst⟩ := flatMap_append_inj hcomma hdigit
        (fun z hz => hxs z (List.mem_cons_of_mem _ hz))
          (fun z hz => hys z (List.mem_cons_of_mem _ hz)) hrest
      exact ⟨rfl, hst⟩

end Lists

/-! ## Values

The first character tells what kind of value it is, and each kind tells where it ends. -/

/-- All numbers of a value are whole. -/
inductive Whole : Json → Prop where
  | null : Whole .null
  | bool (b : Bool) : Whole (.bool b)
  | int (i : Int) : Whole (.num (.int i))
  | str (s : String) : Whole (.str s)
  | arr {items : List Json} (whole : ∀ v ∈ items, Whole v) : Whole (.arr items)
  | obj {members : List (String × Json)} (whole : ∀ m ∈ members, Whole m.2) : Whole (.obj members)

theorem itemChars_eq_listed (items : List Json) : itemChars items = listed chars items := by
  cases items with
  | nil => rfl
  | cons v vs =>
    induction vs generalizing v with
    | nil => rw [itemChars, listed, List.flatMap_nil, List.append_nil]
    | cons w vs ih => rw [itemChars, ih, listed, listed, List.flatMap_cons, List.cons_append]

/-- A member of an object as it is written. -/
def oneMemberChars (m : String × Json) : List Char :=
  textChars m.1 ++ ':' :: chars m.2

theorem memberChars_eq_listed (members : List (String × Json)) :
    memberChars members = listed oneMemberChars members := by
  cases members with
  | nil => rfl
  | cons m ms =>
    induction ms generalizing m with
    | nil => rw [memberChars, listed, List.flatMap_nil, List.append_nil]; rfl
    | cons n ms ih =>
      rw [memberChars, ih, listed, listed, List.flatMap_cons, List.cons_append]
      rfl

/-- Whether a value may begin with a character. -/
def leads : Json → Char → Bool
  | null, c => c = 'n'
  | bool b, c => c = if b then 't' else 'f'
  | num _, c => c = '-' || c.isDigit
  | str _, c => c = '"'
  | arr _, c => c = '['
  | obj _, c => c = '\x7b'

theorem exists_leads {v : Json} (hv : v.Whole) : ∃ c cs, chars v = c :: cs ∧ leads v c = true := by
  cases hv with
  | null => exact ⟨'n', "ull".toList, rfl, rfl⟩
  | bool b => cases b with
    | true => exact ⟨'t', "rue".toList, rfl, rfl⟩
    | false => exact ⟨'f', "alse".toList, rfl, rfl⟩
  | int i =>
    obtain ⟨c, cs, hc, hkind⟩ := Decimal.exists_intText i
    exact ⟨c, cs, by rw [chars, numberChars, hc], by simpa [leads] using hkind⟩
  | str s => exact ⟨'"', s.toList.flatMap escapedChar ++ ['"'], by rw [chars, textChars]; rfl, rfl⟩
  | arr => exact ⟨'[', _, by rw [chars]; rfl, rfl⟩
  | obj => exact ⟨'\x7b', _, by rw [chars]; rfl, rfl⟩

/-- No value begins with the end of an array. -/
theorem chars_append_ne_close {v : Json} (hv : v.Whole) (s t : List Char) :
    chars v ++ s ≠ ']' :: t := by
  obtain ⟨c, cs, hc, hlead⟩ := exists_leads hv
  rw [hc]
  intro h
  rw [(List.cons.inj h).1] at hlead
  cases hv with
  | bool b => cases b <;> cases hlead
  | _ => cases hlead

/-- Values that begin the same characters may begin with the same one. -/
theorem exists_common_lead {v w : Json} {s t : List Char} (hv : v.Whole) (hw : w.Whole)
    (h : chars v ++ s = chars w ++ t) : ∃ c, leads v c = true ∧ leads w c = true := by
  obtain ⟨c, cs, hc, hlead⟩ := exists_leads hv
  obtain ⟨d, ds, hd, hlead'⟩ := exists_leads hw
  rw [hc, hd] at h
  rw [← (List.cons.inj h).1] at hlead'
  exact ⟨c, hlead, hlead'⟩

theorem writtenApart_member {m : String × Json} (hm : WrittenApart Whole chars m.2) :
    WrittenApart (fun n : String × Json => n.2.Whole) oneMemberChars m := by
  obtain ⟨k, v⟩ := m
  rintro ⟨k', v'⟩ s t hw hs ht h
  simp only [oneMemberChars, List.append_assoc, List.cons_append] at h
  obtain ⟨rfl, hrest⟩ := textChars_append_inj h
  obtain ⟨rfl, hst⟩ := hm hw hs ht (List.cons.inj hrest).2
  exact ⟨rfl, hst⟩

/-- An object is closed by its own brace, so it does not matter what follows. -/
theorem obj_append_inj {members others : List (String × Json)} {s t : List Char}
    (hapart : ∀ m ∈ members, WrittenApart Whole chars m.2) (hmembers : ∀ m ∈ members, m.2.Whole)
    (hothers : ∀ m ∈ others, m.2.Whole) (h : chars (.obj members) ++ s = chars (.obj others) ++ t) :
    members = others ∧ s = t := by
  rw [chars, chars, memberChars_eq_listed, memberChars_eq_listed] at h
  simp only [List.cons_append, List.append_assoc, List.nil_append, List.cons.injEq, true_and] at h
  exact listed_append_inj (by decide) (by decide)
    (fun y _ u v heq => by simp [oneMemberChars, textChars] at heq)
    (fun m hm => writtenApart_member (hapart m hm)) hmembers hothers h

/-- **Two values that begin the same characters are the same**, if what follows does not go on with
a digit. -/
theorem chars_append_inj {v : Json} (hv : v.Whole) : WrittenApart Whole chars v := by
  induction hv with
  -- in each case the first character leaves no choice of what kind the other value is
  | null =>
    intro w s t hw hs ht h
    obtain ⟨c, hc, hlead⟩ := exists_common_lead .null hw h
    obtain rfl := of_decide_eq_true hc
    cases hw with
    | null => exact ⟨rfl, List.append_cancel_left h⟩
    | bool b => cases b <;> cases hlead
    | _ => cases hlead
  | bool b =>
    intro w s t hw hs ht h
    obtain ⟨c, hc, hlead⟩ := exists_common_lead (.bool b) hw h
    obtain rfl := of_decide_eq_true hc
    cases hw with
    | bool b' =>
      obtain rfl : b = b' := by
        revert hlead
        cases b <;> cases b' <;> decide
      exact ⟨rfl, List.append_cancel_left h⟩
    | _ => cases b <;> cases hlead
  | int i =>
    intro w s t hw hs ht h
    obtain ⟨c, hc, hlead⟩ := exists_common_lead (.int i) hw h
    cases hw with
    | int j =>
      rw [chars, chars] at h
      obtain ⟨rfl, hst⟩ := Decimal.intText_append_inj hs ht h
      exact ⟨rfl, hst⟩
    | bool b =>
      obtain rfl := of_decide_eq_true hlead
      cases b <;> cases hc
    | _ =>
      obtain rfl := of_decide_eq_true hlead
      cases hc
  | str a =>
    intro w s t hw hs ht h
    obtain ⟨c, hc, hlead⟩ := exists_common_lead (.str a) hw h
    obtain rfl := of_decide_eq_true hc
    cases hw with
    | str b =>
      rw [chars, chars] at h
      obtain ⟨rfl, hst⟩ := textChars_append_inj h
      exact ⟨rfl, hst⟩
    | bool b => cases b <;> cases hlead
    | _ => cases hlead
  | @arr items whole ih =>
    intro w s t hw hs ht h
    obtain ⟨c, hc, hlead⟩ := exists_common_lead (.arr whole) hw h
    obtain rfl := of_decide_eq_true hc
    cases hw with
    | arr whole' =>
      rw [chars, chars, itemChars_eq_listed, itemChars_eq_listed] at h
      simp only [List.cons_append, List.append_assoc, List.nil_append, List.cons.injEq,
        true_and] at h
      obtain ⟨rfl, hst⟩ := listed_append_inj (by decide) (by decide)
        (fun y hy => chars_append_ne_close hy) ih whole whole' h
      exact ⟨rfl, hst⟩
    | bool b => cases b <;> cases hlead
    | _ => cases hlead
  | @obj members whole ih =>
    intro w s t hw hs ht h
    obtain ⟨c, hc, hlead⟩ := exists_common_lead (.obj whole) hw h
    obtain rfl := of_decide_eq_true hc
    cases hw with
    | obj whole' =>
      obtain ⟨rfl, hst⟩ := obj_append_inj ih whole whole' h
      exact ⟨rfl, hst⟩
    | bool b => cases b <;> cases hlead
    | _ => cases hlead

theorem toList_compact (v : Json) : v.compact.toList = chars v :=
  String.toList_ofList

/-- **No two values have the same text.** -/
theorem compact_inj {v w : Json} (hv : v.Whole) (hw : w.Whole) (h : v.compact = w.compact) :
    v = w := by
  have hends : EndsNumber [] := fun c hc => nomatch hc
  have hchars : chars v = chars w := by rw [← toList_compact v, h, toList_compact w]
  exact (chars_append_inj hv hw hends hends (congrArg (· ++ []) hchars)).1

/-- **The text of an object tells the object and where it ends**, whatever follows. -/
theorem compact_obj_append_inj {members others : List (String × Json)} {s t : String}
    (hv : (obj members).Whole) (hw : (obj others).Whole)
    (h : (obj members).compact ++ s = (obj others).compact ++ t) : members = others ∧ s = t := by
  have hchars : chars (obj members) ++ s.toList = chars (obj others) ++ t.toList := by
    simpa [toList_compact] using congrArg String.toList h
  cases hv with
  | obj hmembers =>
    cases hw with
    | obj hothers =>
      obtain ⟨rfl, hst⟩ :=
        obj_append_inj (fun m hm => chars_append_inj (hmembers m hm)) hmembers hothers hchars
      exact ⟨rfl, String.toList_inj.1 hst⟩

end Json

end MeshLimiter
