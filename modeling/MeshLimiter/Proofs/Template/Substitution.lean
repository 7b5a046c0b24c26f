import MeshLimiter.Proofs.Decimal.Literal
import MeshLimiter.Proofs.Template.Rendering
/-!
# Numbers in the place of placeholders

Values are put into a template as texts, before anything is cut into tokens. The text of a number is
a literal or a minus sign and a literal, so a placeholder becomes one token or two. Signs bind
tighter than any operator that joins, so the tree around it stays as it was.

* **`NumberText`**: the texts of numbers that are collected;
* **`Expands`**, **`Derives.expand`**: numbers that are written with a sign in front of their size,
  and the tree that the grammar derives then;
* **`substitution_hygienic`**: a template has the value of the expression in which each placeholder
  is a single operand; it has none if a text in it is not that of a number.
-/

namespace MeshLimiter.Template

open Decimal
    (Literal natDigits natText floatText readFloat? readUnsigned? readName? isFinite
    Binary64 Scaled)

/-! ## Texts of numbers

Such a text is a literal, possibly with a sign in front. -/

/-- A text that a collection writes, and the number that it is of: that of pods, or a sample, which
is read back. -/
inductive NumberText : String → Float → Prop where
  | count (n : Nat) : NumberText (natText n) (Literal.mk (natDigits n) 0).toFloat
  | sample {x : Float} (finite : isFinite x = true) (back : readFloat? (floatText x) = some x) :
    NumberText (floatText x) x

/-- The texts of samples that are no numbers. -/
def Unnumbered (text : String) : Prop :=
  text = "NaN" ∨ text = "inf" ∨ text = "-inf"

instance (text : String) : Decidable (Unnumbered text) :=
  inferInstanceAs (Decidable (text = "NaN" ∨ text = "inf" ∨ text = "-inf"))

/-- Every sample is written as one or the other, if finite numbers are read back. -/
theorem numberText_or_unnumbered {x : Float}
    (back : isFinite x = true → readFloat? (floatText x) = some x) :
    NumberText (floatText x) x ∨ Unnumbered (floatText x) := by
  cases hfinite : isFinite x with
  | true => exact .inl (.sample hfinite (back hfinite))
  | false =>
    right
    unfold isFinite at hfinite
    unfold floatText
    cases hx : Binary64.ofFloat x with
    | nan => exact .inl rfl
    | infinite negative =>
      cases negative with
      | false => exact .inr (.inl rfl)
      | true => exact .inr (.inr rfl)
    | finite =>
      rw [hx] at hfinite
      cases hfinite

/-- A text that begins with a digit. -/
def Digital (cs : List Char) : Prop :=
  ∃ c rest, cs = c :: rest ∧ c.isDigit = true

theorem digital_positional (s : Scaled) : Digital s.positional.toList := by
  obtain ⟨d, ds, hdigits, hd⟩ := Decimal.exists_natDigits s.digits
  unfold Scaled.positional
  dsimp only
  split
  · refine ⟨d, ds ++ List.replicate s.exponent.toNat '0', ?_, hd⟩
    rw [String.toList_ofList, hdigits, List.cons_append]
  · -- at least one digit is left in front of the point
    generalize hfull : List.replicate ((-s.exponent).toNat + 1 - (natDigits s.digits).length) '0'
      ++ natDigits s.digits = full
    have hlength : (-s.exponent).toNat < full.length := by
      rw [← hfull]
      simp
      omega
    have hall : ∀ c ∈ full, c.isDigit = true := by
      rw [← hfull]
      refine List.forall_mem_append.2 ⟨fun c hc => ?_, fun c => Decimal.isDigit_of_mem_natDigits⟩
      obtain rfl := List.eq_of_mem_replicate hc
      rfl
    obtain ⟨c, rest, rfl⟩ : ∃ c rest, full = c :: rest :=
      List.exists_cons_of_ne_nil (by rintro rfl; simp at hlength)
    obtain ⟨k, hk⟩ : ∃ k, (c :: rest).length - (-s.exponent).toNat = k + 1 :=
      ⟨(c :: rest).length - (-s.exponent).toNat - 1, by omega⟩
    refine ⟨c, rest.take k ++ '.' :: (c :: rest).drop (k + 1), ?_, hall c List.mem_cons_self⟩
    rw [String.toList_ofList, hk]
    rfl

/-- The text of a finite number is that of its size, behind a sign if it is negative. -/
theorem floatText_cases {x : Float} (h : isFinite x = true) : ∃ size, Digital size ∧
    ((floatText x).toList = size ∨ (floatText x).toList = '-' :: size) := by
  unfold isFinite at h
  unfold floatText
  cases hx : Binary64.ofFloat x with
  | nan | infinite =>
    rw [hx] at h
    cases h
  | finite negative m q =>
    -- the sign stands before the text of the magnitude
    have hsize : Digital (if m == 0 then "0" else (Decimal.shortest m q).positional).toList := by
      split
      · exact ⟨'0', [], rfl, rfl⟩
      · exact digital_positional _
    refine ⟨_, hsize, ?_⟩
    cases negative with
    | false => exact .inl rfl
    | true =>
      refine .inr ?_
      show ("-" ++ _ : String).toList = _
      rw [String.toList_append]
      rfl

theorem toLower_of_digit {c : Char} (h : c.isDigit = true) : c.toLower = c := by
  have hupper : ¬ (c.val ≥ 'A'.val ∧ c.val ≤ 'Z'.val) := by
    simp only [Char.isDigit, Bool.and_eq_true, decide_eq_true_eq] at h
    rintro ⟨hge, -⟩
    have hle := UInt32.le_iff_toNat_le.1 h.2
    have hlt := UInt32.le_iff_toNat_le.1 hge
    simp at hle hlt
    omega
  exact dif_neg hupper

/-- What begins with a digit is read as a literal or not at all. -/
theorem readUnsigned?_of_digital {cs : List Char} (h : Digital cs) :
    readUnsigned? cs = (Literal.read? cs).map Literal.toFloat := by
  obtain ⟨c, rest, rfl, hc⟩ := h
  have hname : readName? (c :: rest) = none := by
    have hi : c.toLower ≠ 'i' := by
      rw [toLower_of_digit hc]
      rintro rfl
      cases hc
    have hn : c.toLower ≠ 'n' := by
      rw [toLower_of_digit hc]
      rintro rfl
      cases hc
    simp [readName?, hi, hn]
  rw [readUnsigned?, hname]

/-- **The text of a number is a literal, or a minus sign and a literal.** -/
theorem NumberText.literal {text : String} {x : Float} (h : NumberText text x) :
    (∃ l, Literal.read? text.toList = some l ∧ l.toFloat = x) ∨
      ∃ cs l, text.toList = '-' :: cs ∧ Literal.read? cs = some l ∧ -l.toFloat = x := by
  cases h with
  | count n =>
    refine .inl ⟨_, ?_, rfl⟩
    rw [natText, String.toList_ofList, Literal.read?_digits (Decimal.natDigits_ne_nil n) fun c =>
      Decimal.isDigit_of_mem_natDigits]
  | sample finite back =>
    -- a count has no sign; a sample is read back with its sign apart
    obtain ⟨size, hsize, htext | htext⟩ := floatText_cases finite
    · left
      -- the text begins with a digit, so no sign is read
      obtain ⟨c, rest, rfl, hc⟩ := hsize
      have hread : readFloat? (floatText x) = readUnsigned? (c :: rest) := by
        unfold readFloat?
        rw [htext]
        split
        · next h =>
          obtain ⟨rfl, -⟩ := List.cons.inj h
          cases hc
        · next h =>
          obtain ⟨rfl, -⟩ := List.cons.inj h
          cases hc
        · rfl
      rw [hread, readUnsigned?_of_digital ⟨c, rest, rfl, hc⟩] at back
      rw [htext]
      exact Option.map_eq_some_iff.1 back
    · right
      have hread : readFloat? (floatText x) = (readUnsigned? size).map (- ·) := by
        unfold readFloat?
        rw [htext]
        rfl
      rw [hread, readUnsigned?_of_digital hsize, Option.map_map] at back
      obtain ⟨l, hl, hx⟩ := Option.map_eq_some_iff.1 back
      exact ⟨size, l, htext, hl, hx⟩

/-! ## Signs in the place of numbers

A number with its sign is a tree of a looser level than a number, but it stands for itself in any
place. -/

def Token.isNumber : Token → Bool
  | number _ => true
  | _ => false

/-- Tokens in which some numbers have come to be a minus sign and their size. -/
inductive Expands : List Token → List Token → Prop where
  | nil : Expands [] []
  | keep (t : Token) {ts us : List Token} (h : Expands ts us) : Expands (t :: ts) (t :: us)
  | negate {x y : Float} (hx : -y = x) {ts us : List Token} (h : Expands ts us) :
    Expands (.number x :: ts) (.op .sub :: .number y :: us)

variable {a b : Bool} {k : Nat} {ts us vs : List Token} {e : Expr}

theorem expands_append : Expands (ts ++ us) vs ↔ ∃ ts' us', vs = ts' ++ us' ∧ Expands ts ts' ∧
    Expands us us' := by
  constructor
  · -- the cut falls between two tokens, and an expansion expands token by token
    intro h
    induction ts generalizing vs with
    | nil => exact ⟨[], vs, rfl, .nil, h⟩
    | cons t ts ih =>
      cases h with
      | keep _ h =>
        obtain ⟨ts', us', rfl, hts, hus⟩ := ih h
        exact ⟨t :: ts', us', rfl, .keep t hts, hus⟩
      | negate hx h =>
        obtain ⟨ts', us', rfl, hts, hus⟩ := ih h
        exact ⟨_ :: _ :: ts', us', rfl, .negate hx hts, hus⟩
  · rintro ⟨ts', us', rfl, hts, hus⟩
    induction hts with
    | nil => exact hus
    | keep t _ ih => exact .keep t ih
    | negate hx _ ih => exact .negate hx ih

/-- Tokens that are no numbers are left. -/
theorem expands_cons {t : Token} (ht : t.isNumber = false) :
    Expands (t :: ts) vs ↔ ∃ us, vs = t :: us ∧ Expands ts us := by
  constructor
  · intro h
    cases h with
    | keep _ h => exact ⟨_, rfl, h⟩
    | negate => cases ht
  · rintro ⟨us, rfl, h⟩
    exact .keep t h

theorem Expands.inPlace (h : Expands ts us) (hp : InPlace a ts b) : InPlace a us b := by
  induction h generalizing a with
  | nil => exact hp
  | keep t _ ih => exact ⟨hp.1, ih hp.2⟩
  | negate hx _ ih =>
    -- a minus sign stands wherever a number may
    obtain ⟨hfits, hp⟩ := hp
    cases a with
    | false => exact ⟨rfl, rfl, ih hp⟩
    | true => cases hfits

/-- **A sign in front of a number binds tighter than all around it.** The grammar derives a tree of
the same value, on the same level or, of a primary, on that of the signs. -/
theorem Derives.expand (h : Derives k ts e) (hexpands : Expands ts us) :
    ∃ e', Derives (min k 5) us e' ∧ e'.value = e.value := by
  induction h generalizing us with
  | number x =>
    cases hexpands with
    | keep _ h =>
      cases h
      exact ⟨_, .tighter (by decide) (.number x), rfl⟩
    | @negate _ y hx _ _ h =>
      cases h
      -- a number below zero becomes a sign and a number, looser than an atom: hence `min k 5`
      refine ⟨_, .signed rfl (.tighter (by decide) (.number y)), ?_⟩
      show Except.ok (Value.number (-y)) = .ok (.number x)
      rw [hx]
  | truth b =>
    obtain ⟨us, rfl, h⟩ := (expands_cons rfl).1 hexpands
    cases h
    exact ⟨_, .tighter (by decide) (.truth b), rfl⟩
  | nested _ ih =>
    obtain ⟨inner, rfl, hinner⟩ := (expands_cons rfl).1 hexpands
    obtain ⟨us, last, rfl, hus, hlast⟩ := expands_append.1 hinner
    obtain ⟨none, rfl, hnone⟩ := (expands_cons rfl).1 hlast
    cases hnone
    obtain ⟨e', he', hvalue⟩ := ih hus
    exact ⟨e', .tighter (by decide) (.nested he'), hvalue⟩
  | signed hs _ ih =>
    obtain ⟨us, rfl, h⟩ := (expands_cons rfl).1 hexpands
    obtain ⟨e', he', hvalue⟩ := ih h
    refine ⟨_, .signed hs he', ?_⟩
    rw [Expr.value, Expr.value, hvalue]
  | @tighter k ts e hk _ ih =>
    obtain ⟨e', he', hvalue⟩ := ih hexpands
    refine ⟨e', ?_, hvalue⟩
    -- at the level of signs an atom and a sign are told apart no longer
    by_cases hsigns : k = 5
    · subst hsigns
      exact he'
    · rw [Nat.min_eq_left (by omega : k ≤ 5)]
      rw [Nat.min_eq_left (by omega : k + 1 ≤ 5)] at he'
      exact .tighter hk he'
  | @chained k op ts us l r hop hk h2 _ _ ihl ihr =>
    obtain ⟨ts', vs, rfl, hts, hvs⟩ := expands_append.1 hexpands
    obtain ⟨us', rfl, hus⟩ := (expands_cons rfl).1 hvs
    obtain ⟨l', hl, hlvalue⟩ := ihl hts
    obtain ⟨r', hr, hrvalue⟩ := ihr hus
    rw [Nat.min_eq_left (by omega : k ≤ 5)] at hl ⊢
    rw [Nat.min_eq_left (by omega : k + 1 ≤ 5)] at hr
    refine ⟨_, .chained hop hk h2 hl hr, ?_⟩
    rw [Expr.value, Expr.value, hlvalue, hrvalue]
  | compared hop hk _ _ ihl ihr =>
    obtain ⟨ts', vs, rfl, hts, hvs⟩ := expands_append.1 hexpands
    obtain ⟨us', rfl, hus⟩ := (expands_cons rfl).1 hvs
    obtain ⟨l', hl, hlvalue⟩ := ihl hts
    obtain ⟨r', hr, hrvalue⟩ := ihr hus
    refine ⟨_, .compared hop hk hl hr, ?_⟩
    rw [Expr.value, Expr.value, hlvalue, hrvalue]

/-! ## Filled templates

The text of the tokens is filled in where the placeholders were. -/

variable {parts : List Part} {x : String → Float} {value : String → String}

/-- **A filled template spells what it is meant as**, with signs in front of some numbers. -/
theorem spelled_filled
    (h : ∀ key, .placeholder key ∈ parts → NumberText (value key.name) (x key.name)) :
    ∃ us, Expands (parts.flatMap (Part.tokens x)) us ∧
      Spelled us (parts.flatMap (Part.filled value)) := by
  induction parts with
  | nil => exact ⟨[], .nil, @Spelled.nil [] rfl⟩
  | cons part parts ih =>
    obtain ⟨us, hus, hspelled⟩ := ih fun key hkey => h key (List.mem_cons_of_mem part hkey)
    cases part with
    | gap c hblank => exact ⟨us, hus, hspelled.gap hblank⟩
    | token t s hs => exact ⟨t :: us, .keep t hus, @Spelled.cons t us [] s _ rfl hs hspelled⟩
    | placeholder key =>
      rw [List.flatMap_cons, List.flatMap_cons]
      -- a number with a sign is spelled as two tokens
      rcases (h key List.mem_cons_self).literal with ⟨l, hl, hx⟩ | ⟨cs, l, hcs, hl, hx⟩
      · refine ⟨.number (x key.name) :: us, .keep _ hus, ?_⟩
        rw [← hx]
        exact @Spelled.cons _ us [] _ _ rfl (.number hl) hspelled
      · refine ⟨.op .sub :: .number l.toFloat :: us, .negate hx hus, ?_⟩
        show Spelled _ ((value key.name).toList ++ _)
        rw [hcs]
        exact @Spelled.cons _ _ [] ['-'] _ rfl (.op .sub)
          (@Spelled.cons _ us [] cs _ rfl (.number hl) hspelled)

/-! ## Texts that are no numbers

The words for what is no number begin with letters that no token begins with, so a text with one
cannot be cut. -/

theorem Token.Spells.ne_nil {t : Token} {s : List Char} (h : t.Spells s) : s ≠ [] := by
  obtain ⟨c, cs, rfl, -⟩ := h.head
  exact List.cons_ne_nil c cs

theorem Spelled.eq_nil (h : Spelled ts []) : ts = [] := by
  generalize hcs : ([] : List Char) = cs at h
  cases h with
  | nil => rfl
  | cons hg hs h =>
    obtain ⟨-, hnil⟩ := List.append_eq_nil_iff.1 hcs.symm
    exact absurd (List.append_eq_nil_iff.1 hnil).1 hs.ne_nil

/-- What follows a token behind which a value is to come is not read with it. -/
theorem stops_of_not_ends {t : Token} {c : Char} (ht : t.ends = false) (hc : c ≠ '=') :
    t.stops c = true := by
  cases t with
  | number | truth | closing => cases ht
  | opening => rfl
  | op o => cases o <;> simp [Token.stops, hc]

/-- Tokens after which a value is to come are read, and then what is wrong with the rest is
found. -/
theorem tokens_append_error {cs rest : List Char} {reason : Reason} (h : Spelled ts cs)
    (hp : InPlace a ts false) (hrest : ∀ c us, rest = c :: us → c ≠ '=')
    (herror : tokens rest = .error reason) : tokens (cs ++ rest) = .error reason := by
  induction h generalizing a with
  | nil hg =>
    rw [tokens_gap hg]
    exact herror
  | @cons t ts gap s cs hg hs h ih =>
    obtain ⟨-, hp⟩ := hp
    have hclosed : t.Closed (cs ++ rest) := by
      intro c us heq
      cases hcs : cs with
      | cons d ds =>
        rw [hcs] at heq
        obtain ⟨rfl, -⟩ := List.cons.inj heq
        exact h.closed hp d ds hcs
      | nil =>
        -- nothing is left before the rest, so the token is one after which a value is to come
        rw [hcs] at h heq
        obtain rfl := h.eq_nil
        exact stops_of_not_ends hp (hrest c us heq)
    obtain ⟨c, us, rfl, hblank, hread⟩ := hs.read hclosed
    rw [List.append_assoc, List.append_assoc, tokens_gap hg, List.cons_append,
      tokens_cons hblank hread, ih hp]
    rfl

theorem Unnumbered.head_ne {text : String} (h : Unnumbered text) (rest : List Char) :
    ∀ c cs, text.toList ++ rest = c :: cs → c ≠ '=' := by
  rintro c cs heq rfl
  rcases h with rfl | rfl | rfl
  · exact absurd (List.cons.inj heq).1 (by decide)
  · exact absurd (List.cons.inj heq).1 (by decide)
  · exact absurd (List.cons.inj heq).1 (by decide)

/-- A word that begins like neither truth value means nothing. -/
theorem tokens_word {c : Char} (cs : List Char) (hc : c = 'N' ∨ c = 'i') :
    ∃ word, tokens (c :: cs) = .error (.unexpectedIdentifier word) := by
  have hstart : ¬ (c.isDigit || c = '.') ∧ c.isAlpha = true ∧ Text.isBlank c = false ∧ c ≠ 't' ∧
      c ≠ 'f' := by
    rcases hc with rfl | rfl <;> decide
  obtain ⟨hnumber, halpha, hblank, htrue, hfalse⟩ := hstart
  refine ⟨String.ofList (c :: cs.takeWhile Char.isAlphanum), tokens_error hblank ?_⟩
  have hword : ∀ d ds, c ≠ d → String.ofList (c :: cs.takeWhile Char.isAlphanum)
      ≠ String.ofList (d :: ds) :=
    fun d ds hne heq => hne (List.cons.inj (String.ofList_injective heq)).1
  rw [Token.read, if_neg hnumber, if_pos halpha]
  dsimp only
  rw [if_neg (hword 't' ['r', 'u', 'e'] htrue), if_neg (hword 'f' ['a', 'l', 's', 'e'] hfalse)]

/-- The text of no number begins, behind its sign, with such a word. -/
theorem Unnumbered.tokens_error {text : String} (h : Unnumbered text) (rest : List Char) :
    ∃ word, tokens (text.toList ++ rest) = .error (.unexpectedIdentifier word) := by
  rcases h with rfl | rfl | rfl
  · exact tokens_word _ (.inl rfl)
  · exact tokens_word _ (.inr rfl)
  · obtain ⟨word, hword⟩ := tokens_word (['n', 'f'] ++ rest) (.inr rfl)
    refine ⟨word, ?_⟩
    have hsign : tokens ('-' :: 'i' :: (['n', 'f'] ++ rest))
        = (tokens ('i' :: (['n', 'f'] ++ rest))).map (.op .sub :: ·) := tokens_cons rfl rfl
    rw [hword] at hsign
    exact hsign

/-- Whether a part is filled with such a text. -/
def Part.isUnnumbered (value : String → String) : Part → Bool
  | placeholder key => decide (Unnumbered (value key.name))
  | _ => false

/-- **A text that is no number makes the whole no expression**, wherever it stands. -/
theorem filled_unnumbered (hp : InPlace a (parts.flatMap (Part.tokens x)) true)
    (hvalue : ∀ key, .placeholder key ∈ parts →
      NumberText (value key.name) (x key.name) ∨ Unnumbered (value key.name))
    (h : ∃ key, .placeholder key ∈ parts ∧ Unnumbered (value key.name)) :
    ∃ word, tokens (parts.flatMap (Part.filled value)) = .error (.unexpectedIdentifier word) := by
  obtain ⟨key, hkey, hbad⟩ := h
  have hfind : (parts.find? (Part.isUnnumbered value)).isSome :=
    List.find?_isSome.2 ⟨_, hkey, decide_eq_true hbad⟩
  -- the first of them decides
  obtain ⟨part, hpart⟩ := Option.isSome_iff_exists.1 hfind
  obtain ⟨hpartBad, before, after, rfl, hbefore⟩ := List.find?_eq_some_iff_append.1 hpart
  obtain ⟨first, rfl, hfirst⟩ : ∃ first, part = .placeholder first ∧
    Unnumbered (value first.name) := by
    cases part with
    | gap | token => cases hpartBad
    | placeholder first => exact ⟨first, rfl, of_decide_eq_true hpartBad⟩
  have hnumbers : ∀ key, .placeholder key ∈ before → NumberText (value key.name) (x key.name) := by
    intro key hkey
    refine (hvalue key (List.mem_append_left _ hkey)).resolve_right fun hbad => ?_
    have hno : Part.isUnnumbered value (.placeholder key) = true := decide_eq_true hbad
    have hfound := hbefore _ hkey
    rw [hno] at hfound
    cases hfound
  obtain ⟨us, hus, hspelled⟩ := spelled_filled hnumbers
  rw [List.flatMap_append] at hp ⊢
  obtain ⟨b, hb, hfits, -⟩ := inPlace_append.1 hp
  -- it stands where a value is to come
  obtain rfl : b = false := by
    cases b with
    | false => rfl
    | true => cases hfits
  obtain ⟨word, hword⟩ := hfirst.tokens_error (after.flatMap (Part.filled value))
  exact ⟨word, tokens_append_error hspelled (hus.inPlace hb) (hfirst.head_ne _) hword⟩

/-! ## Hygiene

All of it together: what is filled in is read back as the one operand that it was meant for. -/

/-- **Substitution is hygienic.** Take an expression in which some operands are placeholders, and
for each of these the text of a number. What the template is rendered to has the value of the
expression in which each placeholder is a single operand of that value, or has the fault of it. If
some text is that of no number, then what it is rendered to is no expression. -/
theorem substitution_hygienic {m : Material} {parts : List Part} {x : String → Float}
    {value : String → String} {e : Expr} (hexpr : Derives 0 (parts.flatMap (Part.tokens x)) e)
    (hvalue : ∀ key, .placeholder key ∈ parts → m.isGroup key.name = false ∧
      m.get? key.name = some (value key.name) ∧
        (NumberText (value key.name) (x key.name) ∨ Unnumbered (value key.name))) :
    ∃ text, render (template parts) m = .ok text ∧
      ((∀ key, .placeholder key ∈ parts → NumberText (value key.name) (x key.name)) →
        evaluate text.toList = e.value ∧
          Template.value (template parts) m = e.value.mapError (Fault.inExpression text)) ∧
      ((∃ key, .placeholder key ∈ parts ∧ Unnumbered (value key.name)) → ∃ word,
        Template.value (template parts) m = .error (.parse text (.unexpectedIdentifier word))) := by
  have hlookup : ∀ key, .placeholder key ∈ parts → lookup m key.name = .ok (value key.name) := by
    intro key hkey
    obtain ⟨hgroup, hget, -⟩ := hvalue key hkey
    rw [lookup, hgroup, if_neg (by decide), hget]
  have hrender := render_template hlookup
  have hresult : ∀ r, evaluate (parts.flatMap (Part.filled value)) = r →
      Template.value (template parts) m
        = r.mapError (Fault.inExpression (String.ofList (parts.flatMap (Part.filled value)))) := by
    rintro r rfl
    unfold Template.value
    rw [hrender]
    show (evaluate (String.ofList _).toList).mapError _ = _
    rw [String.toList_ofList]
  refine ⟨_, hrender, fun hnumbers => ?_, fun hbad => ?_⟩
  · -- the tree of the template carries over to the text it renders to
    obtain ⟨us, hus, hspelled⟩ := spelled_filled hnumbers
    obtain ⟨e', hderives, hsame⟩ := hexpr.expand hus
    have hevaluate : evaluate (parts.flatMap (Part.filled value)) = e.value := by
      rw [evaluate_of_derives hspelled hderives, hsame]
    rw [String.toList_ofList]
    exact ⟨hevaluate, hresult _ hevaluate⟩
  · -- a word where a number is due is refused before anything is evaluated
    obtain ⟨word, hword⟩ :=
      filled_unnumbered hexpr.inPlace (fun key hkey => (hvalue key hkey).2.2) hbad
    have hevaluate : evaluate (parts.flatMap (Part.filled value))
        = .error (.parse (.unexpectedIdentifier word)) := by
      rw [evaluate, hword]
    exact ⟨word, hresult _ hevaluate⟩

theorem unblank_of_all {cs : List Char} (h : (cs.all fun c => !Text.isBlank c) = true) :
    ∀ c ∈ cs, Text.isBlank c = false := by
  simpa using h

def podKey : Key :=
  { name := "pod", ne_empty := by decide, unblank := unblank_of_all rfl, open_end := by decide }

/-- A key that ends in a brace itself. -/
def zoneKey : Key :=
  { name := "load.\x7bzone=\"a\"\x7d", ne_empty := by decide, unblank := unblank_of_all rfl,
    open_end := by decide +kernel }

/-- The pods less twice the load of a zone. -/
def podsLessLoad : List Part :=
  [.placeholder podKey, .gap ' ' rfl, .token (.op .sub) _ (.op .sub), .placeholder zoneKey,
    .token (.op .mul) _ (.op .mul), .token (.number (Literal.mk ['2'] 0).toFloat) ['2']
      (.number (by decide))]

def valuesOf (load : String) (key : String) : String :=
  if key = "pod" then natText 3 else load

def materialOf (load : String) : Material :=
  (Material.empty.insert podKey.name (valuesOf load podKey.name)).insert zoneKey.name
    (valuesOf load zoneKey.name)

def numbersOf (load : Float) (key : String) : Float :=
  if key = "pod" then (Literal.mk (natDigits 3) 0).toFloat else load

theorem mem_podsLessLoad {key : Key} (h : .placeholder key ∈ podsLessLoad) :
    key = podKey ∨ key = zoneKey := by
  simpa [podsLessLoad] using h

theorem materialOf_eq (load : String) {key : Key} (h : .placeholder key ∈ podsLessLoad) :
    (materialOf load).isGroup key.name = false ∧
      (materialOf load).get? key.name = some (valuesOf load key.name) := by
  have hne : zoneKey.name ≠ podKey.name := by decide
  rcases mem_podsLessLoad h with rfl | rfl
  · constructor
    · simp [materialOf, Material.insert, Material.isGroup, Material.empty]
    · simp [materialOf, Material.insert, Material.get?, Std.ExtTreeMap.getElem_insert, hne]
  · constructor
    · simp [materialOf, Material.insert, Material.isGroup, Material.empty]
    · simp [materialOf, Material.insert, Material.get?]

/-- A negative load is subtracted as a whole, although its sign comes right behind another; a load
that is no number leaves no expression. -/
theorem substitution_hygienic_negative :
    (∃ text, render (template podsLessLoad) (materialOf "-1.5") = .ok text ∧
      evaluate text.toList = .ok (.number 6.0)) ∧
    ∃ text word, Template.value (template podsLessLoad) (materialOf "NaN")
      = .error (.parse text (.unexpectedIdentifier word)) := by
  let two : Float := (Literal.mk ['2'] 0).toFloat
  let tree : Expr := .joined .sub (by decide) (.number (numbersOf (-1.5) podKey.name))
    (.joined .mul (by decide) (.number (numbersOf (-1.5) zoneKey.name)) (.number two))
  have hexpr : Derives 0 (podsLessLoad.flatMap (Part.tokens (numbersOf (-1.5)))) tree := by
    have hnumber : ∀ (k : Nat) (x : Float), k ≤ 6 → Derives k [.number x] (.number x) :=
      fun k x hk => Derives.loosen (.number x) (Nat.le_refl 6) hk
    have hproduct := Derives.chained (show Op.mul.level < 5 by decide) rfl (by decide)
      (hnumber 4 (numbersOf (-1.5) zoneKey.name) (by decide)) (hnumber 5 two (by decide))
    have hdifference := Derives.chained (show Op.sub.level < 5 by decide) rfl (by decide)
      (hnumber 3 (numbersOf (-1.5) podKey.name) (by decide)) hproduct
    exact hdifference.loosen (by decide) (by decide)
  have htext : NumberText "-1.5" (-1.5) := by
    have hwritten : floatText (-1.5) = "-1.5" := by decide
    rw [← hwritten]
    exact .sample (by decide) (by decide)
  have hcount : NumberText (natText 3) (numbersOf (-1.5) podKey.name) := .count 3
  constructor
  · have hnumbers : ∀ key, .placeholder key ∈ podsLessLoad →
        NumberText (valuesOf "-1.5" key.name) (numbersOf (-1.5) key.name) := by
      intro key hkey
      rcases mem_podsLessLoad hkey with rfl | rfl
      · exact hcount
      · exact htext
    obtain ⟨text, hrender, hvalue, -⟩ := substitution_hygienic hexpr fun key hkey =>
      ⟨(materialOf_eq "-1.5" hkey).1, (materialOf_eq "-1.5" hkey).2, .inl (hnumbers key hkey)⟩
    refine ⟨text, hrender, ?_⟩
    rw [(hvalue hnumbers).1]
    have hsix : numbersOf (-1.5) podKey.name - numbersOf (-1.5) zoneKey.name * two
        = 6.0 := by decide
    exact congrArg (fun x => (Except.ok (Value.number x) : Except Fault Value)) hsix
  · obtain ⟨text, -, -, hbad⟩ := substitution_hygienic hexpr fun key hkey => by
      refine ⟨(materialOf_eq "NaN" hkey).1, (materialOf_eq "NaN" hkey).2, ?_⟩
      rcases mem_podsLessLoad hkey with rfl | rfl
      · exact .inl hcount
      · exact .inr (.inl rfl)
    obtain ⟨word, hword⟩ := hbad ⟨zoneKey, by simp [podsLessLoad], .inl rfl⟩
    exact ⟨text, word, hword⟩

end MeshLimiter.Template
