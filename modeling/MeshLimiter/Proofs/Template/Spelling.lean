import MeshLimiter.Proofs.Template.Evaluation
/-!
# Texts of expressions

A text spells a token sequence if it is the texts of the tokens one after another, with blanks
anywhere between them. Reading takes the longest text for each token; where the tokens stand in the
order of an expression, that is the text of the token.

* **`Spelled`**: the texts of a token sequence.
* **`spelled_of_tokens`, `tokens_of_spelled`**: a text is cut into tokens that it spells, and if the
  tokens are in place, into these.
* **`evaluate_follows_grammar`**: the value of a text is that of the tree that the grammar derives
  for the tokens that it spells.
-/

namespace MeshLimiter.Template

open Decimal (Literal readScale? readExponent?)

/-! ## The texts of a token

Only numbers have more than one. -/

def Op.text : Op → List Char
  | or => ['|', '|']
  | and => ['&', '&']
  | eq => ['=', '=']
  | ne => ['!', '=']
  | le => ['<', '=']
  | ge => ['>', '=']
  | lt => ['<']
  | gt => ['>']
  | add => ['+']
  | sub => ['-']
  | mul => ['*']
  | div => ['/']
  | rem => ['%']
  | not => ['!']

/-- The texts of a token: a number has each literal that reads as it. -/
inductive Token.Spells : Token → List Char → Prop where
  | number {l cs} (h : Literal.read? cs = some l) : Spells (.number l.toFloat) cs
  | isTrue : Spells (.truth true) ['t', 'r', 'u', 'e']
  | isFalse : Spells (.truth false) ['f', 'a', 'l', 's', 'e']
  | op (o : Op) : Spells (.op o) o.text
  | opening : Spells .opening ['(']
  | closing : Spells .closing [')']

/-- The texts of a token sequence: blanks may stand before each token and at the end. -/
inductive Spelled : List Token → List Char → Prop where
  | nil {gap} (hg : gap.all Text.isBlank) : Spelled [] gap
  | cons {t ts gap s cs} (hg : gap.all Text.isBlank) (hs : Token.Spells t s) (h : Spelled ts cs) :
      Spelled (t :: ts) (gap ++ (s ++ cs))

/-! ## Literals

A literal that can be read is digits and points, then possibly a mark, a sign and digits. -/

/-- The shape of a literal: digits and points, and at the end possibly an exponent. -/
structure LiteralShape (body tail : List Char) : Prop where
  ne_nil : body ≠ []
  body : ∀ c ∈ body, c.isDigit ∨ c = '.'
  tail : tail = [] ∨ ∃ mark sign ds, (mark = 'e' ∨ mark = 'E') ∧
    (sign = [] ∨ sign = ['+'] ∨ sign = ['-']) ∧ ds ≠ [] ∧ (∀ d ∈ ds, d.isDigit) ∧
    tail = mark :: (sign ++ ds)

/-- An exponent is a sign or none, and digits. -/
theorem exponent_shape {cs : List Char} {e : Int} (h : readExponent? cs = some e) :
    ∃ sign ds, (sign = [] ∨ sign = ['+'] ∨ sign = ['-']) ∧ ds ≠ [] ∧ (∀ d ∈ ds, d.isDigit) ∧
      cs = sign ++ ds := by
  have hdigits : ∀ {ds : List Char} {i : Int},
      (if ds.isEmpty || !ds.all Char.isDigit then none else some i) = some e →
        ds ≠ [] ∧ ∀ d ∈ ds, d.isDigit := by
    intro ds i h
    split at h
    · cases h
    · next hc => simpa using hc
  unfold readExponent? at h
  split at h
  next sign ds heq =>
  obtain ⟨hne, hall⟩ := hdigits h
  split at heq
  · -- a plus, a minus, or no sign
    cases heq; exact ⟨['+'], _, .inr (.inl rfl), hne, hall, rfl⟩
  · cases heq; exact ⟨['-'], _, .inr (.inr rfl), hne, hall, rfl⟩
  · cases heq; exact ⟨[], _, .inl rfl, hne, hall, rfl⟩

/-- What follows the digits is nothing, or a mark and an exponent. -/
theorem scale_shape {tail : List Char} {e : Int} (h : readScale? tail = some e) :
    tail = [] ∨ ∃ mark sign ds, (mark = 'e' ∨ mark = 'E') ∧
      (sign = [] ∨ sign = ['+'] ∨ sign = ['-']) ∧ ds ≠ [] ∧ (∀ d ∈ ds, d.isDigit) ∧
      tail = mark :: (sign ++ ds) := by
  match tail with
  | [] => exact .inl rfl
  | mark :: cs =>
    rw [readScale?] at h
    split at h
    · next hmark =>
      obtain ⟨sign, ds, hs, hne, hds, rfl⟩ := exponent_shape h
      exact .inr ⟨mark, sign, ds, hmark, hs, hne, hds, rfl⟩
    · cases h

/-- The digits before and after the point are the body, and what is left is the scale. -/
theorem literal_shape {cs : List Char} {l : Literal} (h : Literal.read? cs = some l) :
    ∃ body tail, cs = body ++ tail ∧ LiteralShape body tail := by
  have hcut := List.takeWhile_append_dropWhile (p := Char.isDigit) (l := cs)
  have hdigits : ∀ {us : List Char} {c}, c ∈ us.takeWhile Char.isDigit → c.isDigit :=
    fun hc => List.all_eq_true.1 List.all_takeWhile _ hc
  unfold Literal.read? at h
  simp only at h
  split at h
  · -- with a point
    next after hdrop =>
    split at h
    · cases h
    obtain ⟨e, he, -⟩ := Option.map_eq_some_iff.1 h
    rw [hdrop] at hcut
    refine ⟨cs.takeWhile Char.isDigit ++ '.' :: after.takeWhile Char.isDigit, _, ?_, by simp, ?_,
      scale_shape he⟩
    · rw [List.append_assoc, List.cons_append, List.takeWhile_append_dropWhile, hcut]
    · intro c hc
      rcases List.mem_append.1 hc with hc | hc
      · exact .inl (hdigits hc)
      · rcases List.mem_cons.1 hc with rfl | hc
        · exact .inr rfl
        · exact .inl (hdigits hc)
  · split at h
    · cases h
    -- without one
    next hne =>
    obtain ⟨e, he, -⟩ := Option.map_eq_some_iff.1 h
    exact ⟨_, _, hcut.symm, by simpa using hne, fun c hc => .inl (hdigits hc), scale_shape he⟩

/-! ## Reading a literal

A literal is taken off the front as far as its characters go. A sign goes with it only right behind
the mark of an exponent. -/

/-- Digits are among its characters. -/
theorem isLiteralChar_of_digit {c : Char} (h : c.isDigit) : isLiteralChar c := by
  simp [isLiteralChar, Char.isAlphanum, h]

/-- What does not begin with a character that a literal runs over. -/
def LiteralEnds (rest : List Char) : Prop :=
  ∀ c cs, rest = c :: cs → isLiteralChar c = false

theorem takeWhile_dropWhile_append {p : Char → Bool} {s rest : List Char} (hs : ∀ c ∈ s, p c)
    (hr : ∀ c cs, rest = c :: cs → p c = false) :
    (s ++ rest).takeWhile p = s ∧ (s ++ rest).dropWhile p = rest := by
  rw [List.takeWhile_append_of_pos hs, List.dropWhile_append_of_pos hs]
  cases rest with
  | nil => simp
  | cons c cs => simp [hr c cs rfl]

/-- Without a mark at the end there is no sign. -/
theorem literalSpan_plain {b : Char} {us rest : List Char} (hs : ∀ d ∈ us, isLiteralChar d)
    (hlast : (b :: us).getLast? ≠ some 'e' ∧ (b :: us).getLast? ≠ some 'E')
    (hrest : LiteralEnds rest) : literalSpan b (us ++ rest) = (b :: us, rest) := by
  obtain ⟨htake, hdrop⟩ := takeWhile_dropWhile_append hs hrest
  rw [literalSpan, htake, hdrop]
  cases rest <;> simp [hlast.1, hlast.2]

/-- A sign behind a final mark goes with the literal. -/
theorem literalSpan_signed {b mark sign : Char} {us ds rest : List Char}
    (hs : ∀ d ∈ us, isLiteralChar d) (hmark : mark = 'e' ∨ mark = 'E')
    (hsign : sign = '+' ∨ sign = '-') (hds : ∀ d ∈ ds, d.isDigit) (hrest : LiteralEnds rest) :
    literalSpan b (us ++ mark :: sign :: (ds ++ rest)) = (b :: us ++ mark :: sign :: ds, rest) := by
  -- the mark is one of its characters, the sign is not
  have hmarked : isLiteralChar mark := by rcases hmark with rfl | rfl <;> rfl
  have hstop : isLiteralChar sign = false := by rcases hsign with rfl | rfl <;> rfl
  obtain ⟨htake, hdrop⟩ := @takeWhile_dropWhile_append isLiteralChar (us ++ [mark])
    (sign :: (ds ++ rest))
    (List.forall_mem_append.2 ⟨hs, List.forall_mem_singleton.2 hmarked⟩)
      (by rintro _ _ ⟨⟩; exact hstop)
  obtain ⟨htakeDigits, hdropDigits⟩ := @takeWhile_dropWhile_append _ ds rest hds
    fun d cs hr => Bool.eq_false_iff.2 fun hd =>
      Bool.eq_false_iff.1 (hrest d cs hr) (isLiteralChar_of_digit hd)
  have hlast : (b :: (us ++ [mark])).getLast? = some mark := by
    rw [← List.cons_append, List.getLast?_concat]
  have hmarks : (mark = 'e' || mark = 'E') && (sign = '+' || sign = '-') := by simp [hmark, hsign]
  rw [List.append_cons, literalSpan, htake, hdrop, hlast]
  simp [hmarks, htakeDigits, hdropDigits]

/-- A literal is read whole where no character that it could run over follows. -/
theorem literalSpan_of_shape {b : Char} {bs tail rest : List Char}
    (h : LiteralShape (b :: bs) tail) (hrest : LiteralEnds rest) :
    literalSpan b (bs ++ tail ++ rest) = (b :: bs ++ tail, rest) := by
  have hbody : ∀ d ∈ b :: bs, isLiteralChar d := fun d hd => by
    rcases h.body d hd with hd | rfl
    · exact isLiteralChar_of_digit hd
    · rfl
  -- only a mark could let a sign follow
  have hplain : ∀ d, d.isDigit ∨ d = '.' → d ≠ 'e' ∧ d ≠ 'E' := by
    rintro d (hd | rfl)
    · exact ⟨by rintro rfl; simp at hd, by rintro rfl; simp at hd⟩
    · decide
  have hbs : ∀ d ∈ bs, isLiteralChar d := fun d hd => hbody d (List.mem_cons_of_mem b hd)
  rcases h.tail with rfl | ⟨mark, sign, ds, hmark, hsign, hne, hds, rfl⟩
  · rw [List.append_nil, List.append_nil]
    have hlast := List.getLast_mem (List.cons_ne_nil b bs)
    refine literalSpan_plain hbs ?_ hrest
    rw [List.getLast?_eq_some_getLast (List.cons_ne_nil b bs)]
    simpa using hplain _ (h.body _ hlast)
  · rcases hsign with rfl | rfl | rfl
    · have hmarked : isLiteralChar mark := by rcases hmark with rfl | rfl <;> rfl
      refine literalSpan_plain ?_ ?_ hrest
      · exact List.forall_mem_append.2 ⟨hbs, List.forall_mem_cons.2
          ⟨hmarked, fun d hd => isLiteralChar_of_digit (hds d hd)⟩⟩
      · have hsplit : b :: (bs ++ mark :: ([] ++ ds)) = (b :: bs ++ [mark]) ++ ds := by simp
        rw [hsplit, List.getLast?_append, List.getLast?_eq_some_getLast hne]
        simpa using hplain _ (.inl (hds _ (List.getLast_mem hne)))
    · simpa using literalSpan_signed hbs hmark (.inl rfl) hds hrest
    · simpa using literalSpan_signed hbs hmark (.inr rfl) hds hrest

/-! ## Reading a token

A token is read from its first character on. What follows must not be read with it. -/

/-- Whether a character right behind the text of a token is not read with it. -/
def Token.stops : Token → Char → Bool
  | .number _, c | .truth _, c => !isLiteralChar c
  | .op .lt, c | .op .gt, c | .op .not, c => c != '='
  | _, _ => true

def Token.Closed (t : Token) (rest : List Char) : Prop :=
  ∀ c cs, rest = c :: cs → t.stops c

/-- What ends a number or a word begins with no character of a literal. -/
theorem Token.Closed.literalEnds {t : Token} {rest : List Char} (h : t.Closed rest)
    (ht : ∀ c, t.stops c = !isLiteralChar c) : LiteralEnds rest := fun c cs hr => by
  simpa [ht] using h c cs hr

/-- No character of a literal is a blank. -/
theorem isBlank_eq_false_of_literalChar {c : Char} (h : isLiteralChar c) :
    Text.isBlank c = false := by
  -- the point, the digits and the letters of ASCII
  have hrange : c.toNat = 0x2E ∨ 0x30 ≤ c.toNat ∧ c.toNat ≤ 0x39 ∨ 0x41 ≤ c.toNat ∧ c.toNat ≤ 0x5A ∨
      0x61 ≤ c.toNat ∧ c.toNat ≤ 0x7A := by
    delta isLiteralChar Char.isAlphanum Char.isAlpha Char.isUpper Char.isLower Char.isDigit at h
    simp only [Bool.or_eq_true, Bool.and_eq_true, decide_eq_true_eq, ge_iff_le,
      UInt32.le_iff_toNat_le] at h
    rcases h with ((h | h) | h) | rfl
    · exact .inr (.inr (.inl h))
    · exact .inr (.inr (.inr h))
    · exact .inr (.inl h)
    · exact .inl rfl
  simp only [Text.isBlank, Bool.or_eq_false_iff, Bool.and_eq_false_iff, decide_eq_false_iff_not,
    beq_eq_false_iff_ne]
  omega

/-- An operator of one character is not read as the first of two. -/
theorem opRead?_text (o : Op) {rest : List Char} (h : (Token.op o).Closed rest) :
    Op.read? (o.text ++ rest) = some (o, rest) := by
  cases o with
  | lt | gt | not =>
    cases rest with
    | nil => rfl
    | cons c cs =>
      have hc : c ≠ '=' := by simpa [Token.stops] using h c cs rfl
      simp [Op.text, Op.read?, hc]
  | _ => rfl

/-- The first character of an operator is that of no other kind of token. -/
theorem text_eq_cons (o : Op) : ∃ c cs, o.text = c :: cs ∧ Text.isBlank c = false ∧
    isLiteralChar c = false ∧ c ≠ '(' ∧ c ≠ ')' := by
  cases o <;> exact ⟨_, _, rfl, by decide⟩

/-- A word is read to its end. -/
theorem read_word {c : Char} {cs rest : List Char} {b : Bool} (hc : c = 't' ∨ c = 'f')
    (hcs : ∀ d ∈ cs, d.isAlphanum) (hrest : LiteralEnds rest)
    (hword : String.ofList (c :: cs) = if b then "true" else "false") :
    Token.read c (cs ++ rest) = .ok (.truth b, rest) := by
  have hstart : ¬ (c.isDigit || c = '.') := by rcases hc with rfl | rfl <;> decide
  have halpha : c.isAlpha := by rcases hc with rfl | rfl <;> rfl
  obtain ⟨htake, hdrop⟩ := @takeWhile_dropWhile_append _ cs rest hcs fun d ds hr =>
    (Bool.or_eq_false_iff.1 (hrest d ds hr)).1
  rw [Token.read, if_neg hstart, if_pos halpha]
  simp only [htake, hdrop, hword]
  cases b <;> rfl

/-- Each token is read from its text. -/
theorem Token.Spells.read {t : Token} {s rest : List Char} (h : t.Spells s) (hc : t.Closed rest) :
    ∃ c cs, s = c :: cs ∧ Text.isBlank c = false ∧ Token.read c (cs ++ rest) = .ok (t, rest) := by
  cases h with
  | number h =>
    obtain ⟨body, tail, rfl, hshape⟩ := literal_shape h
    obtain ⟨b, bs, rfl⟩ := List.exists_cons_of_ne_nil hshape.ne_nil
    have hb := hshape.body b (List.mem_cons_self ..)
    have hliteral : isLiteralChar b := by
      rcases hb with hb | rfl
      · exact isLiteralChar_of_digit hb
      · rfl
    refine ⟨b, bs ++ tail, rfl, isBlank_eq_false_of_literalChar hliteral, ?_⟩
    rw [Token.read, if_pos (by simpa using hb),
      literalSpan_of_shape hshape (hc.literalEnds fun _ => rfl)]
    simp only [h]
  | isTrue => exact ⟨_, _, rfl, rfl, read_word (.inl rfl) (List.all_eq_true.1 rfl)
      (hc.literalEnds fun _ => rfl) (by decide)⟩
  | isFalse => exact ⟨_, _, rfl, rfl, read_word (.inr rfl) (List.all_eq_true.1 rfl)
      (hc.literalEnds fun _ => rfl) (by decide)⟩
  | op o =>
    obtain ⟨c, cs, htext, hblank, hliteral, hopen, hclose⟩ := text_eq_cons o
    have hread := opRead?_text o hc
    rw [htext, List.cons_append] at hread
    obtain ⟨halnum, hpoint⟩ := Bool.or_eq_false_iff.1 hliteral
    obtain ⟨halpha, hdigit⟩ := Bool.or_eq_false_iff.1 halnum
    refine ⟨c, cs, htext, hblank, ?_⟩
    -- neither digit nor letter nor parenthesis
    rw [Token.read, if_neg (by simp_all), if_neg (by simp [halpha]), if_neg hopen,
      if_neg hclose, hread]
  | opening => exact ⟨_, _, rfl, rfl, rfl⟩
  | closing => exact ⟨_, _, rfl, rfl, rfl⟩

/-! ## Cutting a text

Blanks are skipped before each token, and where a token cannot be read the text has no tokens. -/

/-- An empty text has none. -/
theorem tokens_nil : tokens [] = .ok [] := by
  rw [tokens.eq_def]

/-- A blank is skipped. -/
theorem tokens_of_blank {c : Char} {cs : List Char} (hc : Text.isBlank c) :
    tokens (c :: cs) = tokens cs := by
  rw [tokens.eq_def (c :: cs)]
  exact if_pos hc

/-- So are several. -/
theorem tokens_gap {gap cs : List Char} (hg : gap.all Text.isBlank) :
    tokens (gap ++ cs) = tokens cs := by
  induction gap with
  | nil => rfl
  | cons c gap ih =>
    obtain ⟨hc, hg⟩ := Bool.and_eq_true_iff.1 hg
    rw [List.cons_append, tokens_of_blank hc, ih hg]

/-- The first fault is that of the text. -/
theorem tokens_error {c : Char} {cs : List Char} {reason : Reason} (hc : Text.isBlank c = false)
    (h : Token.read c cs = .error reason) : tokens (c :: cs) = .error reason := by
  rw [tokens.eq_def (c :: cs)]
  dsimp only
  rw [if_neg (by simp [hc])]
  split
  · next hr =>
    rw [h] at hr
    cases hr
    rfl
  · next hr =>
    rw [h] at hr
    cases hr

/-- A token is read, and then the rest. -/
theorem tokens_cons {c : Char} {cs rest : List Char} {t : Token} (hc : Text.isBlank c = false)
    (h : Token.read c cs = .ok (t, rest)) : tokens (c :: cs) = (tokens rest).map (t :: ·) := by
  rw [tokens.eq_def (c :: cs)]
  dsimp only
  rw [if_neg (by simp [hc])]
  split
  · next hr => rw [h] at hr; cases hr
  · next hr =>
    rw [h] at hr
    cases hr
    cases tokens rest <;> rfl

/-- A blank ends every token. -/
theorem stops_of_blank (t : Token) {c : Char} (hc : Text.isBlank c) : t.stops c := by
  have hliteral : isLiteralChar c = false := by
    cases h : isLiteralChar c with
    | false => rfl
    | true => simp [isBlank_eq_false_of_literalChar h] at hc
  have hequals : c ≠ '=' := by rintro rfl; simp [Text.isBlank] at hc
  match t with
  | .number _ | .truth _ => simp [Token.stops, hliteral]
  | .op o => cases o <;> simp [Token.stops, hequals]
  | .opening | .closing => rfl

/-- The first character of a token that goes on with a value is none that a literal runs over, and
that of a token at which a value begins does not make a longer operator. -/
theorem Token.Spells.head {t : Token} {s : List Char} (h : t.Spells s) :
    ∃ c cs, s = c :: cs ∧ (t.continues → isLiteralChar c = false) ∧ (t.begins → c ≠ '=') := by
  cases h with
  | number h =>
    obtain ⟨body, tail, rfl, hshape⟩ := literal_shape h
    obtain ⟨b, bs, rfl⟩ := List.exists_cons_of_ne_nil hshape.ne_nil
    refine ⟨b, bs ++ tail, rfl, nofun, fun _ => ?_⟩
    rintro rfl
    simpa using hshape.body '=' (List.mem_cons_self ..)
  | isTrue | isFalse => exact ⟨_, _, rfl, nofun, by decide⟩
  | op o => cases o <;> exact ⟨_, _, rfl, by decide⟩
  | opening | closing => exact ⟨_, _, rfl, by decide⟩

/-- So does the first character of a token that may follow. -/
theorem stops_of_fits {t u : Token} {c : Char} (hfit : u.fits t.ends)
    (hcont : u.continues → isLiteralChar c = false) (hbegin : u.begins → c ≠ '=') : t.stops c := by
  match t with
  | .number _ | .truth _ => simpa [Token.stops] using hcont hfit
  | .op o =>
    have hc : c ≠ '=' := hbegin hfit
    cases o <;> simp [Token.stops, hc]
  | .opening | .closing => rfl

/-- In a text of tokens in place each one is closed by what follows it. -/
theorem Spelled.closed {t : Token} {ts : List Token} {cs : List Char} {b : Bool}
    (h : Spelled ts cs) (hp : InPlace t.ends ts b) : t.Closed cs := by
  cases h with
  | nil hg =>
    rintro c cs rfl
    exact stops_of_blank t (Bool.and_eq_true_iff.1 hg).1
  | @cons u us gap s cs hg hs h =>
    intro c rest heq
    match gap with
    | [] =>
      obtain ⟨d, ds, rfl, hcont, hbegin⟩ := hs.head
      cases heq
      exact stops_of_fits hp.1 hcont hbegin
    | d :: gap =>
      -- a blank stands between
      cases heq
      exact stops_of_blank t (Bool.and_eq_true_iff.1 hg).1

/-- A text that spells tokens in place is cut into these. -/
theorem tokens_of_spelled {ts : List Token} {cs : List Char} {a b : Bool} (h : Spelled ts cs)
    (hp : InPlace a ts b) : tokens cs = .ok ts := by
  induction h generalizing a with
  | @nil gap hg =>
    have : tokens (gap ++ []) = tokens [] := tokens_gap hg
    rwa [List.append_nil, tokens_nil] at this
  | @cons t ts gap s cs hg hs h ih =>
    obtain ⟨-, hp⟩ := hp
    obtain ⟨c, us, rfl, hblank, hread⟩ := hs.read (h.closed hp)
    rw [tokens_gap hg, List.cons_append, tokens_cons hblank hread, ih hp]
    rfl

/-- A literal is taken off the front. -/
theorem literalSpan_append (c : Char) (cs : List Char) :
    (literalSpan c cs).1 ++ (literalSpan c cs).2 = c :: cs := by
  have hcut := List.takeWhile_append_dropWhile (p := isLiteralChar) (l := cs)
  rw [literalSpan]
  split
  · next sign ds hdrop =>
    rw [hdrop] at hcut
    split
    · simp [hcut]
    · simp [hdrop, hcut]
  · next hdrop => simpa [hdrop] using hcut

/-- So is an operator. -/
theorem text_of_opRead? {cs rest : List Char} {o : Op} (h : Op.read? cs = some (o, rest)) :
    cs = o.text ++ rest := by
  unfold Op.read? at h
  split at h <;> first | (cases h; rfl) | cases h

/-- What is read as a token is a text of the token. -/
theorem spells_of_read {c : Char} {cs rest : List Char} {t : Token}
    (h : Token.read c cs = .ok (t, rest)) : ∃ s, c :: cs = s ++ rest ∧ t.Spells s := by
  have hword := List.takeWhile_append_dropWhile (p := Char.isAlphanum) (l := cs)
  rw [Token.read] at h
  -- by the first character: a number, a word, a parenthesis, an operator
  split at h
  · have hspan := literalSpan_append c cs
    simp only at h
    split at h
    · next l hl => cases h; exact ⟨_, hspan.symm, .number hl⟩
    · cases h
  split at h
  · simp only at h
    split at h
    · next heq =>
      cases h
      have htext : c :: cs.takeWhile Char.isAlphanum = ['t', 'r', 'u', 'e'] := by
        simpa using congrArg String.toList heq
      exact ⟨_, by rw [← htext, List.cons_append, hword], .isTrue⟩
    split at h
    · next heq =>
      cases h
      have htext : c :: cs.takeWhile Char.isAlphanum = ['f', 'a', 'l', 's', 'e'] := by
        simpa using congrArg String.toList heq
      exact ⟨_, by rw [← htext, List.cons_append, hword], .isFalse⟩
    · cases h
  split at h
  · next hc => cases h; exact ⟨['('], by rw [hc]; rfl, .opening⟩
  split at h
  · next hc => cases h; exact ⟨[')'], by rw [hc]; rfl, .closing⟩
  split at h
  · next o after hop => cases h; exact ⟨_, text_of_opRead? hop, .op o⟩
  · cases h

/-- A blank in front changes nothing. -/
theorem Spelled.gap {ts : List Token} {cs : List Char} {c : Char} (h : Spelled ts cs)
    (hc : Text.isBlank c) : Spelled ts (c :: cs) := by
  cases h with
  | nil hg => exact .nil (Bool.and_eq_true_iff.2 ⟨hc, hg⟩)
  | cons hg hs h => exact @Spelled.cons _ _ (c :: _) _ _ (Bool.and_eq_true_iff.2 ⟨hc, hg⟩) hs h

/-- Every text that is cut into tokens spells them. -/
theorem spelled_of_tokens {ts : List Token} {cs : List Char} (h : tokens cs = .ok ts) :
    Spelled ts cs := by
  fun_induction tokens cs generalizing ts with
  | case1 => cases h; exact @Spelled.nil [] rfl
  | case2 c cs hblank ih => exact (ih h).gap hblank
  | case3 => cases h
  | case4 => cases h
  | case5 c cs hblank t rest hread _ us hus ih =>
    cases h
    obtain ⟨s, hcs, hs⟩ := spells_of_read hread
    rw [hcs]
    exact @Spelled.cons _ _ [] _ _ rfl hs (ih hus)

/-! ## The value of a text

A text has the value of the tokens that it spells, if they are those of an expression. -/

variable {ts : List Token} {cs : List Char} {e : Expr}

/-- The tokens are read back, and evaluated. -/
theorem evaluate_of_derives (hs : Spelled ts cs) (hd : Derives 0 ts e) : evaluate cs = e.value := by
  rw [evaluate, tokens_of_spelled hs hd.inPlace]
  exact evaluateTokens_of_derives hd

/-- A value comes from tokens and from a tree. -/
theorem evaluate_eq_ok_iff {v : Value} : evaluate cs = .ok v ↔
    ∃ ts e, tokens cs = .ok ts ∧ Derives 0 ts e ∧ e.value = .ok v := by
  constructor
  · intro h
    rw [evaluate] at h
    split at h
    · next ts hts =>
      obtain ⟨e, hd, hv⟩ := derives_of_evaluateTokens h
      exact ⟨ts, e, hts, hd, hv⟩
    · cases h
  · rintro ⟨ts, e, hts, hd, hv⟩
    rw [evaluate_of_derives (spelled_of_tokens hts) hd, hv]

/-- The evaluator is the grammar. Of every text that spells the shortest form of a tree, with any
blanks, or another form of it, the value is that of the tree, or the fault in it. A text has a value
only if its tokens are derived for a tree with this value; no such text has tokens that do not fit
side by side, parentheses that are not closed, or two comparisons in a chain. And the evaluator
follows its levels on every text: no bound on the depth or the length of a text ends it. -/
theorem evaluate_follows_grammar :
    (∀ (e : Expr) cs, Spelled e.tokens cs → evaluate cs = e.value) ∧
    (∀ e ts, Derives 0 ts e → e.tokens.length ≤ ts.length ∧
      ∀ cs, Spelled ts cs → evaluate cs = e.value) ∧
    (∀ cs v, evaluate cs = .ok v ↔
      ∃ ts e, tokens cs = .ok ts ∧ Derives 0 ts e ∧ e.value = .ok v) ∧
    (∀ cs ts v, tokens cs = .ok ts → evaluate cs = .ok v →
      Spelled ts cs ∧ InPlace false ts true ∧ ∃ b, ts.foldlM Token.track [false] = some [b]) ∧
    (descend = disjunction descend ∧ ∀ k op ts v, k < 5 → op.level = k →
      chainFrom (stepOn descend k) (ts.length + 1) v (.op op :: ts) =
        op.step (level descend (k + 1)) v ts >>= fun q =>
          chainFrom (stepOn descend k) q.2.length q.1 q.2) := by
  refine ⟨fun e cs hs => ?_, fun e ts hd => ⟨length_tokens_le hd, fun cs hs => ?_⟩,
    fun cs v => evaluate_eq_ok_iff, fun cs ts v hts hv => ?_, descend_eq,
      fun k op ts v hk hop => ?_⟩
  · exact evaluate_of_derives hs ((derives_tokens e).loosen e.level_le (Nat.zero_le _))
  · exact evaluate_of_derives hs hd
  · obtain ⟨us, e, hus, hd, -⟩ := evaluate_eq_ok_iff.1 hv
    obtain rfl : ts = us := Except.ok.inj (hts.symm.trans hus)
    exact ⟨spelled_of_tokens hts, hd.inPlace, (hd.tracked []).2⟩
  · exact chainFrom_descend hk hop

/-- The text `7-2 -1< 5`, with blanks of two kinds, is the tree `((7 - 2) - 1) < 5`. -/
theorem evaluate_follows_grammar_leftmost :
    let number (c : Char) : Expr := .number (Literal.mk [c] 0).toFloat
    let tree : Expr := .joined .lt (by decide)
      (.joined .sub (by decide) (.joined .sub (by decide) (number '7') (number '2')) (number '1'))
      (number '5')
    evaluate ['\u00a0', '7', '-', '2', ' ', '-', '1', '<', ' ', '5'] = tree.value ∧
      tree.value = .ok (.truth true) := by
  intro number tree
  have hspelled : Spelled tree.tokens ['\u00a0', '7', '-', '2', ' ', '-', '1', '<', ' ', '5'] :=
    @Spelled.cons _ _ ['\u00a0'] ['7'] _ rfl (.number (by decide)) <|
    @Spelled.cons _ _ [] _ _ rfl (.op .sub) <|
    @Spelled.cons _ _ [] ['2'] _ rfl (.number (by decide)) <|
    @Spelled.cons _ _ [' '] _ _ rfl (.op .sub) <|
    @Spelled.cons _ _ [] ['1'] _ rfl (.number (by decide)) <|
    @Spelled.cons _ _ [] _ _ rfl (.op .lt) <|
    @Spelled.cons _ _ [' '] ['5'] _ rfl (.number (by decide)) <|
    @Spelled.nil [] rfl
  have hlt : (Literal.mk ['7'] 0).toFloat - (Literal.mk ['2'] 0).toFloat -
      (Literal.mk ['1'] 0).toFloat < (Literal.mk ['5'] 0).toFloat := by decide
  exact ⟨evaluate_follows_grammar.1 tree _ hspelled,
    congrArg (fun b => (Except.ok (Value.truth b) : Except Fault Value)) (decide_eq_true hlt)⟩

end MeshLimiter.Template
