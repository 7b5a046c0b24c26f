import MeshLimiter.Decimal.Literal
import MeshLimiter.Template.Error
import MeshLimiter.Text.Blank
/-!
# Tokens of an expression

A text is cut from the left into numbers, truth values, operators and parentheses, with blanks
between them. Each token takes the longest text it can: a number takes the letters, digits and
points that follow it, and the sign and digits of an exponent.
-/

namespace MeshLimiter.Template

/-- The operators, of one or two operands. -/
inductive Op where
  | or | and
  | eq | ne | le | ge | lt | gt
  | add | sub | mul | div | rem
  | not
deriving DecidableEq, Repr

/-- A token. -/
inductive Token where
  | number (value : Float)
  | truth (value : Bool)
  | op (op : Op)
  | opening
  | closing
deriving DecidableEq, Repr

/-- An operator at the start of a text; of two that fit, the longer. -/
def Op.read? : List Char → Option (Op × List Char)
  | '|' :: '|' :: cs => some (.or, cs)
  | '&' :: '&' :: cs => some (.and, cs)
  | '=' :: '=' :: cs => some (.eq, cs)
  | '!' :: '=' :: cs => some (.ne, cs)
  | '<' :: '=' :: cs => some (.le, cs)
  | '>' :: '=' :: cs => some (.ge, cs)
  | '<' :: cs => some (.lt, cs)
  | '>' :: cs => some (.gt, cs)
  | '+' :: cs => some (.add, cs)
  | '-' :: cs => some (.sub, cs)
  | '*' :: cs => some (.mul, cs)
  | '/' :: cs => some (.div, cs)
  | '%' :: cs => some (.rem, cs)
  | '!' :: cs => some (.not, cs)
  | _ => none

/-- The characters that a number literal runs over. -/
def isLiteralChar (c : Char) : Bool :=
  c.isAlphanum || c = '.'

/-- The characters of the literal that starts with `c`, and the rest. A sign after a final exponent
mark belongs to the literal, with the digits that follow it. -/
def literalSpan (c : Char) (cs : List Char) : List Char × List Char :=
  let literal := c :: cs.takeWhile isLiteralChar
  let tail := cs.dropWhile isLiteralChar
  let marked := literal.getLast? = some 'e' || literal.getLast? = some 'E'
  match tail with
  | sign :: ds =>
    if marked && (sign = '+' || sign = '-') then
      (literal ++ sign :: ds.takeWhile Char.isDigit, ds.dropWhile Char.isDigit)
    else (literal, tail)
  | [] => (literal, [])

/-- The token that starts with the character `c`, which is not blank, and the rest of the text. -/
def Token.read (c : Char) (cs : List Char) : Except Reason (Token × List Char) :=
  if c.isDigit || c = '.' then
    let (literal, rest) := literalSpan c cs
    match Decimal.Literal.read? literal with
    | some l => .ok (.number l.toFloat, rest)
    | none => .error (.invalidNumber (String.ofList literal))
  else if c.isAlpha then
    let word := String.ofList (c :: cs.takeWhile Char.isAlphanum)
    let rest := cs.dropWhile Char.isAlphanum
    if word = "true" then .ok (.truth true, rest)
    else if word = "false" then .ok (.truth false, rest)
    else .error (.unexpectedIdentifier word)
  else if c = '(' then .ok (.opening, cs)
  else if c = ')' then .ok (.closing, cs)
  else
    match Op.read? (c :: cs) with
    | some (o, rest) => .ok (.op o, rest)
    | none => .error (if c = '=' then .assignment else .unexpectedCharacter c)

theorem length_lt_of_opRead? {cs rest : List Char} {op : Op} (h : Op.read? cs = some (op, rest)) :
    rest.length < cs.length := by
  fun_cases Op.read? cs with
  | case15 => simp_all [Op.read?]
  | _ =>
    simp [Op.read?] at h
    simp [h.2]
    try omega

theorem length_literalSpan_le (c : Char) (cs : List Char) :
    (literalSpan c cs).2.length ≤ cs.length := by
  have hd := (List.dropWhile_suffix isLiteralChar (l := cs)).length_le
  simp only [literalSpan]
  split
  · next sign ds h =>
    rw [h] at hd
    split
    · have := (List.dropWhile_suffix Char.isDigit (l := ds)).length_le
      simp only [List.length_cons] at hd ⊢
      omega
    · simpa [h] using hd
  · simp

theorem length_lt_of_tokenRead {c : Char} {cs rest : List Char} {t : Token}
    (h : Token.read c cs = .ok (t, rest)) : rest.length < (c :: cs).length := by
  simp only [Token.read] at h
  split at h
  · have hl := length_literalSpan_le c cs
    split at h
    · simp only [Except.ok.injEq, Prod.mk.injEq] at h
      rw [← h.2]
      simp only [List.length_cons]
      omega
    · simp at h
  · split at h
    · have hd := (List.dropWhile_suffix Char.isAlphanum (l := cs)).length_le
      split at h
      · simp only [Except.ok.injEq, Prod.mk.injEq] at h
        rw [← h.2]
        simp only [List.length_cons]
        omega
      · split at h
        · simp only [Except.ok.injEq, Prod.mk.injEq] at h
          rw [← h.2]
          simp only [List.length_cons]
          omega
        · simp at h
    · split at h
      · simp at h; simp [h.2]
      · split at h
        · simp at h; simp [h.2]
        · split at h
          · next hr =>
            simp only [Except.ok.injEq, Prod.mk.injEq] at h
            rw [← h.2]
            exact length_lt_of_opRead? hr
          · simp at h

/-- All tokens of a text; the first fault from the left decides. -/
def tokens (cs : List Char) : Except Reason (List Token) :=
  match cs with
  | [] => .ok []
  | c :: cs =>
    if Text.isBlank c then tokens cs
    else
      match h : Token.read c cs with
      | .error reason => .error reason
      | .ok (t, rest) =>
        have : rest.length < cs.length + 1 := length_lt_of_tokenRead h
        match tokens rest with
        | .error reason => .error reason
        | .ok ts => .ok (t :: ts)
termination_by cs.length

end MeshLimiter.Template
