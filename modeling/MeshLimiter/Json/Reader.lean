import MeshLimiter.Decimal.Literal
import MeshLimiter.Decimal.Binary64
import MeshLimiter.Json.Basic
/-!
# Reading JSON text

A reader for the standard grammar. A document may be nested 127 deep. A whole number keeps its value
while it fits 64 bits; every other number is the number of its leading digits that fit 64 bits,
multiplied or divided once by a power of ten.
-/

namespace MeshLimiter.Json

/-- The blanks between tokens. -/
def isSpace (c : Char) : Bool :=
  c = ' ' || c = '\n' || c = '\t' || c = '\r'

/-- The number of a run of exactly four hexadecimal digits. -/
def hexQuad? : List Char → Option (Nat × List Char)
  | a :: b :: c :: d :: rest => (Decimal.readDigits? 16 [a, b, c, d]).map fun n => (n, rest)
  | _ => none

/-- The character of an escape that gives a number. A number of the first half of a surrogate pair
needs the second half after it; one of the second half cannot stand alone. -/
def unicode? (cs : List Char) : Option (Char × List Char) := do
  let (n, rest) ← hexQuad? cs
  if 0xD800 ≤ n && n < 0xDC00 then
    match rest with
    | '\\' :: 'u' :: rest =>
      let (m, rest) ← hexQuad? rest
      if 0xDC00 ≤ m && m < 0xE000 then
        return (Char.ofNat (0x10000 + (n - 0xD800) * 0x400 + (m - 0xDC00)), rest)
      else none
    | _ => none
  else if 0xDC00 ≤ n && n < 0xE000 then none
  else return (Char.ofNat n, rest)

/-- The character that an escape stands for, after its backslash. -/
def escape? : List Char → Option (Char × List Char)
  | '"' :: cs => some ('"', cs)
  | '\\' :: cs => some ('\\', cs)
  | '/' :: cs => some ('/', cs)
  | 'b' :: cs => some ('\x08', cs)
  | 'f' :: cs => some ('\x0c', cs)
  | 'n' :: cs => some ('\n', cs)
  | 'r' :: cs => some ('\r', cs)
  | 't' :: cs => some ('\t', cs)
  | 'u' :: cs => unicode? cs
  | _ => none

theorem length_lt_of_hexQuad? {cs rest : List Char} {n : Nat} (h : hexQuad? cs = some (n, rest)) :
    rest.length < cs.length := by
  unfold hexQuad? at h
  split at h
  · obtain ⟨_, _, h⟩ := Option.map_eq_some_iff.1 h
    simp only [Prod.mk.injEq] at h
    obtain ⟨rfl, rfl⟩ := h
    simp only [List.length_cons]
    omega
  · simp at h

theorem length_lt_of_unicode? {cs rest : List Char} {c : Char} (h : unicode? cs = some (c, rest)) :
    rest.length < cs.length := by
  simp only [unicode?, Option.bind_eq_bind, Option.bind_eq_some_iff] at h
  obtain ⟨⟨n, r⟩, hn, h⟩ := h
  have h1 := length_lt_of_hexQuad? hn
  simp only at h
  split at h
  · split at h
    · obtain ⟨⟨m, r'⟩, hm, h⟩ := Option.bind_eq_some_iff.1 h
      have h2 := length_lt_of_hexQuad? hm
      simp only at h
      split at h
      · simp at h
        obtain ⟨_, rfl⟩ := h
        simp only [List.length_cons] at h1
        omega
      · simp at h
    · simp at h
  · split at h
    · simp at h
    · simp at h
      obtain ⟨_, rfl⟩ := h
      exact h1

theorem length_lt_of_escape? {cs rest : List Char} {c : Char} (h : escape? cs = some (c, rest)) :
    rest.length < cs.length := by
  fun_cases escape? cs with
  | case9 cs => exact Nat.lt_succ_of_lt (length_lt_of_unicode? h)
  | case10 => simp_all [escape?]
  | _ => simp [escape?] at h; simp [h.2]

/-- The characters of a text up to its closing quote. Controls must be escaped. -/
def readText (cs : List Char) : Option (List Char × List Char) :=
  match cs with
  | [] => none
  | '"' :: rest => some ([], rest)
  | '\\' :: rest =>
    match h : escape? rest with
    | none => none
    | some (c, rest') =>
      have := length_lt_of_escape? h
      (readText rest').map fun (text, rest) => (c :: text, rest)
  | c :: rest =>
    if c.toNat < 0x20 then none else (readText rest).map fun (text, rest) => (c :: text, rest)
termination_by cs.length
decreasing_by all_goals simp_wf; try omega

/-- Takes digits into a significand while it fits 64 bits; the count of those taken, and the
rest. -/
def takeDigits (significand : Nat) : List Char → Nat × Nat × List Char
  | [] => (significand, 0, [])
  | c :: cs =>
    let next := significand * 10 + (c.toNat - 48)
    if next < Nat.pow 2 64 then
      let (s, n, rest) := takeDigits next cs
      (s, n + 1, rest)
    else (significand, 0, c :: cs)

/-- `f * 10 ^ e`, with one multiplication or division for powers up to 308. None beyond the largest
number. -/
def scaleByTen : Nat → Float → Int → Option Float
  | 0, f, _ => some f
  | fuel + 1, f, e =>
    if e.natAbs ≤ 308 then
      let power := Decimal.nearestScaled 1 e.natAbs
      if 0 ≤ e then
        let x := f * power
        if Decimal.isFinite x then some x else none
      else some (f / power)
    else if f == 0.0 then some f
    else if 0 ≤ e then none
    else scaleByTen fuel (f / Decimal.nearestScaled 1 308) (e + 308)

/-- The parts of a number literal. -/
structure NumberParts where
  negative : Bool
  whole : List Char
  places : List Char
  exponent : Option Int

def NumberParts.value? (p : NumberParts) : Option Number :=
  let n := Decimal.digitsValue p.whole
  let isWhole := p.places.isEmpty && p.exponent.isNone
  if isWhole && !p.negative && n < Nat.pow 2 64 then some (.int n)
  else if isWhole && p.negative && 0 < n && n ≤ Nat.pow 2 63 then some (.int (-n))
  else
    let (s, taken, _) := takeDigits 0 p.whole
    let left := p.whole.length - taken
    let (s, places, _) := takeDigits s p.places
    let e : Int := (left : Int) - places + p.exponent.getD 0
    (scaleByTen 4 (Float.ofNat s) e).map fun x => .real (if p.negative then -x else x)

/-- A number literal at the start of a text: no zero stands before another digit, and a point or an
exponent mark has a digit after it. -/
def readNumber (cs : List Char) : Option (Number × List Char) := do
  let (negative, cs) : Bool × List Char :=
    match cs with
    | '-' :: cs => (true, cs)
    | cs => (false, cs)
  let whole := cs.takeWhile Char.isDigit
  let cs := cs.dropWhile Char.isDigit
  if whole.isEmpty || (whole.length > 1 && whole.head? == some '0') then none
  let (places, cs) ←
    match cs with
    | '.' :: cs =>
      let places := cs.takeWhile Char.isDigit
      if places.isEmpty then none else some (places, cs.dropWhile Char.isDigit)
    | cs => some ([], cs)
  let (exponent, cs) ←
    match cs with
    | [] => some (none, [])
    | c :: cs =>
      if c = 'e' ∨ c = 'E' then
        let (sign, cs) : Int × List Char :=
          match cs with
          | '+' :: cs => (1, cs)
          | '-' :: cs => (-1, cs)
          | cs => (1, cs)
        let ds := cs.takeWhile Char.isDigit
        if ds.isEmpty then none
        else some (some (sign * Decimal.digitsValue ds), cs.dropWhile Char.isDigit)
      else some (none, c :: cs)
  let value ← NumberParts.value? { negative, whole, places, exponent }
  return (value, cs)

def readWord (cs : List Char) : Option (Json × List Char) :=
  match cs with
  | 't' :: 'r' :: 'u' :: 'e' :: rest => some (.bool true, rest)
  | 'f' :: 'a' :: 'l' :: 's' :: 'e' :: rest => some (.bool false, rest)
  | 'n' :: 'u' :: 'l' :: 'l' :: rest => some (.null, rest)
  | _ => none

mutual

/-- A value at the start of a text, `depth` more levels being allowed. -/
def readValue : (fuel depth : Nat) → List Char → Option (Json × List Char)
  | 0, _, _ => none
  | fuel + 1, depth, cs =>
    match cs.dropWhile isSpace with
    | '"' :: cs => (readText cs).map fun (text, rest) => (.str (String.ofList text), rest)
    | '[' :: cs =>
      if depth ≤ 1 then none
      else
        match cs.dropWhile isSpace with
        | ']' :: rest => some (.arr [], rest)
        | cs => (readItems fuel (depth - 1) cs).map fun (items, rest) => (.arr items, rest)
    | '\x7b' :: cs =>
      if depth ≤ 1 then none
      else
        match cs.dropWhile isSpace with
        | '\x7d' :: rest => some (.obj [], rest)
        | cs => (readMembers fuel (depth - 1) cs).map fun (members, rest) => (.obj members, rest)
    | cs =>
      match readWord cs with
      | some found => some found
      | none => (readNumber cs).map fun (n, rest) => (.num n, rest)

/-- The items of an array that is not empty, up to its closing bracket. -/
def readItems : (fuel depth : Nat) → List Char → Option (List Json × List Char)
  | 0, _, _ => none
  | fuel + 1, depth, cs =>
    match readValue fuel depth cs with
    | none => none
    | some (v, rest) =>
      match rest.dropWhile isSpace with
      | ',' :: rest => (readItems fuel depth rest).map fun (vs, rest) => (v :: vs, rest)
      | ']' :: rest => some ([v], rest)
      | _ => none

/-- The members of an object that is not empty, up to its closing brace. -/
def readMembers : (fuel depth : Nat) → List Char → Option (List (String × Json) × List Char)
  | 0, _, _ => none
  | fuel + 1, depth, cs =>
    match cs.dropWhile isSpace with
    | '"' :: cs =>
      match readText cs with
      | none => none
      | some (name, rest) =>
        match rest.dropWhile isSpace with
        | ':' :: rest =>
          match readValue fuel depth rest with
          | none => none
          | some (v, rest) =>
            let m := (String.ofList name, v)
            match rest.dropWhile isSpace with
            | ',' :: rest => (readMembers fuel depth rest).map fun (ms, rest) => (m :: ms, rest)
            | '\x7d' :: rest => some ([m], rest)
            | _ => none
        | _ => none
    | _ => none

end

/-- Reads a document: one value with nothing but blanks after it. -/
def parse? (s : String) : Option Json := do
  let cs := s.toList
  let (v, rest) ← readValue (2 * cs.length + 2) 128 cs
  if (rest.dropWhile isSpace).isEmpty then some v else none

end MeshLimiter.Json
