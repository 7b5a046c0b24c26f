/-!
# Integers in decimal

Writing and reading whole numbers with the digits 0 to 9.
-/

namespace MeshLimiter.Decimal

/-- The digits of a natural number, most significant first. -/
def natDigits (n : Nat) : List Char :=
  Nat.toDigits 10 n

theorem isDigit_of_mem_natDigits {n : Nat} {c : Char} (h : c ∈ natDigits n) : c.isDigit = true :=
  Nat.isDigit_of_mem_toDigits (by decide) (by decide) h

theorem exists_natDigits (n : Nat) : ∃ c cs, natDigits n = c :: cs ∧ c.isDigit = true := by
  obtain ⟨c, cs, hcons⟩ := List.exists_cons_of_ne_nil (Nat.toDigits_ne_nil (n := n) (b := 10))
  have hdigits : natDigits n = c :: cs := hcons
  exact ⟨c, cs, hdigits, isDigit_of_mem_natDigits (n := n)
    (by rw [hdigits]; exact List.mem_cons_self)⟩

/-- A natural number without leading zeros. -/
def natText (n : Nat) : String :=
  String.ofList (natDigits n)

/-- An integer; only a negative one carries a sign. -/
def intText : Int → String
  | .ofNat n => natText n
  | .negSucc n => "-" ++ natText (n + 1)

/-- A natural number padded with zeros on the left to at least `width` digits. -/
def paddedText (width n : Nat) : String :=
  let ds := natDigits n
  String.ofList (List.replicate (width - ds.length) '0' ++ ds)

/-- The value of a digit of a base up to sixteen, in either case. -/
def digitValue? (base : Nat) (c : Char) : Option Nat :=
  let n := c.toNat
  let v :=
    if '0' ≤ c ∧ c ≤ '9' then some (n - 48)
    else if 'a' ≤ c ∧ c ≤ 'f' then some (n - 87)
    else if 'A' ≤ c ∧ c ≤ 'F' then some (n - 55)
    else none
  v.filter (· < base)

/-- The number written by digits of a base; none for an empty text or a foreign character. -/
def readDigits? (base : Nat) : List Char → Option Nat
  | [] => none
  | c :: cs => (c :: cs).foldlM (fun acc d => (digitValue? base d).map (acc * base + ·)) 0

/-- A natural number in decimal, which may have a plus in front of it and zeros before its first
digit. -/
def readNat? : List Char → Option Nat
  | '+' :: cs => readDigits? 10 cs
  | cs => readDigits? 10 cs

/-- The number that a run of decimal digits stands for, the empty run being zero. -/
def digitsValue (cs : List Char) : Nat :=
  cs.foldl (fun acc c => acc * 10 + (c.toNat - 48)) 0

end MeshLimiter.Decimal
