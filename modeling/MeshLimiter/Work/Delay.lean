/-!
# Delays

How long to wait: whole seconds, and the nanoseconds beyond them. Both have a fixed width, so there
is a longest delay; it stands for every product that does not fit.
-/

namespace MeshLimiter

/-- A length of time. The nanoseconds make up less than a second. -/
structure Delay where
  secs : UInt64
  nanos : UInt32
  nanos_lt : nanos.toNat < 1000000000
deriving DecidableEq, Repr

namespace Delay

/-- The longest delay. -/
def longest : Delay where
  secs := 18446744073709551615
  nanos := 999999999
  nanos_lt := by decide

/-- The whole length in nanoseconds. -/
def inNanos (d : Delay) : Nat :=
  d.secs.toNat * 1000000000 + d.nanos.toNat

/-- The number of milliseconds after which as much time has passed. -/
def inMillis (d : Delay) : Nat :=
  (d.inNanos + 999999) / 1000000

/-- As many milliseconds, if they fit. -/
def ofMillis (ms : Nat) : Delay :=
  if ms / 1000 < UInt64.size then
    { secs := UInt64.ofNat (ms / 1000)
      nanos := UInt32.ofNat (ms % 1000 * 1000000)
      nanos_lt := by
        have hlt : ms % 1000 * 1000000 < 1000000000 := by omega
        rw [UInt32.toNat_ofNat']
        exact Nat.lt_of_le_of_lt (Nat.mod_le _ _) hlt }
  else longest

/-- A number stands for as many milliseconds. -/
instance : Coe Nat Delay := ⟨ofMillis⟩

/-- Seconds count before nanoseconds. -/
instance : LE Delay :=
  ⟨fun a b => a.secs < b.secs ∨ a.secs = b.secs ∧ a.nanos ≤ b.nanos⟩

instance (a b : Delay) : Decidable (a ≤ b) :=
  inferInstanceAs (Decidable (a.secs < b.secs ∨ a.secs = b.secs ∧ a.nanos ≤ b.nanos))

instance : Min Delay := minOfLe

instance : Max Delay := maxOfLe

/-- The sum of two words, if it fits. -/
def sum? (a b : UInt64) : Option UInt64 :=
  if a.toNat + b.toNat < UInt64.size then some (a + b) else none

/-- The product of two words, if it fits. -/
def product? (a b : UInt64) : Option UInt64 :=
  if a.toNat * b.toNat < UInt64.size then some (a * b) else none

/-- A delay so many times over, if it fits. Full seconds of nanoseconds are carried over. -/
def times? (d : Delay) (k : UInt32) : Option Delay := do
  let nanos := d.nanos.toUInt64 * k.toUInt64
  let secs ← sum? (← product? d.secs k.toUInt64) (nanos / 1000000000)
  return {
    secs
    nanos := (nanos % 1000000000).toUInt32
    nanos_lt := by
      rw [UInt64.toNat_toUInt32, UInt64.toNat_mod]
      have hlt := Nat.mod_lt nanos.toNat (y := 1000000000) (by decide)
      exact Nat.lt_of_le_of_lt (Nat.mod_le _ _) hlt }

/-- A delay so many times over, or the longest one. -/
def times (d : Delay) (k : UInt32) : Delay :=
  (d.times? k).getD longest

end Delay

end MeshLimiter
