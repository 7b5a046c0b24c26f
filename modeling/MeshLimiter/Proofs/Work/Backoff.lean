import MeshLimiter.Proofs.Work.Record
import Mathlib.Algebra.Group.Nat.Defs
import Mathlib.Data.List.DropRight
import Mathlib.Data.List.Induction
/-!
# How long a failed pass waits

Failures are counted in a word, a power of two is taken of the count in a word, and the least delay
is taken so many times over in seconds and nanoseconds of fixed width. Each of the three stops at
its largest value. Numbers without bounds give the same delays: none of the three stops before the
greatest delay is reached.

* **`Delay.inNanos_times`**: a product is exact, or it is the longest delay;
* **`Backoff.delayAfter`**: the delay after some number of failures in a row;
* **`Backoff.inNanos_delayAfter`**: that delay in numbers without bounds;
* **`World.attempts_after`**: what steps of any kind leave of the count of a limiter;
* **`Backoff.delays_double`**: the delays of every run.
-/

namespace MeshLimiter

/-! ## Delays as numbers

A delay has a number of nanoseconds. It is below that of the longest one, and delays are compared by
it. -/

namespace Delay

variable {a b : Delay}

/-- The seconds are a word, and there are less than a billion nanoseconds beside them. -/
theorem inNanos_lt (d : Delay) : d.inNanos < UInt64.size * 1000000000 := by
  have hsecs : d.secs.toNat < UInt64.size := d.secs.toNat_lt
  have hnanos := d.nanos_lt
  unfold inNanos
  omega

/-- The longest delay has all seconds and nanoseconds that there can be. -/
theorem inNanos_longest : longest.inNanos = UInt64.size * 1000000000 - 1 := rfl

/-- No delay is longer. -/
theorem inNanos_le_longest (d : Delay) : d.inNanos ≤ longest.inNanos := by
  rw [inNanos_longest]
  exact Nat.le_sub_one_of_lt d.inNanos_lt

/-- Delays are in the order of their lengths. -/
theorem le_iff_inNanos : a ≤ b ↔ a.inNanos ≤ b.inNanos := by
  show a.secs < b.secs ∨ a.secs = b.secs ∧ a.nanos ≤ b.nanos ↔ _
  rw [UInt64.lt_iff_toNat_lt, ← UInt64.toNat_inj, UInt32.le_iff_toNat_le, inNanos, inNanos]
  have ha := a.nanos_lt
  have hb := b.nanos_lt
  omega

/-- The lesser of two delays is the one with fewer nanoseconds. -/
theorem inNanos_min (a b : Delay) : (min a b).inNanos = min a.inNanos b.inNanos := by
  show (if a ≤ b then a else b).inNanos = _
  rw [Nat.min_def]
  simp only [le_iff_inNanos]
  split <;> rfl

/-- The greater is the one with more. -/
theorem inNanos_max (a b : Delay) : (max a b).inNanos = max a.inNanos b.inNanos := by
  show (if a ≤ b then b else a).inNanos = _
  rw [Nat.max_def]
  simp only [le_iff_inNanos]
  split <;> rfl

/-! ## Products

Sums and products of words are exact, or there are none. So a delay times a number is exact, or
longer than any delay. -/

/-- A sum that exists is exact. -/
theorem sum?_eq_some {x y z : UInt64} (h : sum? x y = some z) : z.toNat = x.toNat + y.toNat := by
  unfold sum? at h
  split at h
  · next hlt =>
    obtain rfl := Option.some.inj h
    rw [UInt64.toNat_add]
    exact Nat.mod_eq_of_lt hlt
  · cases h

/-- One that does not is too large. -/
theorem sum?_eq_none {x y : UInt64} (h : sum? x y = none) : UInt64.size ≤ x.toNat + y.toNat := by
  unfold sum? at h
  split at h
  · cases h
  · next hlt => exact Nat.le_of_not_lt hlt

/-- A product that exists is exact. -/
theorem product?_eq_some {x y z : UInt64} (h : product? x y = some z) :
    z.toNat = x.toNat * y.toNat := by
  unfold product? at h
  split at h
  · next hlt =>
    obtain rfl := Option.some.inj h
    rw [UInt64.toNat_mul]
    exact Nat.mod_eq_of_lt hlt
  · cases h

/-- One that does not is too large. -/
theorem product?_eq_none {x y : UInt64} (h : product? x y = none) :
    UInt64.size ≤ x.toNat * y.toNat := by
  unfold product? at h
  split at h
  · cases h
  · next hlt => exact Nat.le_of_not_lt hlt

/-- No word overflows under the nanoseconds of a product. -/
theorem toNat_nanos_mul (d : Delay) (k : UInt32) :
    (d.nanos.toUInt64 * k.toUInt64).toNat = d.nanos.toNat * k.toNat := by
  rw [UInt64.toNat_mul, UInt32.toNat_toUInt64, UInt32.toNat_toUInt64]
  refine Nat.mod_eq_of_lt ?_
  calc d.nanos.toNat * k.toNat
      ≤ 1000000000 * UInt32.size :=
        Nat.mul_le_mul (Nat.le_of_lt d.nanos_lt) (Nat.le_of_lt k.toNat_lt)
    _ < UInt64.size := by decide

/-- Seconds and nanoseconds are multiplied one by one. -/
theorem inNanos_mul (d : Delay) (k : Nat) :
    d.inNanos * k = d.secs.toNat * k * 1000000000 + d.nanos.toNat * k := by
  rw [inNanos, Nat.add_mul, Nat.mul_right_comm]

/-- A multiple that exists is exact: whole seconds among the nanoseconds are carried. -/
theorem times?_eq_some {d e : Delay} {k : UInt32} (h : d.times? k = some e) :
    e.inNanos = d.inNanos * k.toNat := by
  obtain ⟨p, hp, h⟩ := Option.bind_eq_some_iff.1 h
  obtain ⟨s, hs, h⟩ := Option.bind_eq_some_iff.1 h
  obtain rfl := Option.some.inj h
  have hp := product?_eq_some hp
  have hs := sum?_eq_some hs
  rw [UInt32.toNat_toUInt64] at hp
  rw [hp, UInt64.toNat_div, toNat_nanos_mul] at hs
  -- what is left of the nanoseconds fits
  have hnanos : (d.nanos.toUInt64 * k.toUInt64 % 1000000000).toUInt32.toNat
      = d.nanos.toNat * k.toNat % 1000000000 := by
    rw [UInt64.toNat_toUInt32, UInt64.toNat_mod, toNat_nanos_mul]
    exact Nat.mod_eq_of_lt (Nat.lt_trans (Nat.mod_lt _ (by decide)) (by decide))
  show s.toNat * 1000000000 + (d.nanos.toUInt64 * k.toUInt64 % 1000000000).toUInt32.toNat = _
  rw [hs, hnanos, inNanos_mul, Nat.add_mul, Nat.add_assoc]
  exact congrArg _ (Nat.div_add_mod' ..)

/-- One that does not is longer than any delay. -/
theorem times?_eq_none {d : Delay} {k : UInt32} (h : d.times? k = none) :
    UInt64.size * 1000000000 ≤ d.inNanos * k.toNat := by
  rw [inNanos_mul]
  unfold times? at h
  cases hp : product? d.secs k.toUInt64 with
  | none =>
    -- the seconds alone are too many
    have hp := product?_eq_none hp
    rw [UInt32.toNat_toUInt64] at hp
    omega
  | some p =>
    rw [hp] at h
    cases hs : sum? p (d.nanos.toUInt64 * k.toUInt64 / 1000000000) with
    | some s =>
      rw [Option.bind_eq_bind, Option.bind_some, hs] at h
      cases h
    | none =>
      -- with the seconds that are carried they are
      have hp := product?_eq_some hp
      have hs := sum?_eq_none hs
      rw [UInt32.toNat_toUInt64] at hp
      rw [hp, UInt64.toNat_div, toNat_nanos_mul] at hs
      calc UInt64.size * 1000000000
          ≤ (d.secs.toNat * k.toNat + d.nanos.toNat * k.toNat / 1000000000) * 1000000000 :=
            Nat.mul_le_mul_right _ hs
        _ = d.secs.toNat * k.toNat * 1000000000 +
          d.nanos.toNat * k.toNat / 1000000000 * 1000000000 :=
            Nat.add_mul ..
        _ ≤ d.secs.toNat * k.toNat * 1000000000 + d.nanos.toNat * k.toNat :=
            Nat.add_le_add_left (Nat.div_mul_le_self ..) _

/-- **A product is exact, or it is the longest delay** if it is longer than that. -/
theorem inNanos_times (d : Delay) (k : UInt32) :
    (d.times k).inNanos = min (d.inNanos * k.toNat) longest.inNanos := by
  unfold times
  cases h : d.times? k with
  | some e => rw [Option.getD_some, ← times?_eq_some h, Nat.min_eq_left e.inNanos_le_longest]
  | none =>
    have hlong := times?_eq_none h
    rw [Option.getD_none, Nat.min_eq_right]
    rw [inNanos_longest]
    omega

end Delay

/-! ## Counts and factors

A failure raises the count up to its limit, and the factor doubles with it up to the same limit. -/

namespace Backoff

/-- The powers of two that fit into a word. -/
theorem two_pow_lt {n : Nat} (hn : n < 32) : 2 ^ n < UInt32.size :=
  Nat.pow_lt_pow_right (by decide) hn

/-- One more failure is counted, unless the count is at its limit. -/
theorem toNat_next (n : UInt32) : (next n).toNat = min (n.toNat + 1) limit.toNat := by
  unfold next
  split
  · next hlt =>
    have hlt : n.toNat + 1 ≤ limit.toNat := UInt32.lt_iff_toNat_lt.1 hlt
    rw [Nat.min_eq_left hlt, UInt32.toNat_add]
    exact Nat.mod_eq_of_lt (Nat.lt_succ_of_le hlt)
  · next hge =>
    have hge : limit.toNat ≤ n.toNat := Nat.le_of_not_lt fun h => hge (UInt32.lt_iff_toNat_lt.2 h)
    rw [Nat.min_eq_right (Nat.le_succ_of_le hge)]

/-- The factor is a power of two, or it is at its limit. -/
theorem toNat_factor (n : UInt32) : (factor n).toNat = min (2 ^ n.toNat) limit.toNat := by
  unfold factor
  split
  · -- the bit is shifted within the word
    next hlt =>
    have hlt : n.toNat < 32 := UInt32.lt_iff_toNat_lt.1 hlt
    have hpow := two_pow_lt hlt
    have hfits : 2 ^ n.toNat ≤ limit.toNat := Nat.le_of_lt_succ hpow
    rw [Nat.min_eq_left hfits, UInt32.toNat_shiftLeft, Nat.mod_eq_of_lt hlt, Nat.shiftLeft_eq,
      UInt32.toNat_one, Nat.one_mul]
    exact Nat.mod_eq_of_lt hpow
  · -- there is no such bit
    next hge =>
    have hge : 32 ≤ n.toNat := Nat.le_of_not_lt fun h => hge (UInt32.lt_iff_toNat_lt.2 h)
    have hpow : UInt32.size ≤ 2 ^ n.toNat := Nat.pow_le_pow_right (Nat.succ_pos 1) hge
    exact (Nat.min_eq_right (Nat.le_trans (Nat.pred_le UInt32.size) hpow)).symm

/-- The count after some failures in a row. -/
def counted : Nat → UInt32
  | 0 => 0
  | n + 1 => next (counted n)

/-- The count is that of the failures, up to the limit. -/
theorem toNat_counted (n : Nat) : (counted n).toNat = min n limit.toNat := by
  induction n with
  | zero => rfl
  | succ n ih =>
    rw [counted, toNat_next, ih]
    omega

/-- The factor after some failures in a row, no matter where their count has stopped. -/
theorem toNat_factor_counted (n : Nat) : (factor (counted n)).toNat = min (2 ^ n) limit.toNat := by
  rw [toNat_factor, toNat_counted]
  rcases Nat.le_total n limit.toNat with hle | hle
  · rw [Nat.min_eq_left hle]
  · -- the factor has long been at its limit
    have hpow : limit.toNat ≤ 2 ^ limit.toNat := Nat.le_of_lt Nat.lt_two_pow_self
    rw [Nat.min_eq_right hle, Nat.min_eq_right hpow,
      Nat.min_eq_right (Nat.le_trans hpow (Nat.pow_le_pow_right (by decide) hle))]

/-- The delay after some failures in a row. -/
def delayAfter (b : Backoff) (n : Nat) : Delay :=
  b.delay (counted n)

variable (b : Backoff)

/-- **The delay in numbers without bounds.** -/
theorem inNanos_delayAfter (n : Nat) : (b.delayAfter n).inNanos =
    min (max b.least b.greatest).inNanos (b.least.inNanos * min (2 ^ n) limit.toNat) := by
  rw [delayAfter, delay, Delay.inNanos_min, Delay.inNanos_times, toNat_factor_counted,
    Delay.inNanos_max, Delay.inNanos_max]
  have hleast := b.least.inNanos_le_longest
  have hgreatest := b.greatest.inNanos_le_longest
  generalize b.least.inNanos * min (2 ^ n) limit.toNat = product
  omega

theorem one_le_factor (n : Nat) : 1 ≤ min (2 ^ n) limit.toNat :=
  Nat.le_min.2 ⟨Nat.one_le_two_pow, by decide⟩

/-- Within the first powers of two the limit does not count. -/
theorem inNanos_delayAfter_of_lt {n : Nat} (hn : n < 32) : (b.delayAfter n).inNanos =
    min (max b.least b.greatest).inNanos (b.least.inNanos * 2 ^ n) := by
  have hfits : 2 ^ n ≤ limit.toNat := Nat.le_of_lt_succ (two_pow_lt hn)
  rw [inNanos_delayAfter, Nat.min_eq_left hfits]

example :
    (List.range 5).map { least := .ofMillis 1000, greatest := .ofMillis 5000 : Backoff }.delayAfter
    = [1000, 2000, 4000, 5000, 5000].map .ofMillis := by decide

/-- More failures never wait less. -/
theorem delayAfter_mono {n m : Nat} (h : n ≤ m) : b.delayAfter n ≤ b.delayAfter m := by
  rw [Delay.le_iff_inNanos, inNanos_delayAfter, inNanos_delayAfter]
  have hpow : 2 ^ n ≤ 2 ^ m := Nat.pow_le_pow_right (Nat.succ_pos 1) h
  have hfactor : min (2 ^ n) limit.toNat ≤ min (2 ^ m) limit.toNat := by omega
  have hproduct := Nat.mul_le_mul_left b.least.inNanos hfactor
  omega

/-- No delay is less than the least. -/
theorem least_le_delayAfter (n : Nat) : b.least ≤ b.delayAfter n := by
  rw [Delay.le_iff_inNanos, inNanos_delayAfter, Delay.inNanos_max]
  have hproduct := Nat.mul_le_mul_left b.least.inNanos (one_le_factor n)
  omega

/-- None is more than the greatest, or than the least if that is more. -/
theorem delayAfter_le (n : Nat) : b.delayAfter n ≤ max b.least b.greatest := by
  rw [Delay.le_iff_inNanos, inNanos_delayAfter]
  exact Nat.min_le_left ..

end Backoff

/-! ## Failures in a row

A success of the limiter ends the row, and the failures of others are not counted. -/

namespace Step

variable (id : ResourceId)

/-- Whether a step notes a failure of a limiter. -/
def notesFailureOf : Step → Bool
  | noteFailure _ k => k = id
  | _ => false

/-- Whether a step notes a success of a limiter. -/
def notesSuccessOf : Step → Bool
  | noteSuccess k => k = id
  | _ => false

/-- The number of failures of a limiter that some steps have noted since they noted a success of
it. -/
def failuresInRow (steps : List Step) : Nat :=
  (steps.rtakeWhile fun a => !a.notesSuccessOf id).countP (·.notesFailureOf id)

/-- The last step ends the row, adds to it, or leaves it. -/
theorem failuresInRow_concat (steps : List Step) (a : Step) : failuresInRow id (steps ++ [a]) =
    if a.notesSuccessOf id then 0 else failuresInRow id steps + if a.notesFailureOf id then 1
      else 0 := by
  unfold failuresInRow
  rw [List.rtakeWhile_concat]
  cases a.notesSuccessOf id with
  | true => rfl
  | false =>
    rw [if_pos (by rfl), List.countP_append, List.countP_singleton]
    rfl

end Step

namespace World

variable (w : World) (id : ResourceId)

/-- The world after some steps. -/
def performAll (steps : List Step) : World :=
  steps.foldl (fun w a => (w.perform a).2) w

/-- The world with no failure on record. -/
def withoutFailures : World :=
  w.remember fun m => { m with attempts := ∅ }

/-- Only what is noted of the limiter itself changes the count of its failures. -/
theorem attempts_perform (a : Step) : (w.perform a).2.memory.attempts.getD id 0 =
    if a.notesSuccessOf id then 0
    else if a.notesFailureOf id then Backoff.next (w.memory.attempts.getD id 0)
    else w.memory.attempts.getD id 0 := by
  -- only the two notes touch the counts, each that of its own limiter
  cases a with
  | noteFailure b k =>
    show (w.memory.attempts.insert k (Backoff.next (w.memory.attempts.getD k 0))).getD id 0
      = if (false : Bool) then _ else if decide (k = id) then _ else _
    rw [Std.ExtTreeMap.getD_insert]
    by_cases hk : k = id
    · simp [hk]
    · simp [hk]
  | noteSuccess k =>
    show (w.memory.attempts.erase k).getD id 0 = if decide (k = id) then _ else _
    rw [Std.ExtTreeMap.getD_erase]
    by_cases hk : k = id
    · simp [hk]
    · simp [hk, Step.notesFailureOf]
  | tryPop name | push name | finish name => cases name <;> rfl
  | call c => exact congrArg (·.attempts.getD id 0) (w.memory_call c)
  | sendQueries texts => exact congrArg (·.attempts.getD id 0) (memory_note_queries texts w)
  | _ => rfl

/-- From no failures on the count is that of the failures in a row. -/
theorem attempts_performAll (steps : List Step) :
    (w.withoutFailures.performAll steps).memory.attempts.getD id 0
      = Backoff.counted (Step.failuresInRow id steps) := by
  induction steps using List.reverseRecOn with
  | nil => exact Std.ExtTreeMap.getD_empty
  | append_singleton steps a ih =>
    rw [performAll, List.foldl_concat, attempts_perform, Step.failuresInRow_concat]
    rw [performAll] at ih
    rw [ih]
    cases a.notesSuccessOf id <;> cases a.notesFailureOf id <;> rfl

end World

namespace Backoff

/-- What the delays after more and more failures in a row are like. -/
structure Doubles (b : Backoff) (delays : Nat → Delay) : Prop where
  /-- Each failure doubles the delay, up to the greatest. -/
  doubled : ∀ n < 32, (delays n).inNanos
    = min (max b.least b.greatest).inNanos (b.least.inNanos * 2 ^ n)
  /-- However many failures there are, the delay does not get shorter. -/
  grows : ∀ n m, n ≤ m → delays n ≤ delays m
  least : ∀ n, b.least ≤ delays n
  greatest : ∀ n, delays n ≤ max b.least b.greatest

/-- Counts, factors and products are what they are in numbers without bounds, or else the largest
there is. -/
structure Saturates : Prop where
  counts : ∀ n, (next n).toNat = min (n.toNat + 1) limit.toNat
  factors : ∀ n, (factor n).toNat = min (2 ^ n.toNat) limit.toNat
  products : ∀ (d : Delay) (k : UInt32), (d.times k).inNanos
    = min (d.inNanos * k.toNat) Delay.longest.inNanos

/-- **The delay doubles with each failure in a row**, whatever other steps are taken in between, and
no number overflows on the way. -/
theorem delays_double (b : Backoff) : ∃ delays : Nat → Delay, b.Doubles delays ∧ Saturates ∧
    ∀ (w : World) (steps : List Step) (id : ResourceId),
      ((w.withoutFailures.performAll steps).perform (.noteFailure b id)).1
        = delays (Step.failuresInRow id steps) := by
  refine ⟨b.delayAfter, ?_, ?_, fun w steps id => ?_⟩
  · exact
      { doubled := fun n hn => b.inNanos_delayAfter_of_lt hn
        grows := fun n m h => b.delayAfter_mono h
        least := b.least_le_delayAfter
        greatest := b.delayAfter_le }
  · exact { counts := toNat_next, factors := toNat_factor, products := Delay.inNanos_times }
  · exact congrArg b.delay (w.attempts_performAll id steps)

end Backoff

end MeshLimiter
