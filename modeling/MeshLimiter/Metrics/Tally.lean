/-!
# Tallies

How often each of some kinds of events has happened, and how counts are shown: a line for each kind
that has happened at all.

The counts are numbers without a bound. A counter that is a word of 64 bits shows the same as long
as there were fewer than 2 ^ 64 events (`toNat_word`), and begins again after that.
-/

namespace MeshLimiter

/-- A count for each kind of event. -/
structure Tally (κ : Type) where
  count : κ → Nat

namespace Tally

variable {κ : Type}

def zero : Tally κ := ⟨fun _ => 0⟩

def inc [DecidableEq κ] (t : Tally κ) (k : κ) : Tally κ :=
  ⟨fun j => if j = k then t.count j + 1 else t.count j⟩

instance : Inhabited (Tally κ) := ⟨zero⟩

@[simp] theorem count_zero (k : κ) : (zero : Tally κ).count k = 0 := rfl

/-- An event counts once for its kind. -/
@[simp] theorem count_inc_self [DecidableEq κ] (t : Tally κ) (k : κ) :
    (t.inc k).count k = t.count k + 1 := by
  simp [inc]

/-- It does not count for any other kind. -/
theorem count_inc_of_ne [DecidableEq κ] (t : Tally κ) {j k : κ} (h : j ≠ k) :
    (t.inc k).count j = t.count j := by
  simp [inc, h]

/-- What a counter of 64 bits shows. -/
def word (t : Tally κ) (k : κ) : UInt64 :=
  .ofNat (t.count k)

/-- Such a counter is counted up by one as well. -/
theorem word_inc_self [DecidableEq κ] (t : Tally κ) (k : κ) : (t.inc k).word k = t.word k + 1 := by
  rw [word, count_inc_self, UInt64.ofNat_add]
  rfl

/-- Below 2 ^ 64 it shows the count. -/
theorem toNat_word {t : Tally κ} {k : κ} (h : t.count k < UInt64.size) :
    (t.word k).toNat = t.count k :=
  UInt64.toNat_ofNat_of_lt h

end Tally

namespace Exposition

/-- The labels of a line, in their order. -/
def labelText (labels : List (String × String)) : String :=
  if labels.isEmpty then ""
  else "\x7b" ++ ",".intercalate (labels.map fun (k, v) => k ++ "=\"" ++ v ++ "\"") ++ "\x7d"

def line (name : String) (labels : List (String × String)) (n : Nat) : String :=
  name ++ labelText labels ++ " " ++ toString n

/-- The lines of a family, for the kinds of events that have happened. -/
def family {κ : Type} (name : String) (labels : κ → List (String × String)) (kinds : List κ)
    (t : Tally κ) : List String :=
  (kinds.filter fun k => t.count k != 0).map fun k => line (name ++ "_total") (labels k) (t.count k)

def sorted (lines : List String) : List String :=
  lines.mergeSort fun a b => decide (a ≤ b)

end Exposition

end MeshLimiter
