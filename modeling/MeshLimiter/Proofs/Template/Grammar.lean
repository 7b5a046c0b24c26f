import MeshLimiter.Template.Evaluation
/-!
# The grammar of expressions

Expressions as trees, the value of a tree, and the token sequences that the grammar derives for it.

* **`Derives`**: the rules of the grammar, one level of binding above the other. The rules of the
  binary operators are left recursive; that of the comparisons is not, so comparisons do not chain.
* **`Expr.tokens`**: a tree written with the parentheses that its levels call for.
* **`derives_tokens`, `length_tokens_le`**: the grammar derives these tokens for the tree, and none
  that are fewer.
* **`Derives.inPlace`, `Derives.tracked`**: which tokens stand side by side in a derived sequence,
  that its parentheses are closed, and that between two comparisons something parts them.
-/

namespace MeshLimiter.Template

/-- The level of the grammar that an operator joins two operands on, from the loosest; `!` joins
none. -/
def Op.level : Op → Nat
  | or => 0
  | and => 1
  | eq | ne | le | ge | lt | gt => 2
  | add | sub => 3
  | mul | div | rem => 4
  | not => 5

/-- The operators that stand before one operand. -/
def Op.isSign : Op → Bool
  | not | sub | add => true
  | _ => false

inductive Expr where
  | number (x : Float)
  | truth (b : Bool)
  | signed (op : Op) (h : op.isSign) (operand : Expr)
  | joined (op : Op) (h : op.level < 5) (left right : Expr)

/-! ## Values

The value of a tree is found from the left to the right, and the first fault is that of the tree. -/

def Op.ofOne : Op → Value → Except Fault Value
  | not, .truth b => .ok (.truth !b)
  | not, .number _ => .error (.type .boolean)
  | sub, .number x => .ok (.number (-x))
  | _, .number x => .ok (.number x)
  | _, .truth _ => .error (.type .numeric)

/-- The value of two operands that an operator joins. A left side that decides a logical operator
makes the kind of the right side indifferent. -/
def Op.ofTwo : Op → Value → Value → Except Fault Value
  | or, .truth true, _ => .ok (.truth true)
  | or, .truth false, .truth b => .ok (.truth b)
  | and, .truth false, _ => .ok (.truth false)
  | and, .truth true, .truth b => .ok (.truth b)
  | or, _, _ | and, _, _ | not, _, _ => .error (.type .boolean)
  | eq, .truth a, .truth b => .ok (.truth (a == b))
  | ne, .truth a, .truth b => .ok (.truth (a != b))
  | eq, .number a, .number b => .ok (.truth (a == b))
  | ne, .number a, .number b => .ok (.truth (a != b))
  | lt, .number a, .number b => .ok (.truth (decide (a < b)))
  | le, .number a, .number b => .ok (.truth (decide (a ≤ b)))
  | gt, .number a, .number b => .ok (.truth (decide (b < a)))
  | ge, .number a, .number b => .ok (.truth (decide (b ≤ a)))
  | add, .number a, .number b => .ok (.number (a + b))
  | sub, .number a, .number b => .ok (.number (a - b))
  | mul, .number a, .number b => .ok (.number (a * b))
  | div, .number a, .number b => if b == 0.0 then .error .divideByZero else .ok (.number (a / b))
  | rem, .number a, .number b =>
    if b == 0.0 then .error .divideByZero else .ok (.number (Decimal.remainder a b))
  | _, _, _ => .error (.type .numeric)

/-- The left operand, if its kind lets the right one be looked at: arithmetic takes no truth
value. -/
def Op.accept (op : Op) : Value → Except Fault Value
  | .truth b => if op.level < 3 then .ok (.truth b) else .error (.type .numeric)
  | .number x => .ok (.number x)

/-- The value of a tree; of two faults the one further left. -/
def Expr.value : Expr → Except Fault Value
  | number x => .ok (.number x)
  | truth b => .ok (.truth b)
  | signed op _ e => do
    let v ← e.value
    op.ofOne v
  | joined op _ l r => do
    let v ← l.value
    let a ← op.accept v
    let b ← r.value
    op.ofTwo a b

/-! ## Derivations

A level has the operators of that level, over operands of the tighter ones. -/

/-- `Derives k ts e`: the tokens are the tree `e` on the level `k` of the grammar. The levels of the
binary operators are followed by 5, the signs, and 6, the primaries. -/
inductive Derives : Nat → List Token → Expr → Prop where
  | number (x : Float) : Derives 6 [.number x] (.number x)
  | truth (b : Bool) : Derives 6 [.truth b] (.truth b)
  | nested {ts e} (h : Derives 0 ts e) : Derives 6 (.opening :: (ts ++ [.closing])) e
  | signed {op ts e} (hs : op.isSign) (h : Derives 5 ts e) :
      Derives 5 (.op op :: ts) (.signed op hs e)
  | tighter {k ts e} (hk : k < 6) (h : Derives (k + 1) ts e) : Derives k ts e
  | chained {k op ts us l r} (hop : op.level < 5) (hk : op.level = k) (h2 : k ≠ 2)
      (hl : Derives k ts l) (hr : Derives (k + 1) us r) :
      Derives k (ts ++ .op op :: us) (.joined op hop l r)
  | compared {op ts us l r} (hop : op.level < 5) (hk : op.level = 2) (hl : Derives 3 ts l)
      (hr : Derives 3 us r) : Derives 2 (ts ++ .op op :: us) (.joined op hop l r)

variable {k : Nat} {op : Op} {ts us : List Token} {e l r : Expr}

theorem Derives.loosen {j : Nat} (h : Derives k ts e) (hk : k ≤ 6) (hj : j ≤ k) :
    Derives j ts e := by
  induction hj with
  | refl => exact h
  | @step m _ ih => exact ih (.tighter (by omega) h) (by omega)

theorem Derives.level_le (h : Derives k ts e) : k ≤ 6 := by
  induction h with
  | number | truth | nested | signed | compared => omega
  | tighter hk => omega
  | chained hop hk => omega

/-! ## The shortest form of a tree

Parentheses are put only where a looser tree stands in a tighter place. -/

/-- The level on which a tree stands without parentheses. -/
def Expr.level : Expr → Nat
  | number _ | truth _ => 6
  | signed .. => 5
  | joined op .. => op.level

/-- The level that the left operand of an operator must have: its own, as operators associate to the
left, except for the comparisons. -/
def Op.leftLevel (op : Op) : Nat :=
  if op.level = 2 then 3 else op.level

/-- Tokens of a tree of level `own` where the grammar asks for the level `k`. -/
def enclosed (own k : Nat) (ts : List Token) : List Token :=
  if own < k then .opening :: (ts ++ [.closing]) else ts

/-- A tree written with the parentheses that precedence and association call for, and no other. -/
def Expr.tokens : Expr → List Token
  | number x => [.number x]
  | truth b => [.truth b]
  | signed op _ e => .op op :: enclosed e.level 5 e.tokens
  | joined op _ l r =>
    enclosed l.level op.leftLevel l.tokens ++ .op op :: enclosed r.level (op.level + 1) r.tokens

theorem Expr.level_le (e : Expr) : e.level ≤ 6 := by
  cases e with
  | number | truth => exact Nat.le_refl 6
  | signed => exact Nat.le_succ 5
  | joined op h => exact Nat.le_trans (Nat.le_of_lt h) (by omega)

theorem Derives.enclosed {own : Nat} (h : Derives own ts e) (ho : own ≤ 6) (hk : k ≤ 6) :
    Derives k (enclosed own k ts) e := by
  rw [Template.enclosed]
  split
  · exact Derives.loosen (.nested (h.loosen ho (Nat.zero_le _))) (Nat.le_refl 6) hk
  · next hle => exact h.loosen ho (by omega)

theorem derives_tokens (e : Expr) : Derives e.level e.tokens e := by
  induction e with
  | number x => exact .number x
  | truth b => exact .truth b
  | signed op h e ih => exact .signed h (ih.enclosed e.level_le (by omega))
  | joined op h l r ihl ihr =>
    have hr := ihr.enclosed (k := op.level + 1) r.level_le (by omega)
    rw [Expr.level, Expr.tokens, Op.leftLevel]
    split
    · next h2 =>
      have hl := ihl.enclosed (k := 3) l.level_le (by omega)
      rw [h2] at hr ⊢
      exact .compared h h2 hl hr
    · next h2 => exact .chained h rfl h2 (ihl.enclosed l.level_le (by omega)) hr

theorem length_enclosed (own k : Nat) (ts : List Token) :
    (enclosed own k ts).length = ts.length + if own < k then 2 else 0 := by
  rw [enclosed]
  split
  · simp
  · rfl

/-- No form of a tree on a level has fewer tokens than its shortest form there. -/
theorem length_enclosed_le (h : Derives k ts e) :
    (enclosed e.level k e.tokens).length ≤ ts.length := by
  induction h with
  | number | truth => simp [enclosed, Expr.level, Expr.tokens]
  | @nested ts e _ ih =>
    rw [length_enclosed] at ih ⊢
    simp only [List.length_append, List.length_cons, List.length_nil]
    split <;> omega
  | signed hs _ ih => simpa [enclosed, Expr.level, Expr.tokens] using ih
  | tighter hk _ ih =>
    -- asking for a looser level does not add parentheses
    rw [length_enclosed] at ih ⊢
    split at ih <;> split <;> omega
  | chained hop hk h2 _ _ ihl ihr =>
    subst hk
    rw [enclosed, Expr.level, if_neg (by omega), Expr.tokens, Op.leftLevel, if_neg h2]
    simp only [List.length_append, List.length_cons]
    omega
  | @compared op _ _ _ _ hop hk _ _ ihl ihr =>
    have h3 : op.level + 1 = 3 := by omega
    rw [enclosed, Expr.level, if_neg (by omega), Expr.tokens, Op.leftLevel, if_pos hk, h3]
    simp only [List.length_append, List.length_cons]
    omega

theorem length_tokens_le (h : Derives 0 ts e) : e.tokens.length ≤ ts.length := by
  simpa [enclosed] using length_enclosed_le h

/-! ## What stands side by side

A text is cut back into its tokens if no two that stand side by side run into one another. -/

/-- Tokens at which a value may begin. -/
def Token.begins : Token → Bool
  | .number _ | .truth _ | .opening => true
  | .op o => o.isSign
  | .closing => false

/-- Tokens at which a value may end. -/
def Token.ends : Token → Bool
  | .number _ | .truth _ | .closing => true
  | .op _ | .opening => false

/-- The tokens that may follow a value. -/
def Token.continues : Token → Bool
  | .op o => decide (o.level < 5)
  | .closing => true
  | .number _ | .truth _ | .opening => false

def Token.fits (t : Token) (ended : Bool) : Bool :=
  if ended then t.continues else t.begins

/-- `InPlace a ts b`: each token fits where it stands, if a value has just ended before the sequence
exactly for `a` and has ended behind it exactly for `b`. -/
def InPlace : Bool → List Token → Bool → Prop
  | a, [], b => a = b
  | a, t :: ts, b => t.fits a ∧ InPlace t.ends ts b

theorem inPlace_append {a b : Bool} :
    InPlace a (ts ++ us) b ↔ ∃ m, InPlace a ts m ∧ InPlace m us b := by
  induction ts generalizing a with
  | nil => simp [InPlace]
  | cons t ts ih => simp [InPlace, ih, and_assoc]

theorem Derives.inPlace (h : Derives k ts e) : InPlace false ts true := by
  induction h with
  | number | truth => exact ⟨rfl, rfl⟩
  | nested _ ih => exact ⟨rfl, inPlace_append.2 ⟨true, ih, rfl, rfl⟩⟩
  | signed hs _ ih => exact ⟨hs, ih⟩
  | tighter _ _ ih => exact ih
  | chained hop _ _ _ _ ihl ihr | compared hop _ _ _ ihl ihr =>
    exact inPlace_append.2 ⟨true, ihl, decide_eq_true hop, ihr⟩

theorem Derives.ne_nil (h : Derives k ts e) : ts ≠ [] := by
  rintro rfl
  exact Bool.false_ne_true h.inPlace

/-- Follows the parentheses that are open, the innermost first, each with whether a comparison has
been met in it since it was opened or since the last logical operator. A second comparison, or a
closing parenthesis too many, has no place. -/
def Token.track : List Bool → Token → Option (List Bool)
  | st, .opening => some (false :: st)
  | _ :: st, .closing => some st
  | b :: st, .op o =>
    if o.level < 2 then some (false :: st)
    else if o.level = 2 then (if b then none else some (true :: st))
    else some (b :: st)
  | st, .number _ | st, .truth _ => some st
  | [], .closing | [], .op _ => none

theorem Derives.tracked (h : Derives k ts e) (st : List Bool) :
    (3 ≤ k → ∀ b, ts.foldlM Token.track (b :: st) = some (b :: st)) ∧
      ∃ b, ts.foldlM Token.track (false :: st) = some (b :: st) := by
  induction h generalizing st with
  | number | truth => exact ⟨fun _ _ => rfl, false, rfl⟩
  | @nested ts e _ ih =>
    have hpar : ∀ b, (Token.opening :: (ts ++ [.closing])).foldlM Token.track (b :: st) =
        some (b :: st) := by
      intro b
      obtain ⟨-, b', hb⟩ := ih (b :: st)
      have hopen : Token.track (b :: st) .opening = some (false :: b :: st) := rfl
      have hclose : Token.track (b' :: b :: st) .closing = some (b :: st) := rfl
      simp [List.foldlM_cons, List.foldlM_append, hopen, hb, hclose]
    exact ⟨fun _ => hpar, false, hpar false⟩
  | @signed op ts e hs _ ih =>
    have hsign : ∀ b, (Token.op op :: ts).foldlM Token.track (b :: st) = some (b :: st) := by
      intro b
      have hop : Token.track (b :: st) (.op op) = some (b :: st) := by
        cases op <;> first | rfl | cases hs
      simpa [List.foldlM_cons, hop] using (ih st).1 (by omega) b
    exact ⟨fun _ => hsign, false, hsign false⟩
  | tighter hk _ ih => exact ⟨fun h3 => (ih st).1 (by omega), (ih st).2⟩
  | @chained k op ts us l r hop hk h2 _ _ ihl ihr =>
    by_cases h3 : 3 ≤ k
    · have hchain : ∀ b, (ts ++ .op op :: us).foldlM Token.track (b :: st) = some (b :: st) := by
        intro b
        have hkeep : Token.track (b :: st) (.op op) = some (b :: st) := by
          rw [Token.track, if_neg (by omega), if_neg (by omega)]
        rw [List.foldlM_append, (ihl st).1 h3 b]
        simpa [List.foldlM_cons, hkeep] using (ihr st).1 (by omega) b
      exact ⟨fun _ => hchain, false, hchain false⟩
    · refine ⟨fun h => absurd h h3, ?_⟩
      -- a logical operator lets a comparison follow again
      obtain ⟨-, b, hb⟩ := ihl st
      obtain ⟨-, b', hb'⟩ := ihr st
      have hreset : Token.track (b :: st) (.op op) = some (false :: st) := by
        rw [Token.track, if_pos (by omega)]
      exact ⟨b', by simp [List.foldlM_append, List.foldlM_cons, hb, hreset, hb']⟩
  | @compared op ts us l r hop hk _ _ ihl ihr =>
    refine ⟨fun h => absurd h (by omega), true, ?_⟩
    have hset : Token.track (false :: st) (.op op) = some (true :: st) := by
      rw [Token.track, if_neg (by omega), if_pos hk]
      rfl
    have hl := (ihl st).1 (Nat.le_refl 3) false
    have hr := (ihr st).1 (Nat.le_refl 3) true
    simp [List.foldlM_append, List.foldlM_cons, hl, hset, hr]

end MeshLimiter.Template
