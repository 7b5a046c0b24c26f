import MeshLimiter.Proofs.Template.Grammar
/-!
# The evaluator and its grammar

The six functions of the evaluator are the levels of the grammar: four of them read chains, one a
single comparison, one a run of signs.

* **`level_eq_chain`**: all chains have one form, with the operators of their level.
* **`expression_sound`**: what the evaluator takes off the front of a sequence is derived by the
  grammar, for a tree with the value that it returns.
* **`Derives.reads`**: what the grammar derives is read as far as it goes, with the value of its
  tree or the first fault in it.
* **`descend_eq`, `chainFrom_descend`**: the bounds on the nesting and on the length of a chain
  never end an evaluation.
-/

namespace MeshLimiter.Template

variable {α β : Type} {k : Nat} {op : Op} {ts us : List Token} {e l r : Expr}
  {nested operand : Level}

/-- A sequence of two succeeds if both do. -/
theorem bind_eq_ok {ε : Type} {p : Except ε α} {f : α → Except ε β} {y : β} :
    p >>= f = .ok y ↔ ∃ x, p = .ok x ∧ f x = .ok y := by
  cases p with
  | error => simp [bind, Except.bind]
  | ok => simp [bind, Except.bind]

@[simp] theorem ok_bind {x : α} {f : α → Except Fault β} : (Except.ok x >>= f) = f x := rfl

theorem error_bind {e : Fault} {f : α → Except Fault β} : (Except.error e >>= f) = .error e := rfl

/-! ## The levels

Each level but two reads an operand of the next tighter level, and goes on as long as an operator of
its own follows. -/

/-- The function that reads a level of the grammar. -/
def level (nested : Level) : Nat → Level
  | 0 => disjunction nested
  | 1 => conjunction nested
  | 2 => comparison nested
  | 3 => sum nested
  | 4 => product nested
  | 5 => unary nested
  | _ => primary nested

/-- What a chain does at one of its operators, with the value so far. -/
def Op.step (op : Op) (operand : Level) (v : Value) : Level := fun ts => do
  let a ← op.accept v
  let (b, rest) ← operand ts
  let x ← op.ofTwo a b
  return (x, rest)

/-- The steps of the chain of a level. -/
def stepOn (nested : Level) (k : Nat) (op : Op) : Option (Value → Level) :=
  if op.level = k then some (op.step (level nested (k + 1))) else none

/-- An operator of arithmetic needs a number on either side. -/
theorem ofTwo_of_arithmetic {compute : Float → Float → Except Fault Float}
    (h : op.arithmetic = some compute) (a : Float) (b : Value) :
    op.ofTwo (.number a) b = b.asNumber >>= fun y => compute a y >>= fun x => .ok (.number x) := by
  cases b with
  | truth => cases op <;> cases h <;> rfl
  | number y =>
    cases op with
    | add | sub | mul => cases h; rfl
    | div | rem =>
      cases h
      simp only [Op.ofTwo, Value.asNumber, bind, Except.bind]
      split <;> simp [*]
    | _ => cases h

/-- The steps of sums and products are those of their operators. -/
theorem numberStep_eq_step {compute : Float → Float → Except Fault Float}
    (h : op.arithmetic = some compute) : numberStep operand compute = op.step operand := by
  have hlevel : ¬ op.level < 3 := by cases op <;> simp_all [Op.arithmetic, Op.level]
  funext v ts
  cases v with
  | truth b => simp [numberStep, Op.step, Op.accept, Value.asNumber, hlevel, bind, Except.bind]
  | number a =>
    refine congrArg (operand ts >>= ·) (funext fun q => ?_)
    simp only [ofTwo_of_arithmetic h, bind_assoc]
    rfl

/-- So are those of the truth operators: both sides are read, though one may decide. -/
theorem truthStep_eq_step {decisive : Bool} (h : op = .or ∧ decisive = true ∨
    op = .and ∧ decisive = false) : truthStep operand decisive = op.step operand := by
  have hlevel : op.level < 3 := by rcases h with ⟨rfl, -⟩ | ⟨rfl, -⟩ <;> decide
  have htwo : ∀ a b : Value, op.ofTwo a b = (joinTruths decisive a b).map .truth := by
    intro a b
    rcases h with ⟨rfl, rfl⟩ | ⟨rfl, rfl⟩ <;> rcases a with a | _ | _ <;> cases b <;> rfl
  funext v ts
  have haccept : op.accept v = .ok v := by cases v <;> simp [Op.accept, hlevel]
  simp only [truthStep, Op.step, haccept, htwo, bind, Except.bind]
  cases operand ts with
  | error f => rfl
  | ok q =>
    simp only []
    cases joinTruths decisive v q.1 <;> rfl

/-- The chains have one form: the operands are of the next level, the operators of their own. -/
theorem level_eq_chain (hk : k < 5) (h2 : k ≠ 2) :
    level nested k = chain (level nested (k + 1)) (stepOn nested k) := by
  have hproduct : level nested 4 = chain (level nested 5) (stepOn nested 4) := by
    refine congrArg (chain _) (funext fun op => ?_)
    cases op <;> first | rfl | exact congrArg some (numberStep_eq_step rfl)
  have hsum : level nested 3 = chain (level nested 4) (stepOn nested 3) := by
    refine congrArg (chain _) (funext fun op => ?_)
    cases op <;> first | rfl | exact congrArg some (numberStep_eq_step rfl)
  have hand : level nested 1 = chain (level nested 2) (stepOn nested 1) := by
    refine congrArg (chain _) (funext fun op => ?_)
    cases op <;> first | rfl | exact congrArg some (truthStep_eq_step (.inr ⟨rfl, rfl⟩))
  have hor : level nested 0 = chain (level nested 1) (stepOn nested 0) := by
    refine congrArg (chain _) (funext fun op => ?_)
    cases op <;> first | rfl | exact congrArg some (truthStep_eq_step (.inl ⟨rfl, rfl⟩))
  -- the levels that are chains; comparisons are not
  match k, hk, h2 with
  | 0, _, _ => exact hor
  | 1, _, _ => exact hand
  | 3, _, _ => exact hsum
  | 4, _, _ => exact hproduct

/-- A chain reads its first operand, and goes on from there. -/
theorem chain_eq (operand : Level) (step : Op → Option (Value → Level)) (ts : List Token) :
    chain operand step ts = operand ts >>= fun q => chainFrom step q.2.length q.1 q.2 := by
  rw [chain]
  cases operand ts <;> rfl

/-- It goes on at an operator of its level. -/
theorem chainFrom_op {n : Nat} {v : Value} (h : op.level = k) :
    chainFrom (stepOn nested k) (n + 1) v (.op op :: ts) =
      op.step (level nested (k + 1)) v ts >>= fun q => chainFrom (stepOn nested k) n q.1 q.2 := by
  rw [chainFrom, stepOn, if_pos h]
  simp only []
  cases op.step (level nested (k + 1)) v ts <;> rfl

/-- It ends at anything else. -/
theorem chainFrom_of_level_ne {n : Nat} {v : Value}
    (h : ∀ op us, ts = .op op :: us → op.level ≠ k) :
    chainFrom (stepOn nested k) n v ts = .ok (v, ts) := by
  cases n with
  | zero => rfl
  | succ n =>
    match ts with
    | .op op :: us => rw [chainFrom, stepOn, if_neg (h op us rfl)]
    | [] | .number _ :: _ | .truth _ :: _ | .opening :: _ | .closing :: _ => rfl

/-- The comparisons are the operators of the second level. -/
theorem compareNumbers?_eq_none_iff : op.compareNumbers? = none ↔ op.level ≠ 2 := by
  cases op <;> simp [Op.compareNumbers?, Op.level]

theorem compareValues_eq_ofTwo {holds : Float → Float → Bool} (h : op.compareNumbers? = some holds)
    (v w : Value) : op.compareValues holds v w >>= (fun b => .ok (.truth b)) = op.ofTwo v w := by
  cases v <;> cases w <;> cases op <;> cases h <;> rfl

/-- Whether another comparison follows is read off one token. -/
theorem comparisonFollows_op : comparisonFollows (.op op :: ts) = decide (op.level = 2) := by
  cases op <;> rfl

theorem comparisonFollows_eq_false (h : ∀ op us, ts = .op op :: us → op.level ≠ 2) :
    comparisonFollows ts = false := by
  match ts with
  | .op op :: us => rw [comparisonFollows_op, decide_eq_false (h op us rfl)]
  | [] | .number _ :: _ | .truth _ :: _ | .opening :: _ | .closing :: _ => rfl

/-- A comparison level reads a sum and, if a comparison operator follows, one more. -/
theorem comparison_eq (nested : Level) (ts : List Token) :
    level nested 2 ts = level nested 3 ts >>= fun q => match q.2 with
      | .op op :: us =>
        if op.level = 2 then
          level nested 3 us >>= fun p => op.ofTwo q.1 p.1 >>= fun x =>
            if comparisonFollows p.2 then .error (.parse .chainedComparison) else .ok (x, p.2)
        else .ok q
      | _ => .ok q := by
  refine congrArg (sum nested ts >>= ·) (funext fun q => ?_)
  obtain ⟨v, rest⟩ := q
  match rest with
  | .op op :: us =>
    cases hop : op.compareNumbers? with
    | none => simp [hop, if_neg (compareNumbers?_eq_none_iff.1 hop), pure, Except.pure]
    | some holds =>
      have hlevel : op.level = 2 := by cases op <;> first | rfl | cases hop
      simp only [hop, hlevel, if_true]
      refine congrArg (sum nested us >>= ·) (funext fun p => ?_)
      -- the values are compared before it is seen that another comparison follows
      simp only [← compareValues_eq_ofTwo hop, bind_assoc]
      refine congrArg (op.compareValues holds v p.1 >>= ·) (funext fun b => ?_)
      cases comparisonFollows p.2 <;> rfl
  | [] | .number _ :: _ | .truth _ :: _ | .opening :: _ | .closing :: _ => rfl

/-! ## Soundness

The readers are followed token by token. What each takes off the front is a tree of its level. -/

/-- Whatever `read` takes off the front of a sequence is a tree on level `k`, with its value. -/
def Sound (k : Nat) (read : Level) : Prop :=
  ∀ ⦃ts v rest⦄, read ts = .ok (v, rest) →
    ∃ us e, ts = us ++ rest ∧ Derives k us e ∧ e.value = .ok v

/-- Literals and parentheses. -/
theorem sound_primary (h : Sound 0 nested) : Sound 6 (primary nested) := by
  intro ts v rest hr
  match ts with
  | .number x :: us => cases hr; exact ⟨[_], _, rfl, .number x, rfl⟩
  | .truth b :: us => cases hr; exact ⟨[_], _, rfl, .truth b, rfl⟩
  | .opening :: us =>
    obtain ⟨⟨w, after⟩, hn, hclose⟩ := bind_eq_ok.1 hr
    obtain ⟨us, e, rfl, hd, hv⟩ := h hn
    match after with
    | .closing :: after =>
      cases hclose
      exact ⟨_, e, by simp, .nested hd, hv⟩
    | [] | .number _ :: _ | .truth _ :: _ | .op _ :: _ | .opening :: _ => cases hclose
  | [] | .closing :: _ | .op _ :: _ => cases hr

theorem unary_sign (hs : op.isSign) :
    unary nested (.op op :: ts) = unary nested ts >>= fun q =>
      op.ofOne q.1 >>= fun x => .ok (x, q.2) := by
  cases op <;> cases hs <;> refine congrArg (unary nested ts >>= ·) (funext fun ⟨v, rest⟩ => ?_) <;>
    cases v <;> rfl

theorem unary_of_no_sign (h : ∀ op us, ts = .op op :: us → op.isSign = false) :
    unary nested ts = primary nested ts := by
  match ts with
  | .op op :: us => cases op <;> first | rfl | cases h _ us rfl
  | [] | .number _ :: _ | .truth _ :: _ | .opening :: _ | .closing :: _ => rfl

/-- Runs of signs. -/
theorem sound_unary (h : Sound 0 nested) : Sound 5 (unary nested) := by
  intro ts
  induction ts with
  | nil => exact nofun
  | cons t ts ih =>
    intro v rest hr
    by_cases hs : ∃ op, t = .op op ∧ op.isSign = true
    · -- a sign, and the rest of the run
      obtain ⟨op, rfl, hs⟩ := hs
      rw [unary_sign hs] at hr
      obtain ⟨⟨w, after⟩, hu, hr⟩ := bind_eq_ok.1 hr
      obtain ⟨x, ho, hr⟩ := bind_eq_ok.1 hr
      cases hr
      obtain ⟨us, e, rfl, hd, hv⟩ := ih hu
      exact ⟨_, _, rfl, .signed hs hd, bind_eq_ok.2 ⟨w, hv, ho⟩⟩
    · rw [unary_of_no_sign fun op us heq => by simp_all] at hr
      obtain ⟨us, e, heq, hd, hv⟩ := sound_primary h hr
      exact ⟨us, e, heq, .tighter (by omega) hd, hv⟩

/-- The value so far of a chain is that of a tree for the tokens so far, which the chain makes the
left operand of the next operator. -/
theorem sound_chainFrom (hk : k < 5) (h2 : k ≠ 2) (h : Sound (k + 1) (level nested (k + 1)))
    {n : Nat} {v w : Value} {rest : List Token} (hd : Derives k us e) (hv : e.value = .ok v)
    (hr : chainFrom (stepOn nested k) n v ts = .ok (w, rest)) :
    ∃ us' e', us ++ ts = us' ++ rest ∧ Derives k us' e' ∧ e'.value = .ok w := by
  induction n generalizing v ts us e with
  | zero => cases hr; exact ⟨us, e, rfl, hd, hv⟩
  | succ n ih =>
    by_cases hop : ∃ op ts', ts = .op op :: ts' ∧ op.level = k
    · -- what was read so far becomes the left side of the operator
      obtain ⟨op, ts', rfl, hop⟩ := hop
      rw [chainFrom_op hop] at hr
      obtain ⟨⟨x, after⟩, hstep, hgo⟩ := bind_eq_ok.1 hr
      obtain ⟨a, ha, hstep⟩ := bind_eq_ok.1 hstep
      obtain ⟨⟨b, after⟩, hb, hstep⟩ := bind_eq_ok.1 hstep
      obtain ⟨x, hx, hstep⟩ := bind_eq_ok.1 hstep
      cases hstep
      obtain ⟨us', r, rfl, hdr, hvr⟩ := h hb
      have hjoined : (Expr.joined op (hop ▸ hk) e r).value = .ok x :=
        bind_eq_ok.2 ⟨v, hv, bind_eq_ok.2 ⟨a, ha, bind_eq_ok.2 ⟨b, hvr, hx⟩⟩⟩
      simpa using ih (.chained _ hop h2 hd hdr) hjoined hgo
    · rw [chainFrom_of_level_ne fun op us heq hop' => hop ⟨op, us, heq, hop'⟩] at hr
      cases hr
      exact ⟨us, e, rfl, hd, hv⟩

/-- Chains, by their steps. -/
theorem sound_chain (hk : k < 5) (h2 : k ≠ 2) (h : Sound (k + 1) (level nested (k + 1))) :
    Sound k (level nested k) := by
  intro ts v rest hr
  rw [level_eq_chain hk h2, chain_eq] at hr
  obtain ⟨⟨w, after⟩, hl, hgo⟩ := bind_eq_ok.1 hr
  obtain ⟨us, e, rfl, hd, hv⟩ := h hl
  exact sound_chainFrom hk h2 h (.tighter (by omega) hd) hv hgo

/-- Comparisons, of which there is at most one. -/
theorem sound_comparison (h : Sound 3 (level nested 3)) : Sound 2 (level nested 2) := by
  intro ts v rest hr
  rw [comparison_eq] at hr
  obtain ⟨⟨w, after⟩, hl, hgo⟩ := bind_eq_ok.1 hr
  obtain ⟨us, l, rfl, hdl, hvl⟩ := h hl
  have hloose : Derives 2 us l := .tighter (by omega) hdl
  match after with
  | .op op :: ts' =>
    by_cases hop : op.level = 2
    · simp only [hop, if_true] at hgo
      obtain ⟨⟨b, after⟩, hb, hgo⟩ := bind_eq_ok.1 hgo
      obtain ⟨x, hx, hend⟩ := bind_eq_ok.1 hgo
      obtain ⟨us', r, rfl, hdr, hvr⟩ := h hb
      -- either kind of value may stand on the left of a comparison
      have haccept : op.accept w = .ok w := by cases w <;> simp [Op.accept, hop]
      split at hend
      · cases hend
      · cases hend
        refine ⟨_, _, by simp, .compared (by omega) hop hdl hdr, ?_⟩
        exact bind_eq_ok.2 ⟨w, hvl, bind_eq_ok.2 ⟨w, haccept, bind_eq_ok.2 ⟨b, hvr, hx⟩⟩⟩
    · simp only [hop, if_false] at hgo
      cases hgo
      exact ⟨us, l, rfl, hloose, hvl⟩
  | [] | .number _ :: _ | .truth _ :: _ | .opening :: _ | .closing :: _ =>
    cases hgo
    exact ⟨us, l, rfl, hloose, hvl⟩

/-- So every level is sound if what stands in parentheses is. -/
theorem sound_level (h : Sound 0 nested) (hk : k ≤ 6) : Sound k (level nested k) := by
  have s5 : Sound 5 (level nested 5) := sound_unary h
  have s4 := sound_chain (k := 4) (by omega) (by omega) s5
  have s3 := sound_chain (k := 3) (by omega) (by omega) s4
  have s2 := sound_comparison s3
  have s1 := sound_chain (k := 1) (by omega) (by omega) s2
  match k, hk with
  | 0, _ => exact sound_chain (by omega) (by omega) s1
  | 1, _ => exact s1
  | 2, _ => exact s2
  | 3, _ => exact s3
  | 4, _ => exact s4
  | 5, _ => exact s5
  | 6, _ => exact sound_primary h

/-- What the evaluator takes off the front of a sequence is derived by the grammar, for a tree with
the value that it returns. -/
theorem expression_sound (d : Nat) : Sound 0 (expression d) := by
  induction d with
  | zero => exact nofun
  | succ d ih => exact sound_level ih (Nat.zero_le 6)

/-! ## Completeness

The derivation is followed. Each tree is read as far as it goes, provided that what follows does not
go on with an operator of its level or of a tighter one. -/

/-- `Below k ts`: the sequence does not go on with an operator of level `k` or of a tighter one. -/
def Below (k : Nat) (ts : List Token) : Prop :=
  ∀ op us, ts = .op op :: us → op.level < k

/-- What does not go on on a tighter level does not on a looser one. -/
theorem Below.mono {j : Nat} (h : Below j ts) (hjk : j ≤ k) : Below k ts :=
  fun op us heq => Nat.lt_of_lt_of_le (h op us heq) hjk

@[simp] theorem below_nil : Below k [] :=
  fun _ _ heq => nomatch heq

@[simp] theorem below_closing : Below k (.closing :: ts) :=
  fun _ _ heq => nomatch heq

theorem below_op (h : op.level < k) : Below k (.op op :: ts) := by
  rintro _ _ ⟨⟩
  exact h

/-- How a level goes on behind a value: only a chain does. -/
def goOn (nested : Level) (k n : Nat) (v : Value) (rest : List Token) :
    Except Fault (Value × List Token) :=
  if k < 5 ∧ k ≠ 2 then chainFrom (stepOn nested k) n v rest else .ok (v, rest)

/-- There is nothing to go on with. -/
theorem goOn_of_below {n : Nat} {v : Value} {rest : List Token} (hb : k < 5 → Below k rest) :
    goOn nested k n v rest = .ok (v, rest) := by
  rw [goOn]
  split
  · next hk => exact chainFrom_of_level_ne fun op us heq => Nat.ne_of_lt (hb hk.1 op us heq)
  · rfl

/-- `Reads nested k ts rest e`: of `ts ++ rest` the level `k` reads `ts` as the tree `e` and then
goes on with `rest`. -/
def Reads (nested : Level) (k : Nat) (ts rest : List Token) (e : Expr) : Prop :=
  ∃ n, rest.length ≤ n ∧
    level nested k (ts ++ rest) = e.value >>= fun v => goOn nested k n v rest

/-- To read a tree to its end is to have its value, and the rest. -/
theorem reads_iff {rest : List Token} (hb : k < 5 → Below k rest) : Reads nested k ts rest e ↔
    level nested k (ts ++ rest) = e.value >>= fun v => .ok (v, rest) := by
  simp only [Reads, goOn_of_below hb]
  exact ⟨fun ⟨_, _, h⟩ => h, fun h => ⟨rest.length, Nat.le_refl _, h⟩⟩

/-- Without a comparison the second level is the third. -/
theorem level_two_of_below {x : Except Fault Value} {rest : List Token} (hb : Below 2 rest)
    (h : level nested 3 ts = x >>= fun v => .ok (v, rest)) :
    level nested 2 ts = x >>= fun v => .ok (v, rest) := by
  rw [comparison_eq, h, bind_assoc]
  refine congrArg (x >>= ·) (funext fun v => ?_)
  match rest with
  | .op op :: us => exact if_neg (Nat.ne_of_lt (hb op us rfl))
  | [] | .number _ :: _ | .truth _ :: _ | .opening :: _ | .closing :: _ => rfl

/-- A tree that a tighter level reads is the first operand of the level above. -/
theorem Reads.loosen {rest : List Token} (h : Reads nested (k + 1) ts rest e) (hk : k < 6)
    (hb : Below (k + 1) rest) (h2 : k = 2 → Below 2 rest)
    (h5 : k = 5 → ∀ op us, ts ++ rest ≠ .op op :: us) : Reads nested k ts rest e := by
  rw [reads_iff fun _ => hb] at h
  by_cases hchain : k < 5 ∧ k ≠ 2
  · refine ⟨rest.length, Nat.le_refl _, ?_⟩
    rw [level_eq_chain hchain.1 hchain.2, chain_eq, h, bind_assoc]
    refine congrArg (e.value >>= ·) (funext fun v => ?_)
    rw [goOn, if_pos hchain]
    rfl
  · obtain rfl | rfl : k = 2 ∨ k = 5 := by omega
    · exact (reads_iff fun _ => h2 rfl).2 (level_two_of_below (h2 rfl) h)
    · exact (reads_iff (by omega)).2
        ((unary_of_no_sign fun op us heq => absurd heq (h5 rfl op us)).trans h)

/-- One operator of a chain, with its right operand. -/
theorem Reads.chained {rest : List Token} (hop : op.level < 5) (hk : op.level = k) (h2 : k ≠ 2)
    (hl : Reads nested k ts (.op op :: (us ++ rest)) l) (hr : Reads nested (k + 1) us rest r)
    (hb : Below (k + 1) rest) :
    Reads nested k (ts ++ .op op :: us) rest (.joined op hop l r) := by
  obtain ⟨n, hn, hl⟩ := hl
  rw [reads_iff fun _ => hb] at hr
  obtain _ | n := n
  · simp at hn
  refine ⟨n, by simp at hn; omega, ?_⟩
  rw [List.append_assoc, List.cons_append, hl, Expr.value]
  have hchain : k < 5 ∧ k ≠ 2 := ⟨by omega, h2⟩
  simp only [goOn, if_pos hchain, chainFrom_op hk, Op.step, hr, bind_assoc]
  rfl

/-- A comparison is read once both of its sides are. -/
theorem Reads.compared {rest : List Token} (hop : op.level < 5) (hk : op.level = 2)
    (hl : Reads nested 3 ts (.op op :: (us ++ rest)) l) (hr : Reads nested 3 us rest r)
    (hb : Below 2 rest) : Reads nested 2 (ts ++ .op op :: us) rest (.joined op hop l r) := by
  rw [reads_iff fun _ => below_op (by omega)] at hl
  rw [reads_iff fun _ => hb.mono (by omega)] at hr
  rw [reads_iff fun _ => hb, List.append_assoc, List.cons_append, comparison_eq, hl, Expr.value]
  have haccept : ∀ v, op.accept v = .ok v := by rintro (_ | _) <;> simp [Op.accept, hk]
  have hlast : comparisonFollows rest = false :=
    comparisonFollows_eq_false fun o os heq => Nat.ne_of_lt (hb o os heq)
  simp only [bind_assoc, ok_bind, haccept]
  refine congrArg (l.value >>= ·) (funext fun v => ?_)
  rw [if_pos hk, hr]
  simp only [bind_assoc, ok_bind, hlast]
  rfl

/-- No literal and no parenthesis is an operator. -/
theorem Derives.ne_op_of_primary (h : Derives 6 ts e) : ts ≠ .op op :: us := by
  cases h with
  | number | truth | nested => exact nofun
  | tighter hk => exact absurd hk (by decide)
  | chained hop hk => omega

/-- The end of what stands in parentheses. -/
def closed (q : Value × List Token) : Except Fault (Value × List Token) :=
  match q.2 with
  | .closing :: after => .ok (q.1, after)
  | _ => .error (.parse .missingClose)

/-- What the grammar derives is read as far as it goes, with the value of its tree or the fault that
the tree has. -/
theorem Derives.reads (h : Derives k ts e) : ∀ {d : Nat} {rest : List Token}, ts.length ≤ d + 1 →
    Below (k + 1) rest → (k = 2 → Below 2 rest) → Reads (expression d) k ts rest e := by
  induction h with
  | number | truth => exact fun _ _ _ => (reads_iff (by omega)).2 rfl
  | @nested ts e _ ih =>
    -- a parenthesis takes one from the bound on the nesting
    intro d rest hd _ _
    simp only [List.length_append, List.length_cons, List.length_nil] at hd
    obtain ⟨d, rfl⟩ : ∃ d', d = d' + 1 := ⟨d - 1, by omega⟩
    have hin : Reads (expression d) 0 ts (.closing :: rest) e := ih (by omega) below_closing nofun
    rw [reads_iff fun _ => below_closing] at hin
    refine (reads_iff (by omega)).2 ?_
    calc level (expression (d + 1)) 6 (.opening :: (ts ++ [.closing]) ++ rest)
        = level (expression d) 0 (ts ++ .closing :: rest) >>= closed := by simp; rfl
      _ = e.value >>= fun v => .ok (v, rest) := by rw [hin, bind_assoc]; rfl
  | @signed op ts e hs _ ih =>
    intro d rest hd hb _
    have hin : Reads (expression d) 5 ts rest e := ih (Nat.le_of_succ_le hd) hb (by omega)
    rw [reads_iff (by omega)] at hin ⊢
    calc level (expression d) 5 (.op op :: ts ++ rest)
        = unary (expression d) (ts ++ rest) >>= fun q => op.ofOne q.1 >>= fun x => .ok (x, q.2) :=
          unary_sign hs
      _ = (Expr.signed op hs e).value >>= fun v => .ok (v, rest) := by
          rw [show unary (expression d) (ts ++ rest) = _ from hin, Expr.value]
          simp only [bind_assoc, ok_bind]
  | @tighter k ts e hk hd ih =>
    intro d rest hlen hb h2
    refine (ih hlen (hb.mono (by omega)) fun h => hb.mono (by omega)).loosen hk hb h2 ?_
    rintro rfl op us heq
    cases ts with
    | nil => exact hd.ne_nil rfl
    | cons t ts => exact hd.ne_op_of_primary (congrArg (· :: ts) (List.cons.inj heq).1)
  | chained hop hk h2 _ _ ihl ihr =>
    -- the left side is itself a chain, which goes on with this operator
    intro d rest hd hb _
    simp only [List.length_append, List.length_cons] at hd
    have hr := @ihr d rest (by omega) (hb.mono (by omega)) fun h => hb.mono (by omega)
    exact .chained hop hk h2 (ihl (by omega) (below_op (by omega)) (absurd · h2)) hr hb
  | compared hop hk _ _ ihl ihr =>
    intro d rest hd _ hb
    simp only [List.length_append, List.length_cons] at hd
    have hr := @ihr d rest (by omega) ((hb rfl).mono (by omega)) (by omega)
    exact .compared hop hk (ihl (by omega) (below_op (by omega)) (by omega)) hr (hb rfl)

/-- The whole sequence is read, so there is no rest. -/
theorem evaluateTokens_of_derives (h : Derives 0 ts e) : evaluateTokens ts = e.value := by
  obtain ⟨d, hd⟩ : ∃ d, ts.length = d + 1 :=
    ⟨ts.length - 1, by have := List.length_pos_iff.2 h.ne_nil; omega⟩
  have hread : Reads (expression d) 0 ts [] e := h.reads (by omega) below_nil nofun
  rw [reads_iff fun _ => below_nil, List.append_nil] at hread
  rw [evaluateTokens, hd]
  change level (expression d) 0 ts >>= _ = _
  rw [hread, bind_assoc]
  cases e.value <;> rfl

/-- An evaluation that succeeds has left no rest. -/
theorem derives_of_evaluateTokens {v : Value} (h : evaluateTokens ts = .ok v) :
    ∃ e, Derives 0 ts e ∧ e.value = .ok v := by
  obtain ⟨⟨w, rest⟩, hr, h⟩ := bind_eq_ok.1 h
  obtain ⟨us, e, heq, hd, hv⟩ := expression_sound _ hr
  cases rest with
  | nil =>
    cases h
    exact ⟨e, by rwa [heq, List.append_nil], hv⟩
  | cons => cases h

/-! ## The bounds on nesting and on the length of a chain

What is read gets shorter, so any bound that is not below the length of the text is as good as any
other. -/

/-- A reader takes tokens off the front. -/
theorem Sound.length_le {read : Level} {v : Value} {rest : List Token} (h : Sound k read)
    (hr : read ts = .ok (v, rest)) : rest.length ≤ ts.length := by
  obtain ⟨us, e, rfl, -, -⟩ := h hr
  simp

/-- A step depends on how its operand is read, and on nothing else. -/
theorem Op.step_congr {operand' : Level} {v : Value} (h : operand ts = operand' ts) :
    op.step operand v ts = op.step operand' v ts := by
  rw [Op.step, Op.step, h]

theorem length_le_of_step {v w : Value} {rest : List Token} (hs : Sound k operand)
    (h : op.step operand v ts = .ok (w, rest)) : rest.length ≤ ts.length := by
  obtain ⟨a, -, h⟩ := bind_eq_ok.1 h
  obtain ⟨⟨b, after⟩, hb, h⟩ := bind_eq_ok.1 h
  obtain ⟨x, -, h⟩ := bind_eq_ok.1 h
  cases h
  exact hs.length_le hb

/-- Two chains whose operands agree on what is left agree, with as many steps as there are
tokens. -/
theorem chainFrom_congr {nested' : Level} {n m : Nat} {v : Value}
    (hs : Sound (k + 1) (level nested (k + 1)))
    (h : ∀ us, us.length < ts.length → level nested (k + 1) us = level nested' (k + 1) us)
    (hn : ts.length ≤ n) (hm : ts.length ≤ m) :
    chainFrom (stepOn nested k) n v ts = chainFrom (stepOn nested' k) m v ts := by
  induction n generalizing m v ts with
  | zero =>
    have hnil : ts = [] := List.length_eq_zero_iff.1 (by omega)
    subst hnil
    cases m <;> rfl
  | succ n ih =>
    by_cases hop : ∃ op us, ts = .op op :: us ∧ op.level = k
    · -- the operator has been taken off, so what is left is shorter
      obtain ⟨op, us, rfl, hop⟩ := hop
      obtain ⟨m, rfl⟩ : ∃ m', m = m' + 1 := ⟨m - 1, by simp at hm; omega⟩
      simp only [List.length_cons, Nat.add_le_add_iff_right] at hn hm
      rw [chainFrom_op hop, chainFrom_op hop, ← Op.step_congr (h us (by simp))]
      cases hstep : op.step (level nested (k + 1)) v us with
      | error f => rfl
      | ok q =>
        have hq := length_le_of_step hs hstep
        exact ih (fun us' hlt => h us' (by simp; omega)) (by omega) (by omega)
    · have hne : ∀ op us, ts = .op op :: us → op.level ≠ k := fun op us heq hop' =>
        hop ⟨op, us, heq, hop'⟩
      rw [chainFrom_of_level_ne hne, chainFrom_of_level_ne hne]

/-- `Agree n p q`: two functions agree on sequences of at most `n` tokens. -/
def Agree (n : Nat) (p q : Level) : Prop :=
  ∀ ts, ts.length ≤ n → p ts = q ts

variable {n : Nat} {nested' : Level}

/-- Signs take tokens off, too. -/
theorem agree_unary (h : ∀ ts, ts.length < n → nested ts = nested' ts) :
    Agree n (unary nested) (unary nested') := by
  intro ts hn
  induction ts with
  | nil => rfl
  | cons t us ih =>
    have hlt : us.length < n := hn
    match t with
    | .opening => exact congrArg (· >>= _) (h us hlt)
    | .op .not | .op .sub | .op .add => exact congrArg (· >>= _) (ih (Nat.le_of_lt hlt))
    | .op .or | .op .and | .op .eq | .op .ne | .op .le | .op .ge | .op .lt | .op .gt | .op .mul
    | .op .div | .op .rem | .number _ | .truth _ | .closing => rfl

/-- Chains agree if their operands do. -/
theorem agree_chain (hk : k < 5) (h2 : k ≠ 2) (hs : Sound (k + 1) (level nested (k + 1)))
    (h : Agree n (level nested (k + 1)) (level nested' (k + 1))) :
    Agree n (level nested k) (level nested' k) := by
  intro ts hn
  rw [level_eq_chain hk h2, level_eq_chain hk h2, chain_eq, chain_eq, ← h ts hn]
  cases hl : level nested (k + 1) ts with
  | error f => rfl
  | ok q =>
    have hq := hs.length_le hl
    exact chainFrom_congr hs (fun us hlt => h us (by omega)) (Nat.le_refl _) (Nat.le_refl _)

/-- So do comparisons. -/
theorem agree_comparison (hs : Sound 3 (level nested 3))
    (h : Agree n (level nested 3) (level nested' 3)) :
    Agree n (level nested 2) (level nested' 2) := by
  intro ts hn
  rw [comparison_eq, comparison_eq, ← h ts hn]
  cases hl : level nested 3 ts with
  | error f => rw [error_bind, error_bind]
  | ok q =>
    obtain ⟨v, rest⟩ := q
    have hq := hs.length_le hl
    match rest with
    | .op op :: us => simp only [ok_bind, h us (by simp at hq; omega)]
    | [] | .number _ :: _ | .truth _ :: _ | .opening :: _ | .closing :: _ => simp only [ok_bind]

/-- The loosest level looks at its inside only for sequences that are shorter. -/
theorem agree_disjunction (hs : Sound 0 nested)
    (h : ∀ ts, ts.length < n → nested ts = nested' ts) :
    Agree n (disjunction nested) (disjunction nested') := by
  -- each level by its number, so that none is compared with what it unfolds to
  have a5 : Agree n (level nested 5) (level nested' 5) := agree_unary h
  have a4 : Agree n (level nested 4) (level nested' 4) :=
    agree_chain (by omega) (by omega) (sound_level hs (by omega)) a5
  have a3 : Agree n (level nested 3) (level nested' 3) :=
    agree_chain (by omega) (by omega) (sound_level hs (by omega)) a4
  have a2 : Agree n (level nested 2) (level nested' 2) :=
    agree_comparison (sound_level hs (by omega)) a3
  have a1 : Agree n (level nested 1) (level nested' 1) :=
    agree_chain (by omega) (by omega) (sound_level hs (by omega)) a2
  have a0 : Agree n (level nested 0) (level nested' 0) :=
    agree_chain (by omega) (by omega) (sound_level hs (by omega)) a1
  exact a0

/-- Two bounds, neither below the length, give the same value. -/
theorem expression_congr {d d' : Nat} (hd : ts.length ≤ d) (hd' : ts.length ≤ d') :
    expression d ts = expression d' ts := by
  induction d generalizing d' ts with
  | zero =>
    obtain rfl : ts = [] := List.length_eq_zero_iff.1 (by omega)
    cases d' <;> rfl
  | succ d ih =>
    cases d' with
    | zero =>
      obtain rfl : ts = [] := List.length_eq_zero_iff.1 (by omega)
      rfl
    | succ d' =>
      exact agree_disjunction (n := min (d + 1) (d' + 1)) (expression_sound d)
        (fun us hlt => ih (by omega) (by omega)) ts (by omega)

/-- The evaluator without a bound on nesting: each sequence gets one for its own length. -/
def descend : Level := fun ts => expression ts.length ts

/-- A parenthesis leads back to the evaluator itself, however deep it stands. -/
theorem descend_eq : descend = disjunction descend := by
  funext ts
  calc expression ts.length ts
      = expression (ts.length + 1) ts := expression_congr (Nat.le_refl _) (Nat.le_succ _)
    _ = disjunction descend ts :=
      agree_disjunction (n := ts.length) (expression_sound _)
        (fun us hlt => expression_congr (Nat.le_of_lt hlt) (Nat.le_refl _)) ts (Nat.le_refl _)

/-- A chain goes on for as long as operators of its level follow. -/
theorem chainFrom_descend {v : Value} (hk : k < 5) (hop : op.level = k) :
    chainFrom (stepOn descend k) (ts.length + 1) v (.op op :: ts) =
      op.step (level descend (k + 1)) v ts >>= fun q =>
        chainFrom (stepOn descend k) q.2.length q.1 q.2 := by
  have hs : Sound (k + 1) (level descend (k + 1)) :=
    sound_level (fun us _ _ hr => expression_sound us.length hr) (by omega)
  rw [chainFrom_op hop]
  cases hstep : op.step (level descend (k + 1)) v ts with
  | error f => rfl
  | ok q => exact chainFrom_congr hs (fun _ _ => rfl) (length_le_of_step hs hstep) (Nat.le_refl _)

end MeshLimiter.Template
