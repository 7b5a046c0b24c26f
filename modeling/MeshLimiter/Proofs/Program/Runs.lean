import MeshLimiter.Proofs.Program.Trace
/-!
# Runs of programs

What a program does when its steps are answered one by one, with the trace of its steps and their
replies. Who answers is left open: a relation says which replies a step may get, and which worlds it
may leave behind. A program that waits for a lock, for work or for time finds the same things held
after it.

* **`Program.runs_bind`**: a run of one program after another is a run of each, and the traces
  follow one another;
* **`Attempt.runs_bind`**: the same for programs that may fail, where a failure of the first is the
  failure of both.
-/

namespace MeshLimiter

/-- What only passes change, as far as they look at it again: the filters and named texts in the
cluster, and what is remembered. -/
structure Held where
  filters : Std.ExtTreeMap ResourceId ProxyFilter
  configMaps : Std.ExtTreeMap ResourceId ConfigMap
  store : MaterialStore
  applied : Std.ExtTreeMap ResourceId Applied
  written : Std.ExtTreeMap ResourceId SubsetNames
  interest : IdSet

/-- What a world holds. -/
def World.held (w : World) : Held :=
  { filters := w.cluster.filters
    configMaps := w.cluster.configMaps
    store := w.memory.store
    applied := w.memory.applied
    written := w.memory.written
    interest := w.indexes.interest }

/-- Which replies a step may get in a world, and which worlds it may leave behind. -/
abbrev Answering := World → (a : Step) → a.Reply → World → Prop

namespace Program

/-- Runs of a program from a world: their traces, values and last worlds. -/
inductive Runs (R : Answering) {α : Type} : Program α → World → Trace → α → World → Prop where
  | done (x : α) (w : World) : Runs R (.done x) w [] x w
  | step {a : Step} {next : a.Reply → Program α} {w v w' : World} {r : a.Reply} {tr : Trace} {x : α}
      (answer : R w a r v) (rest : Runs R (next r) v tr x w') :
      Runs R (.ask (.step a) next) w (⟨a, r⟩ :: tr) x w'
  | wait {c : Command} {next : c.Reply → Program α} {u : c.Reply} {w v w' : World} {tr : Trace}
      {x : α} (waits : ∀ a, c ≠ .step a) (held : v.held = w.held)
        (rest : Runs R (next u) v tr x w') :
      Runs R (.ask c next) w tr x w'

variable {R : Answering} {α β : Type} {w w' : World} {tr : Trace}

/-- A program that is done takes no step. -/
theorem runs_done {x y : α} : Runs R (.done x) w tr y w' ↔ tr = [] ∧ y = x ∧ w' = w := by
  constructor
  · intro h
    cases h
    exact ⟨rfl, rfl, rfl⟩
  · rintro ⟨rfl, rfl, rfl⟩
    exact .done _ _

/-- A program that asks takes its step first, and goes on with the reply. -/
theorem runs_ask_step {a : Step} {next : a.Reply → Program α} {x : α} :
    Runs R (.ask (.step a) next) w tr x w' ↔
      ∃ r v rest, R w a r v ∧ tr = ⟨a, r⟩ :: rest ∧ Runs R (next r) v rest x w' := by
  constructor
  · intro h
    cases h with
    | step answer rest => exact ⟨_, _, _, answer, rfl, rest⟩
    | wait waits => exact absurd rfl (waits a)
  · rintro ⟨r, v, rest, answer, rfl, hrest⟩
    exact .step answer hrest

/-- A single step is answered, and that is all. -/
theorem runs_step {a : Step} {r : a.Reply} :
    Runs R (Program.step a) w tr r w' ↔ R w a r w' ∧ tr = [⟨a, r⟩] := by
  constructor
  · intro h
    obtain ⟨r', v, rest, answer, htr, hrest⟩ := runs_ask_step.1 h
    obtain ⟨rfl, rfl, rfl⟩ := runs_done.1 hrest
    exact ⟨answer, htr⟩
  · rintro ⟨answer, rfl⟩
    exact .step answer (.done _ _)

/-- A run of one program after another is a run of each. -/
theorem runs_bind {p : Program α} {f : α → Program β} {y : β} :
    Runs R (p >>= f) w tr y w' ↔
      ∃ tr₁ x v tr₂, Runs R p w tr₁ x v ∧ Runs R (f x) v tr₂ y w' ∧ tr = tr₁ ++ tr₂ := by
  constructor
  · intro h
    -- the steps of `p` come first; once it is done, what is left is a run of `f x`
    induction p generalizing w tr with
    | done x => exact ⟨[], x, w, tr, .done x w, h, rfl⟩
    | ask c next ih =>
      cases h with
      | step answer rest =>
        obtain ⟨tr₁, x, v, tr₂, h₁, h₂, rfl⟩ := ih _ rest
        exact ⟨_, x, v, tr₂, .step answer h₁, h₂, rfl⟩
      | wait waits held rest =>
        obtain ⟨tr₁, x, v, tr₂, h₁, h₂, rfl⟩ := ih _ rest
        exact ⟨tr₁, x, v, tr₂, .wait waits held h₁, h₂, rfl⟩
  · rintro ⟨tr₁, x, v, tr₂, h₁, h₂, rfl⟩
    induction h₁ with
    | done x w => exact h₂
    | step answer _ ih => exact .step answer (ih h₂)
    | wait waits held _ ih => exact .wait waits held (ih h₂)

/-- Whatever stands in the trace of a run was answered in some world. -/
theorem Runs.exists_answer {p : Program α} {x : α} (h : Runs R p w tr x w') {a : Step} {r : a.Reply}
    (hmem : (⟨a, r⟩ : Event) ∈ tr) : ∃ v v', R v a r v' := by
  induction h with
  | done => cases hmem
  | step answer _ ih =>
    rcases List.mem_cons.1 hmem with heq | hmem
    · cases heq
      exact ⟨_, _, answer⟩
    · exact ih hmem
  | wait _ _ _ ih => exact ih hmem

/-- A run that holds a lock is a run of the body, before and after which the same things are
held. -/
theorem Runs.of_holding {l : Lock} {p : Program α} {x : α} (h : Runs R (holding l p) w tr x w') :
    ∃ v v', v.held = w.held ∧ Runs R p v tr x v' ∧ w'.held = v'.held := by
  -- neither taking the lock nor giving it back leaves an event
  have h : Runs R (.ask (.acquire l) fun _ => p >>= fun r => .ask (.release l) fun _ => .done r)
      w tr x w' := h
  cases h with
  | wait _ held rest =>
    obtain ⟨tr₁, x, v', tr₂, hbody, hrest, rfl⟩ := runs_bind.1 rest
    cases hrest with
    | wait _ held' rest =>
      obtain ⟨rfl, rfl, rfl⟩ := runs_done.1 rest
      exact ⟨_, v', held, by simpa using hbody, held'⟩

end Program

/-! ## Programs that may fail

An attempt is a program whose value tells whether it has failed. Each lemma says what the runs of
one way of putting attempts together are. -/

namespace Attempt

variable {R : Answering} {ε α β : Type} {w w' : World} {tr : Trace}

open Program (Runs runs_done runs_step runs_bind)

/-- A value alone takes no step. -/
@[simp] theorem runs_pure {x : α} {y : Except ε α} :
    Runs R (pure x : Attempt ε α).run w tr y w' ↔ tr = [] ∧ y = .ok x ∧ w' = w :=
  runs_done

/-- Nor does an error. -/
@[simp] theorem runs_throw {e : ε} {y : Except ε α} :
    Runs R (throw e : Attempt ε α).run w tr y w' ↔ tr = [] ∧ y = .error e ∧ w' = w :=
  runs_done

/-- A run of one attempt after another is a run of each, or a failed run of the first. -/
theorem runs_bind {p : Attempt ε α} {f : α → Attempt ε β} {y : Except ε β} :
    Runs R (p >>= f).run w tr y w' ↔
      (∃ tr₁ x v tr₂, Runs R p.run w tr₁ (.ok x) v ∧ Runs R (f x).run v tr₂ y w' ∧
        tr = tr₁ ++ tr₂) ∨
      ∃ e, Runs R p.run w tr (.error e) w' ∧ y = .error e := by
  constructor
  · intro h
    obtain ⟨tr₁, x, v, tr₂, h₁, h₂, rfl⟩ := Program.runs_bind.1 h
    cases x with
    | ok x => exact .inl ⟨tr₁, x, v, tr₂, h₁, h₂, rfl⟩
    | error e =>
      -- what comes after a failure is done at once
      obtain ⟨rfl, rfl, rfl⟩ := runs_done.1 h₂
      exact .inr ⟨e, by rw [List.append_nil]; exact h₁, rfl⟩
  · rintro (⟨tr₁, x, v, tr₂, h₁, h₂, rfl⟩ | ⟨e, h, rfl⟩)
    · exact Program.runs_bind.2 ⟨tr₁, .ok x, v, tr₂, h₁, h₂, rfl⟩
    · exact Program.runs_bind.2 ⟨tr, .error e, w', [], h, .done _ _, by simp⟩

/-- Nothing comes after an error. -/
theorem runs_throw_bind {e : ε} {f : α → Attempt ε β} {y : Except ε β} :
    Runs R ((throw e : Attempt ε α) >>= f).run w tr y w' ↔ tr = [] ∧ y = .error e ∧ w' = w :=
  runs_done

/-- A program that cannot fail succeeds with its value. -/
theorem runs_lift {p : Program α} {y : Except ε α} :
    Runs R (liftM p : Attempt ε α).run w tr y w' ↔ ∃ x, Runs R p w tr x w' ∧ y = .ok x := by
  constructor
  · intro h
    obtain ⟨tr₁, x, v, tr₂, h₁, h₂, rfl⟩ := Program.runs_bind.1 h
    obtain ⟨rfl, rfl, rfl⟩ := runs_done.1 h₂
    exact ⟨x, by simpa using h₁, rfl⟩
  · rintro ⟨x, h, rfl⟩
    exact Program.runs_bind.2 ⟨tr, x, w', [], h, .done _ _, by simp⟩

/-- A call is answered, and an error of it becomes one of the attempt. -/
theorem runs_call {f : ClusterError → ε} {c : ClusterCall} {y : Except ε c.Answer} :
    Runs R (Attempt.call f c).run w tr y w' ↔
      ∃ r : c.Reply, R w (.call c) r w' ∧ tr = [⟨.call c, r⟩] ∧ y = r.mapError f := by
  constructor
  · intro h
    obtain ⟨tr₁, r, v, tr₂, h₁, h₂, rfl⟩ := Program.runs_bind.1 h
    obtain ⟨rfl, rfl, rfl⟩ := runs_done.1 h₂
    obtain ⟨answer, rfl⟩ := runs_step.1 h₁
    exact ⟨r, answer, rfl, rfl⟩
  · rintro ⟨r, answer, rfl, rfl⟩
    exact Program.runs_bind.2 ⟨_, r, w', [], runs_step.2 ⟨answer, rfl⟩, .done _ _, rfl⟩

/-- What cannot fail always goes on. -/
theorem runs_lift_bind {p : Program α} {f : α → Attempt ε β} {y : Except ε β} :
    Runs R ((liftM p : Attempt ε α) >>= f).run w tr y w' ↔
      ∃ tr₁ x v tr₂, Runs R p w tr₁ x v ∧ Runs R (f x).run v tr₂ y w' ∧ tr = tr₁ ++ tr₂ := by
  constructor
  · intro h
    rcases runs_bind.1 h with ⟨tr₁, x, v, tr₂, h₁, h₂, htr⟩ | ⟨e, h₁, -⟩
    · obtain ⟨x', h₁, hx⟩ := runs_lift.1 h₁
      obtain rfl := Except.ok.inj hx
      exact ⟨tr₁, x, v, tr₂, h₁, h₂, htr⟩
    · obtain ⟨x, -, hx⟩ := runs_lift.1 h₁
      cases hx
  · rintro ⟨tr₁, x, v, tr₂, h₁, h₂, htr⟩
    exact runs_bind.2 (.inl ⟨tr₁, x, v, tr₂, runs_lift.2 ⟨x, h₁, rfl⟩, h₂, htr⟩)

/-- A step is taken, and the attempt goes on with the reply. -/
theorem runs_step_bind {a : Step} {f : a.Reply → Attempt ε β} {y : Except ε β} :
    Runs R ((liftM (Program.step a) : Attempt ε a.Reply) >>= f).run w tr y w' ↔
      ∃ r v rest, R w a r v ∧ tr = ⟨a, r⟩ :: rest ∧ Runs R (f r).run v rest y w' := by
  rw [runs_lift_bind]
  constructor
  · rintro ⟨tr₁, r, v, rest, h₁, h₂, rfl⟩
    obtain ⟨answer, rfl⟩ := runs_step.1 h₁
    exact ⟨r, v, rest, answer, rfl, h₂⟩
  · rintro ⟨r, v, rest, answer, rfl, h₂⟩
    exact ⟨_, r, v, rest, runs_step.2 ⟨answer, rfl⟩, h₂, rfl⟩

/-- A call, and what comes after it if it is answered. -/
theorem runs_call_bind {g : ClusterError → ε} {c : ClusterCall} {f : c.Answer → Attempt ε β}
    {y : Except ε β} : Runs R (Attempt.call g c >>= f).run w tr y w' ↔
      ∃ (r : c.Reply) (v : World) (rest : Trace), R w (.call c) r v ∧ tr = ⟨.call c, r⟩ :: rest ∧
        ((∃ x, r = .ok x ∧ Runs R (f x).run v rest y w') ∨
          ∃ e, r = .error e ∧ y = .error (g e) ∧ rest = [] ∧ w' = v) := by
  rw [runs_bind]
  constructor
  · rintro (⟨tr₁, x, v, rest, h₁, h₂, rfl⟩ | ⟨e, h₁, rfl⟩)
    · -- an error would not have gone on
      obtain ⟨r, answer, rfl, hr⟩ := runs_call.1 h₁
      cases r with
      | ok x' =>
        obtain rfl := Except.ok.inj hr
        exact ⟨_, v, rest, answer, rfl, .inl ⟨x, rfl, h₂⟩⟩
      | error e => cases hr
    · -- only an error can have ended it here
      obtain ⟨r, answer, rfl, hr⟩ := runs_call.1 h₁
      cases r with
      | ok x => cases hr
      | error e' =>
        obtain rfl := Except.error.inj hr
        exact ⟨_, w', [], answer, rfl, .inr ⟨e', rfl, rfl, rfl, rfl⟩⟩
  · rintro ⟨r, v, rest, answer, rfl, ⟨x, rfl, h₂⟩ | ⟨e, rfl, rfl, rfl, rfl⟩⟩
    · exact .inl ⟨_, x, v, rest, runs_call.2 ⟨_, answer, rfl, rfl⟩, h₂, rfl⟩
    · exact .inr ⟨g e, runs_call.2 ⟨_, answer, rfl, rfl⟩, rfl⟩

/-- A count always comes about. -/
theorem runs_count {e : PassEvent} {y : Except ε Unit} :
    Runs R (liftM (Program.count e) : Attempt ε Unit).run w tr y w' ↔
      y = .ok () ∧ R w (.count e) () w' ∧ tr = [⟨.count e, ()⟩] := by
  rw [runs_lift]
  constructor
  · rintro ⟨u, h, rfl⟩
    exact ⟨rfl, runs_step.1 h⟩
  · rintro ⟨rfl, h⟩
    exact ⟨(), runs_step.2 h, rfl⟩

/-- The attempt goes on after a count. -/
theorem runs_count_bind {e : PassEvent} {f : Unit → Attempt ε β} {y : Except ε β} :
    Runs R ((liftM (Program.count e) : Attempt ε Unit) >>= f).run w tr y w' ↔
      ∃ v rest, R w (.count e) () v ∧ tr = ⟨.count e, ()⟩ :: rest ∧
        Runs R (f ()).run v rest y w' := by
  rw [runs_lift_bind]
  constructor
  · rintro ⟨tr₁, u, v, rest, h₁, h₂, rfl⟩
    obtain ⟨answer, rfl⟩ := runs_step.1 h₁
    exact ⟨v, rest, answer, rfl, h₂⟩
  · rintro ⟨v, rest, answer, rfl, h₂⟩
    exact ⟨_, (), v, rest, runs_step.2 ⟨answer, rfl⟩, h₂, rfl⟩

/-- An attempt under a lock. -/
theorem Runs.of_holding {l : Lock} {p : Attempt ε α} {y : Except ε α}
    (h : Runs R (Attempt.holding l p).run w tr y w') :
    ∃ v v', v.held = w.held ∧ Runs R p.run v tr y v' ∧ w'.held = v'.held :=
  Program.Runs.of_holding h

/-- An attempt of which note is taken in the end, if its outcome is one of those. -/
theorem Runs.noted {event : Except ε α → Option PassEvent} {p : Attempt ε α} {y : Except ε α}
    (h : Runs R (Attempt.noting event p).run w tr y w') :
    ∃ tr₁ v, Runs R p.run w tr₁ y v ∧ ((event y = none ∧ tr = tr₁ ∧ w' = v) ∨
      ∃ e, event y = some e ∧ R v (.count e) () w' ∧ tr = tr₁ ++ [⟨.count e, ()⟩]) := by
  obtain ⟨tr₁, x, v, tr₂, h₁, h₂, rfl⟩ := Program.runs_bind.1 h
  dsimp only at h₂
  split at h₂
  · next e he =>
    obtain ⟨tr₃, u, v', tr₄, h₃, h₄, rfl⟩ := Program.runs_bind.1 h₂
    obtain ⟨rfl, rfl, rfl⟩ := runs_done.1 h₄
    obtain ⟨hcount, rfl⟩ := runs_step.1 h₃
    exact ⟨tr₁, v, h₁, .inr ⟨e, he, hcount, by rw [List.append_nil]⟩⟩
  · next he =>
    obtain ⟨rfl, rfl, rfl⟩ := runs_done.1 h₂
    exact ⟨tr₁, _, h₁, .inl ⟨he, List.append_nil _, rfl⟩⟩

/-- An attempt of which note may be taken in the end. -/
theorem Runs.of_noting {event : Except ε α → Option PassEvent} {p : Attempt ε α} {y : Except ε α}
    (h : Runs R (Attempt.noting event p).run w tr y w') :
    ∃ tr₁ v tr₂, Runs R p.run w tr₁ y v ∧ tr = tr₁ ++ tr₂ ∧
      ((tr₂ = [] ∧ w' = v) ∨ ∃ e, R v (.count e) () w' ∧ tr₂ = [⟨.count e, ()⟩]) := by
  obtain ⟨tr₁, v, hrun, ⟨-, rfl, rfl⟩ | ⟨e, -, hcount, rfl⟩⟩ := Runs.noted h
  · exact ⟨tr, w', [], hrun, (List.append_nil _).symm, .inl ⟨rfl, rfl⟩⟩
  · exact ⟨tr₁, v, _, hrun, rfl, .inr ⟨e, hcount, rfl⟩⟩

/-- Errors that are put in other words come of the same runs. -/
theorem runs_adapt {ε' : Type} {f : ε → ε'} {p : Attempt ε α} {y : Except ε' α} :
    Runs R (ExceptT.adapt f p).run w tr y w' ↔ ∃ x, Runs R p.run w tr x w' ∧ y = x.mapError f := by
  constructor
  · intro h
    obtain ⟨tr₁, x, v, tr₂, h₁, h₂, rfl⟩ := Program.runs_bind.1 h
    obtain ⟨rfl, rfl, rfl⟩ := runs_done.1 h₂
    exact ⟨x, by rw [List.append_nil]; exact h₁, rfl⟩
  · rintro ⟨x, h, rfl⟩
    exact Program.runs_bind.2 ⟨tr, x, w', [], h, .done _ _, by simp⟩

end Attempt

end MeshLimiter
