import MeshLimiter.Proofs.Program.Runs
/-!
# The commands of a program

Which commands a program may take at all, whatever its steps are answered.

* **`Program.Takes`**: all commands of a program are among some;
* **`Program.Runs.takes`**: then so are the steps of every run;
* **`Command.Calls`**: calls about one thing, and counts.
-/

namespace MeshLimiter

namespace Program

/-- Every command that a program may come to is one of some. -/
def Takes (P : Command → Prop) {α : Type} : Program α → Prop
  | done _ => True
  | ask c next => P c ∧ ∀ r, Takes P (next r)

variable {P Q : Command → Prop} {α β : Type}

/-- A single step takes itself. -/
theorem takes_step {a : Step} (h : P (.step a)) : (Program.step a).Takes P :=
  ⟨h, fun _ => trivial⟩

/-- Of two programs one after another each takes its commands. -/
theorem takes_bind {p : Program α} {f : α → Program β} (hp : p.Takes P) (hf : ∀ x, (f x).Takes P) :
    (p >>= f).Takes P := by
  induction p with
  | done x => exact hf x
  | ask c next ih => exact ⟨hp.1, fun r => ih r (hp.2 r)⟩

/-- A lock adds that it is taken and given up. -/
theorem takes_holding {l : Lock} {p : Program α} (hacquire : P (.acquire l))
    (hrelease : P (.release l)) (hp : p.Takes P) : (holding l p).Takes P := by
  have hrest : ∀ x : α, (ask (.release l) fun _ => done x).Takes P :=
    fun x => ⟨hrelease, fun _ => trivial⟩
  have hbody : (p >>= fun x => ask (.release l) fun _ => done x).Takes P := takes_bind hp hrest
  exact ⟨hacquire, fun _ => hbody⟩

/-- Commands that are among some are among more. -/
theorem Takes.mono {p : Program α} (hp : p.Takes P) (h : ∀ c, P c → Q c) : p.Takes Q := by
  induction p with
  | done x => trivial
  | ask c next ih => exact ⟨h c hp.1, fun r => ih r (hp.2 r)⟩

/-- The steps of a run are among the commands of its program, by induction on the run. -/
theorem Runs.takes {R : Answering} {p : Program α} {w w' : World} {tr : Trace} {x : α}
    (h : Runs R p w tr x w') (hp : p.Takes P) : ∀ event ∈ tr, P (.step event.step) := by
  induction h with
  | done => exact List.forall_mem_nil _
  | step _ _ ih => exact List.forall_mem_cons.2 ⟨hp.1, ih (hp.2 _)⟩
  | wait _ _ _ ih => exact ih (hp.2 _)

end Program

/-- A call about one thing, or a count. -/
def Command.Calls (k : ClusterCall.Concern) : Command → Prop
  | .step (.call c) => c.concern = k
  | .step (.count _) => True
  | _ => False

/-- A program that makes calls about one thing makes none about another. -/
theorem Program.Runs.about_eq_nil {R : Answering} {α : Type} {p : Program α} {w w' : World}
    {tr : Trace} {x : α} {P : Command → Prop} {k : ClusterCall.Concern} (h : Runs R p w tr x w')
    (hp : p.Takes P) (hk : ∀ c, P (.step (.call c)) → c.concern ≠ k) : tr.about k = [] := by
  refine Trace.about_eq_nil_of_calls fun c hc => ?_
  obtain ⟨⟨a, r⟩, hevent, hcall⟩ := List.mem_filterMap.1 hc
  have htaken := h.takes hp _ hevent
  cases a with
  | call c' =>
    obtain rfl := Option.some.inj hcall
    exact hk _ htaken
  | _ => cases hcall

namespace Attempt

variable {P : Command → Prop} {ε α β : Type}

/-- The same for attempts. -/
theorem takes_bind {p : Attempt ε α} {f : α → Attempt ε β} (hp : p.run.Takes P)
    (hf : ∀ x, (f x).run.Takes P) : (p >>= f).run.Takes P := by
  refine Program.takes_bind hp fun x => ?_
  cases x with
  | ok x => exact hf x
  | error e => trivial

/-- What cannot fail takes the same commands as an attempt. -/
theorem takes_lift {p : Program α} (hp : p.Takes P) : (liftM p : Attempt ε α).run.Takes P :=
  Program.takes_bind hp fun _ => trivial

/-- A step, and what comes after it. -/
theorem takes_step_bind {a : Step} {f : a.Reply → Attempt ε β} (h : P (.step a))
    (hf : ∀ r, (f r).run.Takes P) :
    ((liftM (Program.step a) : Attempt ε a.Reply) >>= f).run.Takes P :=
  takes_bind (takes_lift (Program.takes_step h)) hf

/-- A call takes itself. -/
theorem takes_call {f : ClusterError → ε} {c : ClusterCall} (h : P (.step (.call c))) :
    (Attempt.call f c).run.Takes P :=
  Program.takes_bind (Program.takes_step h) fun _ => trivial

/-- What is counted in the end is added. -/
theorem takes_noting {event : Except ε α → Option PassEvent} {p : Attempt ε α} (hp : p.run.Takes P)
    (hcount : ∀ e, P (.step (.count e))) : (Attempt.noting event p).run.Takes P := by
  refine Program.takes_bind hp fun r => ?_
  dsimp only
  split
  · exact Program.takes_bind (Program.takes_step (hcount _)) fun _ => trivial
  · trivial

/-- To put errors in other words takes no command. -/
theorem takes_adapt {ε' : Type} {f : ε → ε'} {p : Attempt ε α} (hp : p.run.Takes P) :
    (ExceptT.adapt f p).run.Takes P :=
  Program.takes_bind hp fun _ => trivial

/-- A loop that goes on to its end. -/
theorem takes_forIn {xs : List α} {b : β} {f : α → β → Attempt ε (ForInStep β)}
    (hf : ∀ x b, (f x b).run.Takes P) : (forIn xs b f).run.Takes P := by
  induction xs generalizing b with
  | nil => trivial
  | cons x xs ih =>
    rw [List.forIn_cons]
    refine takes_bind (hf x b) fun step => ?_
    cases step with
    | done b => trivial
    | yield b => exact ih

end Attempt

end MeshLimiter
