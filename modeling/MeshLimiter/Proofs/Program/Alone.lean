import MeshLimiter.Proofs.Program.Answers
/-!
# Programs run alone

A program that is run alone in a world is one of the runs that the world may answer. So what holds
of all runs can be seen at work in a single one.

* **`Program.runs_runAlone`**: the run, with its trace;
* **`World.answersTruly_perform`**: a world answers truly for itself if no call is made to fail as
  if its object did not exist;
* **`Program.answered_traceAlone`**: if no call is made to fail, all that a program reads is
  answered.
-/

namespace MeshLimiter

namespace Program

variable {R : Answering} {α : Type}

/-- The trace of a program that is run alone. -/
def traceAlone : Program α → World → Trace
  | done _, _ => []
  | ask (.step a) next, w =>
    let (r, v) := w.perform a
    ⟨a, r⟩ :: traceAlone (next r) v
  | ask (.sleepUntil t) next, w => traceAlone (next ()) { w with now := max w.now t }
  | ask (.acquire _) next, w => traceAlone (next ()) w
  | ask (.release _) next, w => traceAlone (next ()) w
  | ask (.await _) next, w => traceAlone (next ()) w
  | ask (.retryAfter _ _) next, w => traceAlone (next ()) w

/-- A program that is run alone takes a run, from a world of a kind in which each step may be
performed as it is, and which no step leaves. -/
theorem runs_runAlone {P : World → Prop}
    (hstep : ∀ w a, P w → R w a (w.perform a).1 (w.perform a).2 ∧ P (w.perform a).2)
    (hnow : ∀ w t, P w → P { w with now := t }) (p : Program α) {w : World} (hw : P w) :
    Runs R p w (p.traceAlone w) (p.runAlone w).1 (p.runAlone w).2 ∧ P (p.runAlone w).2 := by
  induction p generalizing w with
  | done x => exact ⟨.done x w, hw⟩
  | ask c next ih =>
    cases c with
    | step a =>
      -- only a step is answered; all else lets the program go on
      obtain ⟨answer, hv⟩ := hstep w a hw
      obtain ⟨hrest, hend⟩ := ih (w.perform a).1 hv
      exact ⟨.step answer hrest, hend⟩
    | acquire | release | await | retryAfter =>
      obtain ⟨hrest, hend⟩ := ih () hw
      exact ⟨.wait (fun _ => nofun) rfl hrest, hend⟩
    | sleepUntil time =>
      obtain ⟨hrest, hend⟩ := ih () (hnow w (max w.now time) hw)
      exact ⟨.wait (v := { w with now := max w.now time }) (fun _ => nofun) rfl hrest, hend⟩

/-- A program that is run alone takes a run of an unreliable cluster. -/
theorem runs_answers_runAlone (p : Program α) (w : World) :
    Runs World.Answers p w (p.traceAlone w) (p.runAlone w).1 (p.runAlone w).2 :=
  (runs_runAlone (P := fun _ => True) (fun w a _ => ⟨w.answers_perform a, trivial⟩)
    (fun _ _ _ => trivial) p trivial).1

end Program

/-- What is found to be a success has a value. -/
theorem exists_eq_ok_of_isOk {ε α : Type} {y : Except ε α} (h : y.isOk = true) :
    ∃ x, y = .ok x := by
  cases y with
  | ok x => exact ⟨x, rfl⟩
  | error e => cases h

/-- What is found to be no success has an error. -/
theorem exists_eq_error_of_isOk {ε α : Type} {y : Except ε α} (h : y.isOk = false) :
    ∃ e, y = .error e := by
  cases y with
  | ok x => cases h
  | error e => exact ⟨e, rfl⟩

namespace World

/-- No call is made to fail as if its object did not exist. -/
def DeniesNothing (w : World) : Prop :=
  ∀ f ∈ w.faults, f.code ≠ 404

variable {w : World}

/-- A check for faults gives none of a code that no fault has, and keeps it so. -/
theorem code_of_check {fs : List Fault} (h : ∀ f ∈ fs, f.code ≠ 404) (c : ClusterCall) :
    (Fault.check c fs).1 ≠ some 404 ∧ ∀ f ∈ (Fault.check c fs).2, f.code ≠ 404 := by
  induction fs with
  | nil => exact ⟨nofun, nofun⟩
  | cons f fs ih =>
    obtain ⟨hf, hfs⟩ := List.forall_mem_cons.1 h
    obtain ⟨hcode, hrest⟩ := ih hfs
    unfold Fault.check
    split
    · exact ⟨fun he => hf (Option.some.inj he), List.forall_mem_cons.2 ⟨hf, hfs⟩⟩
    · exact ⟨hcode, List.forall_mem_cons.2 ⟨hf, hrest⟩⟩

/-- By itself a cluster refuses a deletion only if there is nothing to delete. -/
theorem getElem?_of_perform_deleteFilter {k : Cluster} {p : ResourceId} {e : ClusterError}
    (h : (k.perform (.deleteFilter p)).1 = .error e) :
    (k.perform (.deleteFilter p)).2.filters[p]? = none := by
  by_cases hp : k.filters.contains p = true
  · have hperform : k.perform (.deleteFilter p) = (.ok (), _) := if_pos hp
    rw [hperform] at h
    cases h
  · have hperform : k.perform (.deleteFilter p) = (.error .notFound, k) := if_neg hp
    rw [hperform]
    exact Std.ExtTreeMap.getElem?_eq_none fun hmem => hp (Std.ExtTreeMap.mem_iff_contains.1 hmem)

/-- A call is answered truly, and its faults stay what they are. -/
theorem saysTruly_call (hw : w.DeniesNothing) (c : ClusterCall) :
    SaysTruly (.call c) (w.call c).1 (w.call c).2 ∧ (w.call c).2.DeniesNothing := by
  obtain ⟨hcode, hfaults⟩ := code_of_check hw c
  unfold World.call
  dsimp only
  rw [show (w.note c.text).faults = w.faults from rfl]
  split
  · -- a fault refuses the call, but not as if the filter were missing
    next code faults hcheck =>
    rw [hcheck] at hcode hfaults
    refine ⟨?_, hfaults⟩
    cases c with
    | deleteFilter p =>
      intro he
      obtain rfl : code = 404 := ClusterError.refused.inj (Except.error.inj he)
      exact absurd rfl hcode
    | _ => trivial
  · -- the cluster itself answers
    next faults hcheck =>
    rw [hcheck] at hfaults
    cases hp : (w.note c.text).cluster.perform c with
    | mk reply cluster =>
      cases reply with
      | ok x =>
        refine ⟨?_, hfaults⟩
        cases c with
        | deleteFilter p => exact nofun
        | _ => trivial
      | error e =>
        refine ⟨?_, hfaults⟩
        cases c with
        | deleteFilter p =>
          intro _
          have hnone := getElem?_of_perform_deleteFilter (congrArg Prod.fst hp)
          rw [hp] at hnone
          exact hnone
        | _ => trivial

/-- Queries do not use up faults. -/
theorem faults_note_queries (texts : List String) (w : World) :
    (texts.foldl (fun w t => w.note ("query " ++ t)) w).faults = w.faults := by
  induction texts generalizing w with
  | nil => rfl
  | cons t ts ih => exact ih _

/-- Nor do the queues. -/
theorem faults_setQueue (name : QueueName) (q : Queue) : (w.setQueue name q).faults = w.faults := by
  cases name <;> rfl

/-- A world that denies nothing answers truly for itself, and goes on to deny nothing. -/
theorem answersTruly_perform (w : World) (a : Step) (hw : w.DeniesNothing) :
    w.AnswersTruly a (w.perform a).1 (w.perform a).2 ∧ (w.perform a).2.DeniesNothing := by
  have hkept : (w.perform a).2.faults = w.faults → (w.perform a).2.DeniesNothing := by
    intro h f hf
    exact hw f (h ▸ hf)
  cases a with
  | call c =>
    obtain ⟨htrue, hdenies⟩ := saysTruly_call hw c
    exact ⟨⟨answers_perform w _, htrue⟩, hdenies⟩
  | sendQueries texts => exact ⟨⟨answers_perform w _, trivial⟩, hkept (faults_note_queries texts w)⟩
  | tryPop name | push name _ | finish name _ =>
    exact ⟨⟨answers_perform w _, trivial⟩, hkept (faults_setQueue name _)⟩
  | _ => exact ⟨⟨answers_perform w _, trivial⟩, hw⟩

/-! ## Where nothing is made to fail

Without faults a world answers every call by itself, and reads always come about. -/

/-- A call that is not made to fail is answered by the cluster. -/
theorem call_of_no_faults (hw : w.faults = []) (c : ClusterCall) :
    (w.call c).1 = (w.cluster.perform c).1 ∧ (w.call c).2.faults = [] := by
  unfold World.call
  dsimp only
  rw [show (w.note c.text).faults = [] from hw, show (w.note c.text).cluster = w.cluster from rfl]
  dsimp only [Fault.check]
  cases w.cluster.perform c with
  | mk r cluster => cases r <;> exact ⟨rfl, rfl⟩

/-- Nothing comes to fail. -/
theorem faults_perform (hw : w.faults = []) (a : Step) : (w.perform a).2.faults = [] := by
  cases a with
  | call c => exact (call_of_no_faults hw c).2
  | sendQueries texts => exact (faults_note_queries texts w).trans hw
  | tryPop name | push name _ | finish name _ => exact (faults_setQueue name _).trans hw
  | _ => exact hw

/-- Every call but a write is answered. -/
theorem isError_perform (hw : w.faults = []) {a : Step}
    (ha : ∀ c, a = .call c → c.isWrite = false) : Event.isError ⟨a, (w.perform a).1⟩ = false := by
  cases a with
  | call c =>
    show (!Except.isOk (w.call c).1) = false
    rw [(call_of_no_faults hw c).1]
    have hread := ha c rfl
    cases c with
    | service | pods | filter | configMap => rfl
    | _ => cases hread
  | _ => rfl

end World

/-- A program that writes nothing has all its calls answered where nothing is made to fail. -/
theorem Program.answered_traceAlone {α : Type} (p : Program α) {w : World} (hw : w.faults = [])
    (hreads : ∀ k ∈ (p.traceAlone w).calls, k.isWrite = false) :
    ∀ event ∈ p.traceAlone w, event.isError = false := by
  induction p generalizing w with
  | done x => exact List.forall_mem_nil _
  | ask c next ih =>
    cases c with
    | step a =>
      have hfirst : ∀ c, a = .call c → c.isWrite = false := by
        rintro c rfl
        exact hreads c List.mem_cons_self
      -- what is asked later is among what is asked
      have hrest : ∀ k ∈ ((next (w.perform a).1).traceAlone (w.perform a).2).calls,
          k.isWrite = false :=
        fun k hk => hreads k (((List.sublist_cons_self _ _).filterMap _).subset hk)
      exact List.forall_mem_cons.2
        ⟨World.isError_perform hw hfirst, ih _ (World.faults_perform hw a) hrest⟩
    | sleepUntil time => exact ih () (w := { w with now := max w.now time }) hw hreads
    | _ => exact ih () hw hreads

end MeshLimiter
