import MeshLimiter.Proofs.Queue
/-!
# Every trace of a work queue

Whatever is called on a queue, in whatever order, the calls and what they gave form a trace.

* **`Queue.play`**: the trace of some calls, and the queue after them;
* **`Queue.handed_out_once`**: a key that is taken is not taken again before the work on it has
  ended;
* **`Queue.due_since_push`**: a key that was accepted is due until it is taken;
* **`Queue.enqueued_play`**: keys are taken in the order in which they came to the end of the queue;
* **`Queue.push_refused_iff`**: which pushes are refused;
* **`Queue.guarantees_play`**: all of it, for every trace of a new queue.
-/

namespace MeshLimiter

namespace Queue

/-- What can be called on a queue. -/
inductive Call where
  | push (id : ResourceId)
  | tryPop
  | done (id : ResourceId)
deriving DecidableEq, Repr

/-- A call and what it gave. -/
inductive Event where
  | pushed (id : ResourceId) (outcome : PushOutcome)
  | popped (taken : Option ResourceId)
  | finished (id : ResourceId) (requeued : Bool)
deriving DecidableEq, Repr

/-- The key that came to the end of the queue. -/
def Event.enqueued : Event → Option ResourceId
  | pushed id .enqueued => some id
  | finished id true => some id
  | _ => none

/-- The key that was taken from the front. -/
def Event.taken : Event → Option ResourceId
  | popped taken => taken
  | _ => none

def answer (q : Queue) : Call → Event × Queue
  | .push id => (.pushed id (q.push id).1, (q.push id).2)
  | .tryPop => (.popped q.tryPop.1, q.tryPop.2)
  | .done id => (.finished id (q.done id).1, (q.done id).2)

/-- The trace of some calls, and the queue after them. -/
def play (q : Queue) : List Call → List Event × Queue
  | [] => ([], q)
  | c :: calls => ((q.answer c).1 :: ((q.answer c).2.play calls).1, ((q.answer c).2.play calls).2)

variable {q : Queue} {c : Call} {calls : List Call} {k id : ResourceId}
  {events before after : List Event}

@[simp] theorem play_nil (q : Queue) : q.play [] = ([], q) := rfl

/-- The first call, and then the rest. -/
theorem play_cons (q : Queue) (c : Call) (calls : List Call) :
    q.play (c :: calls) =
      ((q.answer c).1 :: ((q.answer c).2.play calls).1, ((q.answer c).2.play calls).2) := rfl

/-- Where a trace is cut, the calls are cut. -/
theorem play_cut (h : (q.play calls).1 = before ++ after) :
    ∃ q' rest, (∃ calls', q.play calls' = (before, q')) ∧
      q'.play rest = (after, (q.play calls).2) := by
  -- each event of the first part takes one call off the front
  induction before generalizing q calls with
  | nil => exact ⟨q, calls, ⟨[], rfl⟩, Prod.ext h rfl⟩
  | cons e before ih =>
    cases calls with
    | nil => cases h
    | cons c calls =>
      rw [play_cons] at h ⊢
      obtain ⟨he, hrest⟩ := List.cons.inj h
      obtain ⟨q', rest, ⟨calls', hbefore⟩, hafter⟩ := ih hrest
      refine ⟨q', rest, ⟨c :: calls', ?_⟩, hafter⟩
      rw [play_cons, hbefore]
      exact Prod.ext (congrArg (· :: before) he) rfl

/-- A trace with a first event has a first call. -/
theorem play_eq_cons {e : Event} {q' : Queue} (h : q.play calls = (e :: events, q')) :
    ∃ c rest, (q.answer c).1 = e ∧ (q.answer c).2.play rest = (events, q') := by
  cases calls with
  | nil => cases h
  | cons c calls =>
    rw [play_cons] at h
    obtain ⟨he, hq'⟩ := Prod.mk.inj h
    obtain ⟨he, hevents⟩ := List.cons.inj he
    exact ⟨c, calls, he, Prod.ext hevents hq'⟩

/-! ## The parts stay in order

Each call keeps a queue in order, and with it its room. -/

theorem Orderly.tryPop (hq : q.Orderly) : q.tryPop.2.Orderly := by
  rcases tryPop_cases hq with h | ⟨_, _, h, _, hq', _⟩
  · rw [h]
    exact hq
  · rw [h]
    exact hq'

theorem Orderly.answer (hq : q.Orderly) (c : Call) : (q.answer c).2.Orderly := by
  cases c with
  | push id => exact hq.push id
  | tryPop => exact hq.tryPop
  | done id => exact hq.done id

/-- So does any run. -/
theorem Orderly.play (hq : q.Orderly) (calls : List Call) : (q.play calls).2.Orderly := by
  induction calls generalizing q with
  | nil => exact hq
  | cons c calls ih => exact ih (hq.answer c)

theorem capacity_answer (q : Queue) (c : Call) : (q.answer c).2.capacity = q.capacity := by
  cases c with
  | push id =>
    show (q.push id).2.capacity = q.capacity
    rcases q.push_cases id with ⟨-, h⟩ | ⟨-, h⟩ | h | ⟨-, -, h⟩
    all_goals exact congrArg (fun r => r.2.capacity) h
  | tryPop =>
    show q.tryPop.2.capacity = q.capacity
    unfold Queue.tryPop
    split <;> rfl
  | done id =>
    show (q.done id).2.capacity = q.capacity
    unfold Queue.done
    dsimp only
    split <;> rfl

/-- The room is that of the new queue. -/
theorem capacity_play (q : Queue) (calls : List Call) : (q.play calls).2.capacity = q.capacity := by
  induction calls generalizing q with
  | nil => rfl
  | cons c calls ih => exact (ih _).trans (capacity_answer q c)

/-! ## A key is handed out once

From when it is taken until the work on it has ended it is worked on, and no such key is taken. -/

/-- Only the end of the work takes a key from those that are worked on. -/
theorem active_answer (hq : q.Orderly) (hactive : k ∈ q.active)
    (hdone : ∀ requeued, (q.answer c).1 ≠ .finished k requeued) : k ∈ (q.answer c).2.active := by
  cases c with
  | push id =>
    show k ∈ (q.push id).2.active
    rw [active_push]
    exact hactive
  | tryPop =>
    show k ∈ q.tryPop.2.active
    rcases tryPop_cases hq with h | ⟨id, q', h, -, -, hq', -⟩
    · rw [h]
      exact hactive
    · rw [h]
      show k ∈ q'.active
      rw [hq']
      exact IdSet.mem_insert.2 (.inr hactive)
  | done id =>
    show k ∈ (q.done id).2.active
    rw [active_done]
    -- `done` releases one key, and `hdone` says that it is another
    refine IdSet.mem_erase.2 ⟨?_, hactive⟩
    rintro rfl
    exact hdone _ rfl

/-- A key stays with those that are worked on until the work on it ends. -/
theorem active_play (hq : q.Orderly) (hactive : k ∈ q.active)
    (hdone : ∀ requeued, .finished k requeued ∉ (q.play calls).1) :
    k ∈ (q.play calls).2.active := by
  induction calls generalizing q with
  | nil => exact hactive
  | cons c calls ih =>
    have hfirst := active_answer hq hactive fun r h =>
      hdone r (by rw [play_cons, h]; exact List.mem_cons_self)
    exact ih (hq.answer c) hfirst fun r h => hdone r (List.mem_cons_of_mem _ h)

/-- The key that is taken was not worked on, and is now. -/
theorem answer_popped (hq : q.Orderly) (h : (q.answer c).1 = .popped (some id)) :
    id ∉ q.active ∧ id ∈ (q.answer c).2.active := by
  cases c with
  | push _ => cases h
  | done _ => cases h
  | tryPop =>
    have htaken : q.tryPop.1 = some id := Event.popped.inj h
    show id ∉ q.active ∧ id ∈ q.tryPop.2.active
    rcases tryPop_cases hq with hnone | ⟨id', q', hsome, hfree, -, hactive, -⟩
    · rw [hnone] at htaken
      cases htaken
    · rw [hsome] at htaken ⊢
      -- the key was free when it was chosen and is active from then on
      obtain rfl := Option.some.inj htaken
      refine ⟨hfree, ?_⟩
      show id' ∈ q'.active
      rw [hactive]
      exact IdSet.mem_insert.2 (.inl rfl)

/-- **Between two takings of a key the work on it ends.** -/
theorem handed_out_once (hq : q.Orderly)
    (h : (q.play calls).1 = before ++ .popped (some id) :: events ++ .popped (some id) :: after) :
    ∃ requeued, .finished id requeued ∈ events := by
  refine Classical.byContradiction fun hnone => ?_
  rw [List.append_assoc] at h
  obtain ⟨q₁, rest₁, ⟨calls₁, hq₁⟩, h₁⟩ := play_cut h
  have horderly₁ : q₁.Orderly := by simpa only [hq₁] using hq.play calls₁
  -- the key is taken for the first time
  obtain ⟨c₁, rest₂, hc₁, h₂⟩ := play_eq_cons h₁
  have horderly₂ := horderly₁.answer c₁
  have hactive := (answer_popped horderly₁ hc₁).2
  -- it is still worked on when it is taken again
  obtain ⟨q₃, rest₃, ⟨calls₃, hq₃⟩, h₃⟩ := play_cut (congrArg Prod.fst h₂)
  have hstill : id ∈ q₃.active := by
    have hactive₃ : id ∈ ((q₁.answer c₁).2.play calls₃).2.active :=
      active_play horderly₂ hactive fun r hr => hnone ⟨r, by rw [hq₃] at hr; exact hr⟩
    simpa only [hq₃] using hactive₃
  obtain ⟨c₃, rest₄, hc₃, -⟩ := play_eq_cons h₃
  have horderly₃ : q₃.Orderly := by simpa only [hq₃] using horderly₂.play calls₃
  exact (answer_popped horderly₃ hc₃).1 hstill

/-! ## A key that is accepted is worked on afterwards

It is due from the push on, until it is taken. -/

/-- A key that is due waits, or is marked while it is worked on. -/
theorem Orderly.due_iff (hq : q.Orderly) :
    q.Due id ↔ id ∈ q.pending ∨ id ∈ q.active ∧ id ∈ q.dirty := by
  unfold Due
  rw [hq.pending]
  constructor
  · exact Or.imp_right fun hdirty => ⟨hq.marked id hdirty, hdirty⟩
  · exact Or.imp_right And.right

theorem Due.answer (hq : q.Orderly) (hdue : q.Due k) (hkept : (q.answer c).1 ≠ .popped (some k)) :
    (q.answer c).2.Due k := by
  cases c with
  | push id => exact hdue.push id
  | done id => exact hdue.done id
  | tryPop =>
    show q.tryPop.2.Due k
    rcases tryPop_cases hq with h | ⟨id, q', h, -, -, -, hrest⟩
    · rw [h]
      exact hdue
    · rw [h]
      refine (hrest k hdue).resolve_left fun heq => hkept ?_
      show Event.popped q.tryPop.1 = _
      rw [h, heq]

/-- A key that is due is due until it is taken. -/
theorem Due.play (hq : q.Orderly) (hdue : q.Due k) (hkept : .popped (some k) ∉ (q.play calls).1) :
    (q.play calls).2.Due k := by
  induction calls generalizing q with
  | nil => exact hdue
  | cons c calls ih =>
    have hfirst := hdue.answer (c := c) hq fun h =>
      hkept (by rw [play_cons, h]; exact List.mem_cons_self)
    exact ih (hq.answer c) hfirst fun h => hkept (List.mem_cons_of_mem _ h)

/-- **A key that was accepted is due until it is taken.** -/
theorem due_since_push (hq : q.Orderly) {outcome : PushOutcome}
    (haccepted : outcome.accepted = true)
    (h : (q.play calls).1 = before ++ .pushed id outcome :: after)
    (hkept : .popped (some id) ∉ after) :
    (q.play calls).2.Due id := by
  obtain ⟨q₁, rest₁, ⟨calls₁, hq₁⟩, h₁⟩ := play_cut h
  have horderly₁ : q₁.Orderly := by simpa only [hq₁] using hq.play calls₁
  -- the push itself makes the key due, and no later call takes it
  obtain ⟨c, rest₂, hc, h₂⟩ := play_eq_cons h₁
  have hdue : (q₁.answer c).2.Due id := by
    cases c with
    | tryPop => cases hc
    | done _ => cases hc
    | push k =>
      obtain ⟨rfl, hpush⟩ := Event.pushed.inj hc
      exact due_push (by rw [hpush]; exact haccepted)
  have hlast : ((q₁.answer c).2.play rest₂).2.Due id :=
    hdue.play (horderly₁.answer c) (by rw [h₂]; exact hkept)
  rw [h₂] at hlast
  exact hlast

/-- After a pop that found nothing, no key waits. -/
theorem pending_of_popped_none (h : (q.play calls).1.getLast? = some (.popped none)) :
    (q.play calls).2.pending = [] := by
  induction calls generalizing q with
  | nil => cases h
  | cons c calls ih =>
    rw [play_cons] at h ⊢
    -- only the last call matters
    cases calls with
    | cons c' calls =>
      rw [play_cons, List.getLast?_cons_cons] at h
      exact ih (by rw [play_cons]; exact h)
    | nil =>
      have he : (q.answer c).1 = .popped none := Option.some.inj h
      show (q.answer c).2.pending = []
      cases c with
      | push _ => cases he
      | done _ => cases he
      | tryPop => exact pending_of_tryPop_none (Event.popped.inj he)

/-! ## The keys are taken in their order -/

/-- What a call puts at the end and what it takes from the front. -/
theorem enqueued_answer (q : Queue) (c : Call) :
    q.pending ++ (q.answer c).1.enqueued.toList
      = (q.answer c).1.taken.toList ++ (q.answer c).2.pending := by
  cases c with
  | push id =>
    show q.pending ++ (Event.pushed id (q.push id).1).enqueued.toList = (q.push id).2.pending
    -- unless the key is put in, the queue stays as it is
    rcases q.push_cases id with ⟨-, h⟩ | ⟨-, h⟩ | h | ⟨-, -, h⟩ <;> rw [h]
    · exact List.append_nil _
    · exact List.append_nil _
    · exact List.append_nil _
    · rfl
  | tryPop =>
    show q.pending ++ [] = q.tryPop.1.toList ++ q.tryPop.2.pending
    rw [List.append_nil]
    unfold Queue.tryPop
    split
    · next hpending => rw [hpending]; rfl
    · next hpending => exact hpending
  | done id =>
    show q.pending ++ (Event.finished id (q.done id).1).enqueued.toList = (q.done id).2.pending
    unfold Queue.done
    dsimp only
    split
    · rfl
    · exact List.append_nil _

/-- **The keys that came to the end of a queue are those that were taken, in that order, and then
those that wait.** -/
theorem enqueued_play (q : Queue) (calls : List Call) :
    q.pending ++ (q.play calls).1.filterMap Event.enqueued =
      (q.play calls).1.filterMap Event.taken ++ (q.play calls).2.pending := by
  induction calls generalizing q with
  | nil => exact List.append_nil _
  | cons c calls ih =>
    have hfilterMap : ∀ (f : Event → Option ResourceId) e events,
        List.filterMap f (e :: events) = (f e).toList ++ List.filterMap f events := by
      intro f e events
      rw [List.filterMap_cons]
      cases f e <;> rfl
    simp only [play_cons, hfilterMap]
    rw [← List.append_assoc, enqueued_answer, List.append_assoc, ih, List.append_assoc]

/-! ## A push is refused

It changes nothing. -/

/-- **A push is refused for a new key when the queue is full**, and for no other. -/
theorem push_refused_iff (hq : q.Orderly) :
    (q.push id).1.accepted = false ↔ id ∉ q.pending ∧ id ∉ q.active ∧
    q.capacity ≤ q.pending.length := by
  rw [hq.pending, ← Std.ExtTreeSet.contains_iff_mem, ← Std.ExtTreeSet.contains_iff_mem]
  unfold push
  split
  · next hqueued => simp [PushOutcome.accepted, hqueued]
  · next hqueued =>
    split
    · next hactive => simp [PushOutcome.accepted, hactive]
    · next hactive =>
      split
      · next hfull => simp [PushOutcome.accepted, hqueued, hactive, hfull]
      · next hfull => simp [PushOutcome.accepted, hfull]

theorem push_of_refused (h : (q.push id).1.accepted = false) : (q.push id).2 = q := by
  rcases q.push_cases id with ⟨-, hpush⟩ | ⟨-, hpush⟩ | hpush | ⟨-, -, hpush⟩
  · rw [hpush]
  · rw [hpush] at h
    cases h
  · rw [hpush]
  · rw [hpush] at h
    cases h

/-! ## A new queue

It is empty and in order, so all of it holds of its traces. -/

/-- What a queue for `capacity` keys guarantees of the trace that led from a new queue to it. -/
structure Guarantees (capacity : Nat) (events : List Event) (q : Queue) : Prop where
  /-- Between two takings of a key the work on it ended. -/
  once : ∀ before between after id,
    events = before ++ .popped (some id) :: between ++ .popped (some id) :: after →
      ∃ requeued, .finished id requeued ∈ between
  /-- A key that was accepted and not taken since waits, or is marked while it is worked on. -/
  due : ∀ before since id outcome, events = before ++ .pushed id outcome :: since →
    outcome.accepted = true → .popped (some id) ∉ since →
      id ∈ q.pending ∨ id ∈ q.active ∧ id ∈ q.dirty
  /-- Where nothing was left to take and nothing is worked on, a key that was accepted was taken
  since. -/
  taken : ∀ before since id outcome, events = before ++ .pushed id outcome :: since →
    outcome.accepted = true → events.getLast? = some (.popped none) → q.active = ∅ →
      .popped (some id) ∈ since
  /-- The keys were taken in the order in which they came to the end. -/
  ordered : events.filterMap Event.enqueued = events.filterMap Event.taken ++ q.pending
  nodup : q.pending.Nodup
  /-- A push would be refused exactly for a new key, when the queue is full. -/
  refused : ∀ id, (q.push id).1.accepted = false ↔
    id ∉ q.pending ∧ id ∉ q.active ∧ max capacity 1 ≤ q.pending.length
  unchanged : ∀ id, (q.push id).1.accepted = false → (q.push id).2 = q

/-- **A new queue keeps its guarantees whatever is called on it.** -/
theorem guarantees_play (capacity : Nat) (calls : List Call) :
    Guarantees capacity ((ofCapacity capacity).play calls).1
      ((ofCapacity capacity).play calls).2 := by
  have hnew := orderly_ofCapacity capacity
  have hq := hnew.play calls
  have hcapacity := capacity_play (ofCapacity capacity) calls
  exact
    { once := fun _ _ _ _ h => handed_out_once hnew h
      due := fun _ _ _ _ h haccepted hkept => hq.due_iff.1 (due_since_push hnew haccepted h hkept)
      taken := fun _ since id _ h haccepted hnone hactive => by
        refine Classical.byContradiction fun hkept => ?_
        -- the key would still be due, with nothing that waits and nothing that is worked on
        rcases hq.due_iff.1 (due_since_push hnew haccepted h hkept) with hpending | ⟨hid, -⟩
        · rw [pending_of_popped_none hnone] at hpending
          cases hpending
        · rw [hactive] at hid
          exact Std.ExtTreeSet.not_mem_empty hid
      ordered := enqueued_play (ofCapacity capacity) calls
      nodup := hq.nodup
      refused := fun id => by
        show _ ↔ _ ∧ _ ∧ (ofCapacity capacity).capacity ≤ _
        rw [← hcapacity]
        exact push_refused_iff hq
      unchanged := fun _ => push_of_refused }

/-- A key that is pushed while it is worked on is taken again after that work has ended. -/
theorem guarantees_play_pushed_while_active :
    (∃ requeued, Event.finished ⟨"default", "a"⟩ requeued ∈
      [Event.pushed ⟨"default", "a"⟩ .marked, .finished ⟨"default", "a"⟩ true,
        .pushed ⟨"default", "b"⟩ .refused]) ∧
    Event.popped (some ⟨"default", "a"⟩) ∈
      [Event.finished ⟨"default", "a"⟩ true, .pushed ⟨"default", "b"⟩ .refused,
        .popped (some ⟨"default", "a"⟩), .finished ⟨"default", "a"⟩ false, .popped none] := by
  have hrun := guarantees_play 1 [.push ⟨"default", "a"⟩, .tryPop, .push ⟨"default", "a"⟩,
    .done ⟨"default", "a"⟩, .push ⟨"default", "b"⟩, .tryPop, .done ⟨"default", "a"⟩, .tryPop]
  constructor
  · exact hrun.once [.pushed ⟨"default", "a"⟩ .enqueued] _
      [.finished ⟨"default", "a"⟩ false, .popped none] _ (by decide)
  · exact hrun.taken [.pushed ⟨"default", "a"⟩ .enqueued, .popped (some ⟨"default", "a"⟩)]
      _ _ .marked (by decide) rfl (by decide) (Std.ExtTreeSet.isEmpty_iff.1 (by decide))

end Queue

end MeshLimiter
