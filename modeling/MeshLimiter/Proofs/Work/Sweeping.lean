import Mathlib.Data.List.Perm.Subperm
import MeshLimiter.Proofs.Pass.History
import MeshLimiter.Proofs.Queue.Traces
import MeshLimiter.Work.Round
/-!
# Sweeps over the limiters of interest

The ticker pushes all limiters of interest on the metric queue, in their order, and takes no note of
pushes that are refused. As long as nobody takes a key, a queue accepts as many different keys as it
has room for. So of more limiters than that it is always the last ones that are left out.

* **`Queue.pending_pushAll`**: the keys that wait once keys were pushed and none was taken;
* **`Sweeping.Pushing`**: the ticker pushes, while others may push, too;
* **`Sweeping.Sweeps`**: sweeps, after each of which the consumer takes and finishes all keys;
* **`Sweeping.taken_iff`**: which limiters are taken after a sweep, and when that is all of them.
-/

namespace MeshLimiter

namespace Queue

variable {q : Queue} {calls : List Call} {k id : ResourceId}

/-- Pushing keys leaves the room as it is. -/
theorem capacity_pushAll (q : Queue) (ids : List ResourceId) :
    (q.pushAll ids).capacity = q.capacity := by
  induction ids generalizing q with
  | nil => rfl
  | cons id ids ih => exact (ih _).trans (q.capacity_answer (.push id))

/-- **While no key is worked on, keys are accepted as long as there is room**, each once. -/
theorem pending_pushAll (hq : q.Orderly) (hactive : q.active = ∅) (ids : List ResourceId) :
    (q.pushAll ids).pending = q.pending ++
      ((ids.filter (· ∉ q.pending)).eraseDups.take (q.capacity - q.pending.length)) := by
  induction ids generalizing q with
  | nil => simp [pushAll]
  | cons k ids ih =>
    have hstep : q.pushAll (k :: ids) = (q.push k).2.pushAll ids := rfl
    have hidle : (q.push k).2.active = ∅ := (active_push q k).trans hactive
    rw [hstep, ih (hq.push k) hidle]
    by_cases hk : k ∈ q.pending
    · -- the key waits already
      have hsame : (q.push k).2 = q := by
        rw [push, if_pos (Std.ExtTreeSet.contains_iff_mem.2 ((hq.pending k).1 hk))]
      rw [hsame, List.filter_cons_of_neg (by simpa using hk)]
    · have hqueued : ¬ q.queued.contains k = true := by
        rw [Std.ExtTreeSet.contains_iff_mem, ← hq.pending]
        exact hk
      have hfree : ¬ q.active.contains k = true := by
        rw [hactive]
        simp
      rw [List.filter_cons_of_pos (by simpa using hk), List.eraseDups_cons]
      by_cases hfull : q.capacity ≤ q.pending.length
      · -- there is no room, for this key or a later one
        have hsame : (q.push k).2 = q := by
          rw [push, if_neg hqueued, if_neg hfree, if_pos hfull]
        rw [hsame, Nat.sub_eq_zero_of_le hfull, List.take_zero, List.take_zero]
      · have hput : (q.push k).2 = q.enqueue k := by
          rw [push, if_neg hqueued, if_neg hfree, if_neg hfull]
        have hroom : q.capacity - q.pending.length
            = q.capacity - (q.pending.length + 1) + 1 := by omega
        have hrest : ids.filter (· ∉ q.pending ++ [k])
            = (ids.filter (· ∉ q.pending)).filter fun b => !b == k := by
          rw [List.filter_filter]
          refine List.filter_congr fun b _ => ?_
          simp [beq_eq_decide, and_comm]
        rw [hput]
        show (q.pending ++ [k]) ++ ((ids.filter (· ∉ q.pending ++ [k])).eraseDups.take
          (q.capacity - (q.pending ++ [k]).length)) = _
        rw [hrest, hroom, List.take_succ_cons, List.append_assoc, List.length_append]
        rfl

/-- A key is marked because it was pushed while it was worked on. -/
theorem marked_of_play (h : .finished id true ∈ (q.play calls).1) :
    id ∈ q.dirty ∨ .pushed id .marked ∈ (q.play calls).1 := by
  induction calls generalizing q with
  | nil => cases h
  | cons c calls ih =>
    rw [play_cons] at h ⊢
    rcases List.mem_cons.1 h with hfirst | hrest
    · cases c with
      | push | tryPop => cases hfirst
      | done k =>
        obtain ⟨rfl, hrequeued⟩ := Event.finished.inj hfirst
        refine .inl (Std.ExtTreeSet.contains_iff_mem.1 ?_)
        by_cases hdirty : q.dirty.contains id = true
        · exact hdirty
        · rw [done, if_neg hdirty] at hrequeued
          cases hrequeued
    · refine (ih hrest).elim (fun hdirty => ?_) fun hpushed => .inr (List.mem_cons_of_mem _ hpushed)
      -- the first call has marked the key, or it was marked before
      cases c with
      | push k =>
        have hdirty : id ∈ (q.push k).2.dirty := hdirty
        rcases q.push_cases k with ⟨-, hpush⟩ | ⟨-, hpush⟩ | hpush | ⟨-, -, hpush⟩
        · rw [hpush] at hdirty
          exact .inl hdirty
        · rw [hpush] at hdirty
          refine (IdSet.mem_insert.1 hdirty).elim (fun heq => .inr ?_) .inl
          rw [← heq]
          show Event.pushed k .marked ∈ Event.pushed k (q.push k).1 :: _
          rw [hpush]
          exact List.mem_cons_self
        · rw [hpush] at hdirty
          exact .inl hdirty
        · rw [hpush] at hdirty
          exact .inl hdirty
      | tryPop =>
        have hdirty : id ∈ q.tryPop.2.dirty := hdirty
        unfold Queue.tryPop at hdirty
        split at hdirty <;> exact .inl hdirty
      | done k =>
        have hdirty : id ∈ (q.done k).2.dirty := hdirty
        unfold Queue.done at hdirty
        dsimp only at hdirty
        split at hdirty <;> exact .inl (IdSet.mem_erase.1 hdirty).2

end Queue

namespace Sweeping

/-- How a program pushes keys on the metric queue, and the keys that are pushed meanwhile, by it and
by others. Nobody takes a key. -/
inductive Pushing : Program Unit → World → List ResourceId → World → Prop where
  | done {w : World} : Pushing (.done ()) w [] w
  | own {id : ResourceId} {ids : List ResourceId} {next : Queue.PushOutcome → Program Unit}
      {w w' : World}
    (rest : Pushing (next (w.perform (.push .metric id)).1)
      (w.perform (.push .metric id)).2 ids w') :
    Pushing (.ask (.step (.push .metric id)) next) w (id :: ids) w'
  | other {p : Program Unit} {id : ResourceId} {ids : List ResourceId} {w v w' : World}
    (pushed : v.queue .metric = ((w.queue .metric).push id).2) (rest : Pushing p v ids w') :
    Pushing p w (id :: ids) w'
  | aside {p : Program Unit} {ids : List ResourceId} {w v w' : World}
    (same : v.queue .metric = w.queue .metric) (rest : Pushing p v ids w') : Pushing p w ids w'

/-- The queue has got the keys one after another. -/
theorem Pushing.queue_eq {p : Program Unit} {ids : List ResourceId} {w w' : World}
    (h : Pushing p w ids w') : w'.queue .metric = (w.queue .metric).pushAll ids := by
  induction h with
  | done => rfl
  | own _ ih => exact ih
  | other pushed _ ih =>
    rw [ih, pushed]
    rfl
  | aside same _ ih => rw [ih, same]

/-- **The ticker pushes all limiters of interest**, in their order. -/
theorem Pushing.sublist {ids pushed : List ResourceId} {w w' : World}
    (h : Pushing (Round.pushAll ids) w pushed w') : ids.Sublist pushed := by
  -- along the program, of which each step pushes one key
  generalize hp : Round.pushAll ids = p at h
  induction h generalizing ids with
  | done =>
    cases ids with
    | nil => exact List.Sublist.refl _
    | cons => cases hp
  | own _ ih =>
    cases ids with
    | nil => cases hp
    | cons id ids =>
      cases hp
      exact (ih rfl).cons_cons _
  | other _ _ ih => exact (ih hp).cons _
  | aside _ _ ih => exact ih hp

/-- An iteration of the ticker, and what comes up to the next one. -/
structure Sweep where
  /-- The world when the ticker asks for the limiters of interest. -/
  before : World
  /-- The keys that are pushed while it pushes them. -/
  pushed : List ResourceId
  /-- The world after it has pushed them. -/
  after : World
  /-- What is called on the metric queue after that. -/
  calls : List Queue.Call

namespace Sweep

/-- The ticker pushes what it has asked for. -/
def Pushes (x : Sweep) : Prop :=
  Pushing (Round.pushAll x.before.indexes.interest.toList) x.before x.pushed x.after

/-- The queue after the iteration. -/
def swept (x : Sweep) : Queue :=
  x.after.queue .metric

/-- What is called after the iteration, and what it gives. -/
def events (x : Sweep) : List Queue.Event :=
  (x.swept.play x.calls).1

/-- The queue before the next iteration. -/
def rest (x : Sweep) : Queue :=
  (x.swept.play x.calls).2

/-- Nobody pushes a key but the ticker. -/
structure Alone (x : Sweep) : Prop where
  pushed : x.pushed = x.before.indexes.interest.toList
  quiet : ∀ id outcome, .pushed id outcome ∉ x.events

end Sweep

/-- Sweeps from a new queue on, with the queue after them. After each, all keys are taken and
finished; anything else may change in between. -/
inductive Sweeps (capacity : Nat) : List Sweep → Queue → Prop where
  | none : Sweeps capacity [] (.ofCapacity capacity)
  | snoc {xs : List Sweep} {x : Sweep} (prior : Sweeps capacity xs (x.before.queue .metric))
    (pushes : x.Pushes) (taken : x.rest.pending = []) (finished : x.rest.active = ∅) :
    Sweeps capacity (xs ++ [x]) x.rest

/-- A queue in which no key waits and none is worked on. -/
structure Idle (capacity : Nat) (q : Queue) : Prop where
  orderly : q.Orderly
  pending : q.pending = []
  active : q.active = ∅
  capacity : q.capacity = max capacity 1

variable {capacity : Nat} {xs : List Sweep} {x : Sweep} {q : Queue} {id : ResourceId}

/-- Where no key waits, none is due. -/
theorem Idle.not_due (h : Idle capacity q) (id : ResourceId) : ¬ q.Due id := by
  rintro (hqueued | hdirty)
  · have hpending := (h.orderly.pending id).2 hqueued
    rw [h.pending] at hpending
    cases hpending
  · have hactive := h.orderly.marked id hdirty
    rw [h.active] at hactive
    exact Std.ExtTreeSet.not_mem_empty hactive

/-- After each sweep the queue is idle. -/
theorem Sweeps.idle (h : Sweeps capacity xs q) : Idle capacity q := by
  induction h with
  | none => exact ⟨Queue.orderly_ofCapacity capacity, rfl, rfl, rfl⟩
  | @snoc xs x prior pushes taken finished ih =>
    rw [Sweep.rest, Sweep.swept, Pushing.queue_eq pushes] at *
    exact ⟨(ih.orderly.pushAll _).play _, taken, finished,
      by rw [Queue.capacity_play, Queue.capacity_pushAll, ih.capacity]⟩

/-- Each sweep starts from an idle queue and leaves one behind. -/
theorem Sweeps.of_mem (h : Sweeps capacity xs q) (hx : x ∈ xs) :
    Idle capacity (x.before.queue .metric) ∧ x.Pushes ∧ Idle capacity x.rest := by
  induction h with
  | none => cases hx
  | @snoc ys y prior pushes taken finished ih =>
    rcases List.mem_append.1 hx with hx | hx
    · exact ih hx
    · rw [List.mem_singleton.1 hx]
      exact ⟨prior.idle, pushes, (Sweeps.snoc prior pushes taken finished).idle⟩

/-! ## Which keys are taken

Those that wait after a sweep, in their order: as many different keys as there is room for. -/

/-- The queue is in order after the ticker has pushed. -/
theorem orderly_swept (h : Idle capacity (x.before.queue .metric)) (hpushes : x.Pushes) :
    x.swept.Orderly := by
  rw [Sweep.swept, Pushing.queue_eq hpushes]
  exact h.orderly.pushAll _

/-- The first different keys wait, as many as there is room for. -/
theorem pending_swept (h : Idle capacity (x.before.queue .metric)) (hpushes : x.Pushes) :
    x.swept.pending = x.pushed.eraseDups.take (max capacity 1) := by
  rw [Sweep.swept, Pushing.queue_eq hpushes, Queue.pending_pushAll h.orderly h.active, h.pending,
    h.capacity, List.nil_append, List.filter_eq_self.2 fun _ _ => decide_eq_true List.not_mem_nil]
  rfl

/-- None of them is worked on yet. -/
theorem active_swept (h : Idle capacity (x.before.queue .metric)) (hpushes : x.Pushes) :
    x.swept.active = ∅ := by
  rw [Sweep.swept, Pushing.queue_eq hpushes, Queue.active_pushAll]
  exact h.active

/-- A key is taken if it waited, or was accepted since. -/
theorem taken_of (hbefore : Idle capacity (x.before.queue .metric)) (hpushes : x.Pushes)
    (hafter : Idle capacity x.rest)
    (h : id ∈ x.pushed.eraseDups.take (max capacity 1) ∨
      ∃ outcome, outcome.accepted = true ∧ .pushed id outcome ∈ x.events) :
    .popped (some id) ∈ x.events := by
  have hswept := orderly_swept hbefore hpushes
  refine Classical.byContradiction fun hkept => hafter.not_due id ?_
  rcases h with hmem | ⟨outcome, haccepted, hpushed⟩
  · rw [← pending_swept hbefore hpushes] at hmem
    exact Queue.Due.play hswept (.inl ((hswept.pending id).1 hmem)) hkept
  · obtain ⟨before, after, hevents⟩ := List.append_of_mem hpushed
    refine Queue.due_since_push hswept haccepted hevents fun hpopped => hkept ?_
    rw [hevents]
    exact List.mem_append_right _ (List.mem_cons_of_mem _ hpopped)

/-- What is taken came to the end of the queue before. -/
theorem of_taken (hbefore : Idle capacity (x.before.queue .metric)) (hpushes : x.Pushes)
    (h : .popped (some id) ∈ x.events) : id ∈ x.pushed.eraseDups.take (max capacity 1) ∨
      ∃ outcome, outcome.accepted = true ∧ .pushed id outcome ∈ x.events := by
  have hswept := orderly_swept hbefore hpushes
  have htaken : id ∈ x.events.filterMap Queue.Event.taken := List.mem_filterMap.2 ⟨_, h, rfl⟩
  have hmem := List.mem_append_left x.rest.pending htaken
  rw [Sweep.rest, Sweep.events, ← Queue.enqueued_play, pending_swept hbefore hpushes] at hmem
  refine (List.mem_append.1 hmem).imp_right fun hmem => ?_
  obtain ⟨event, hevent, hid⟩ := List.mem_filterMap.1 hmem
  cases event with
  | popped taken => cases hid
  | pushed k outcome =>
    cases outcome with
    | enqueued =>
      obtain rfl := Option.some.inj hid
      exact ⟨_, rfl, hevent⟩
    | _ => cases hid
  | finished k requeued =>
    cases requeued with
    | false => cases hid
    | true =>
      -- it came to the end because it was pushed while it was worked on
      obtain rfl := Option.some.inj hid
      refine (Queue.marked_of_play hevent).elim (fun hdirty => ?_) fun hpushed => ⟨_, rfl, hpushed⟩
      have hactive := hswept.marked _ hdirty
      rw [active_swept hbefore hpushes] at hactive
      exact absurd hactive Std.ExtTreeSet.not_mem_empty

theorem nodup_toList (s : IdSet) : s.toList.Nodup :=
  s.distinct_toList.imp fun h heq => h (Std.LawfulEqCmp.compare_eq_iff_eq.2 heq)

/-- Among different keys none is left out. -/
theorem eraseDups_of_nodup {ids : List ResourceId} (h : ids.Nodup) : ids.eraseDups = ids := by
  induction ids with
  | nil => rfl
  | cons k ids ih =>
    obtain ⟨hk, hids⟩ := List.nodup_cons.1 h
    rw [List.eraseDups_cons, List.filter_eq_self.2, ih hids]
    intro b hb
    have hne : b ≠ k := by
      rintro rfl
      exact hk hb
    simp [hne]

/-- **Which limiters a sweep reaches.** After an iteration of the ticker a key is taken before the
next one exactly if it is among the first different keys pushed during the iteration for which the
queue has room, or is accepted once more afterwards. So if nobody else pushes keys, all limiters of
interest are taken exactly if the queue has room for all of them. -/
theorem taken_iff (h : Sweeps capacity xs q) (hx : x ∈ xs) :
    (∀ id, .popped (some id) ∈ x.events ↔ id ∈ x.pushed.eraseDups.take (max capacity 1) ∨
      ∃ outcome, outcome.accepted = true ∧ .pushed id outcome ∈ x.events) ∧
    (x.Alone → ((∀ id ∈ x.before.indexes.interest, .popped (some id) ∈ x.events) ↔
      x.before.indexes.interest.size ≤ max capacity 1)) := by
  obtain ⟨hbefore, hpushes, hafter⟩ := h.of_mem hx
  have htaken : ∀ id, .popped (some id) ∈ x.events ↔ id ∈ x.pushed.eraseDups.take (max capacity 1) ∨
      ∃ outcome, outcome.accepted = true ∧ .pushed id outcome ∈ x.events := fun id =>
    ⟨of_taken hbefore hpushes, taken_of hbefore hpushes hafter⟩
  refine ⟨htaken, fun halone => ?_⟩
  have hnodup := nodup_toList x.before.indexes.interest
  have hfirst : ∀ id, .popped (some id) ∈ x.events ↔
      id ∈ x.before.indexes.interest.toList.take (max capacity 1) := by
    intro id
    rw [htaken, halone.pushed, eraseDups_of_nodup hnodup]
    exact or_iff_left fun ⟨outcome, _, hpushed⟩ => halone.quiet id outcome hpushed
  rw [← Std.ExtTreeSet.length_toList]
  constructor
  · intro hall
    -- all of them are among the first, so there are no more than these
    have hsubset : x.before.indexes.interest.toList ⊆
        x.before.indexes.interest.toList.take (max capacity 1) := fun id hid =>
      (hfirst id).1 (hall id (Std.ExtTreeSet.mem_toList.1 hid))
    have hlength := (List.subperm_of_subset hnodup hsubset).length_le
    rw [List.length_take] at hlength
    omega
  · intro hroom id hid
    rw [hfirst, List.take_of_length_le hroom]
    exact Std.ExtTreeSet.mem_toList.2 hid

/-! ## Two limiters and room for one

Each period the second limiter is refused, and the consumer takes only the first. -/

def ratings : ResourceId := { ns := "default", name := "ratings" }

/-- Two limiters of interest, and a metric queue with room for one key. -/
def twoOfInterest : World :=
  { indexes :=
      { Indexes.empty defaultClusterDomain 64 1 with
        interest := ((∅ : IdSet).insert Pass.reviews).insert ratings } }

/-- The ticker pushes both, and the consumer takes and finishes what it finds. -/
def secondLeftOut (before : World) : Sweep :=
  { before
    pushed := [ratings, Pass.reviews]
    after := ((Round.pushAll [ratings, Pass.reviews]).runAlone before).2
    calls := [.tryPop, .done ratings, .tryPop] }

def firstSweep : Sweep :=
  secondLeftOut twoOfInterest

/-- The next sweep, with the queue as the first one left it. -/
def secondSweep : Sweep :=
  secondLeftOut (twoOfInterest.setQueue .metric firstSweep.rest)

/-- The two sweeps follow one another. -/
theorem sweeps_twice : Sweeps 1 [firstSweep, secondSweep] secondSweep.rest := by
  have hpushes : ∀ before, Pushing (Round.pushAll [ratings, Pass.reviews]) before
      [ratings, Pass.reviews] (secondLeftOut before).after := fun before => .own (.own .done)
  have hfirst : Sweeps 1 ([] ++ [firstSweep]) firstSweep.rest :=
    .snoc .none (hpushes _) (by decide) (by decide)
  have hsecond : Sweeps 1 ([firstSweep] ++ [secondSweep]) secondSweep.rest :=
    .snoc hfirst (hpushes _) (by decide) (by decide)
  exact hsecond

/-- The second one takes the first limiter, as it did before. -/
theorem events_secondSweep : secondSweep.events =
    [.popped (some ratings), .finished ratings false, .popped none] := by
  decide

/-- Nobody pushes but the ticker. -/
theorem alone_secondSweep : secondSweep.Alone where
  pushed := by decide
  quiet := by
    rw [events_secondSweep]
    simp

/-- With room for one key, the second limiter is left out each time. -/
theorem taken_iff_roomForOne :
    Sweeps 1 [firstSweep, secondSweep] secondSweep.rest ∧ secondSweep.Alone ∧
      .popped (some ratings) ∈ secondSweep.events ∧
      ¬ ∀ id ∈ secondSweep.before.indexes.interest, .popped (some id) ∈ secondSweep.events := by
  obtain ⟨htaken, hall⟩ := taken_iff sweeps_twice (by simp : secondSweep ∈ _)
  refine ⟨sweeps_twice, alone_secondSweep, (htaken ratings).2 (.inl (by decide)), ?_⟩
  rw [hall alone_secondSweep]
  decide

/-- A limiter of interest may not be taken for as long as it is of interest. -/
theorem exists_left_out : ¬ ∀ (capacity : Nat) (xs : List Sweep) (q : Queue), Sweeps capacity xs q →
    ∀ id, (∀ x ∈ xs, id ∈ x.before.indexes.interest) → ∀ x ∈ xs, .popped (some id) ∈ x.events := by
  intro h
  have hinterest : ∀ x ∈ [firstSweep, secondSweep], Pass.reviews ∈ x.before.indexes.interest := by
    decide
  have htaken := h 1 _ _ sweeps_twice Pass.reviews hinterest secondSweep (by simp)
  rw [events_secondSweep] at htaken
  simp [ratings, Pass.reviews] at htaken

end Sweeping

end MeshLimiter
