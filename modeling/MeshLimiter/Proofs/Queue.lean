import MeshLimiter.Queue
/-!
# What the work queue does with a key

A key that is pushed is taken afterwards, unless the push is refused: it waits, or it is marked to
wait again once the work on it has ended.

* **`Queue.Orderly`**: how the parts of a queue belong together, which no operation changes;
* **`Queue.Due`**: a key waits, or will;
* **`Queue.due_push`**: a key that is accepted is due;
* **`Queue.Orderly.not_due`**: a queue in which no key waits and none is worked on owes nothing.
-/

namespace MeshLimiter

theorem IdSet.mem_insert {s : IdSet} {k id : ResourceId} : id ∈ s.insert k ↔ k = id ∨ id ∈ s := by
  rw [Std.ExtTreeSet.mem_insert, Std.LawfulEqCmp.compare_eq_iff_eq]

theorem IdSet.mem_erase {s : IdSet} {k id : ResourceId} : id ∈ s.erase k ↔ k ≠ id ∧ id ∈ s := by
  rw [Std.ExtTreeSet.mem_erase, ne_eq, ne_eq, Std.LawfulEqCmp.compare_eq_iff_eq]

namespace Queue

/-- The waiting keys are those of the set, each once. None of them is worked on, but all marked ones
are. -/
structure Orderly (q : Queue) : Prop where
  pending : ∀ id, id ∈ q.pending ↔ id ∈ q.queued
  nodup : q.pending.Nodup
  apart : ∀ id ∈ q.queued, id ∉ q.active
  marked : ∀ id ∈ q.dirty, id ∈ q.active

/-- The key waits, or will once the work on it has ended. -/
def Due (q : Queue) (id : ResourceId) : Prop :=
  id ∈ q.queued ∨ id ∈ q.dirty

variable {q : Queue} {k id : ResourceId}

/-- A new queue has no keys. -/
theorem orderly_ofCapacity (capacity : Nat) : (ofCapacity capacity).Orderly where
  pending id := by simp [ofCapacity]
  nodup := .nil
  apart id h := absurd h Std.ExtTreeSet.not_mem_empty
  marked id h := absurd h Std.ExtTreeSet.not_mem_empty

/-- Where no key waits and none is worked on, none is due. -/
theorem Orderly.not_due (hq : q.Orderly) (hqueued : q.queued = ∅) (hactive : q.active = ∅)
    (id : ResourceId) : ¬ q.Due id := by
  rintro (h | h)
  · rw [hqueued] at h
    exact Std.ExtTreeSet.not_mem_empty h
  · have hid := hq.marked id h
    rw [hactive] at hid
    exact Std.ExtTreeSet.not_mem_empty hid

/-! ## A key is put at the end

It waits from then on. -/

/-- It waits once, and is not worked on. -/
theorem Orderly.enqueue (hq : q.Orderly) (hqueued : id ∉ q.queued) (hactive : id ∉ q.active) :
    (q.enqueue id).Orderly where
  pending k := by
    show k ∈ q.pending ++ [id] ↔ k ∈ q.queued.insert id
    rw [List.mem_append, List.mem_singleton, hq.pending, IdSet.mem_insert, or_comm, eq_comm]
  nodup := by
    show (q.pending ++ [id]).Nodup
    rw [List.nodup_append]
    refine ⟨hq.nodup, List.pairwise_singleton .., fun a ha b hb => ?_⟩
    rw [List.mem_singleton.1 hb]
    rintro rfl
    exact hqueued ((hq.pending a).1 ha)
  apart k hk := by
    rcases IdSet.mem_insert.1 hk with rfl | hk
    · exact hactive
    · exact hq.apart k hk
  marked := hq.marked

theorem due_enqueue_self (q : Queue) (id : ResourceId) : (q.enqueue id).Due id :=
  .inl (IdSet.mem_insert.2 (.inl rfl))

theorem Due.enqueue (h : q.Due k) (id : ResourceId) : (q.enqueue id).Due k :=
  h.imp (fun hk => IdSet.mem_insert.2 (.inr hk)) fun hk => hk

/-! ## A key is pushed

There are four cases. It waits already, it is worked on and gets marked, there is no room for it, or
it is put at the end. -/

/-- All that a push can come to. -/
theorem push_cases (q : Queue) (id : ResourceId) :
    (id ∈ q.queued ∧ q.push id = (.alreadyQueued, q)) ∨
    (id ∈ q.active ∧ q.push id = (.marked, { q with dirty := q.dirty.insert id })) ∨
    q.push id = (.refused, q) ∨
    (id ∉ q.queued ∧ id ∉ q.active ∧ q.push id = (.enqueued, q.enqueue id)) := by
  unfold push
  split
  · next hqueued => exact .inl ⟨Std.ExtTreeSet.contains_iff_mem.1 hqueued, rfl⟩
  · next hqueued =>
    split
    · next hactive => exact .inr (.inl ⟨Std.ExtTreeSet.contains_iff_mem.1 hactive, rfl⟩)
    · next hactive =>
      split
      · exact .inr (.inr (.inl rfl))
      · exact .inr (.inr (.inr ⟨mt Std.ExtTreeSet.contains_iff_mem.2 hqueued,
          mt Std.ExtTreeSet.contains_iff_mem.2 hactive, rfl⟩))

/-- Each of the cases keeps the queue in order. -/
theorem Orderly.push (hq : q.Orderly) (id : ResourceId) : (q.push id).2.Orderly := by
  rcases q.push_cases id with ⟨-, h⟩ | ⟨hactive, h⟩ | h | ⟨hqueued, hactive, h⟩
  · rw [h]
    exact hq
  · rw [h]
    refine { hq with marked := fun k hk => ?_ }
    rcases IdSet.mem_insert.1 hk with rfl | hk
    · exact hactive
    · exact hq.marked k hk
  · rw [h]
    exact hq
  · rw [h]
    exact hq.enqueue hqueued hactive

/-- **A key that is accepted is due.** -/
theorem due_push (h : (q.push id).1.accepted = true) : (q.push id).2.Due id := by
  rcases q.push_cases id with ⟨hqueued, hpush⟩ | ⟨-, hpush⟩ | hpush | ⟨-, -, hpush⟩
  · rw [hpush]
    exact .inl hqueued
  · rw [hpush]
    exact .inr (IdSet.mem_insert.2 (.inl rfl))
  · rw [hpush] at h
    cases h
  · rw [hpush]
    exact due_enqueue_self q id

/-- A key that is due stays so when another is pushed. -/
theorem Due.push (h : q.Due k) (id : ResourceId) : (q.push id).2.Due k := by
  rcases q.push_cases id with ⟨-, hpush⟩ | ⟨-, hpush⟩ | hpush | ⟨-, -, hpush⟩
  · rw [hpush]
    exact h
  · rw [hpush]
    exact h.imp (fun hk => hk) fun hk => IdSet.mem_insert.2 (.inr hk)
  · rw [hpush]
    exact h
  · rw [hpush]
    exact h.enqueue id

/-- What is worked on does not depend on what is pushed. -/
theorem active_push (q : Queue) (id : ResourceId) : (q.push id).2.active = q.active := by
  rcases q.push_cases id with ⟨-, h⟩ | ⟨-, h⟩ | h | ⟨-, -, h⟩
  all_goals exact congrArg (fun r => r.2.active) h

/-! ## Keys are pushed one after another

Those that are accepted are due. -/

variable {ids : List ResourceId}

theorem pushAll_append (q : Queue) (ids more : List ResourceId) :
    q.pushAll (ids ++ more) = (q.pushAll ids).pushAll more :=
  List.foldl_append

/-- What was due before is due after all pushes. -/
theorem Due.pushAll (h : q.Due id) (ids : List ResourceId) : (q.pushAll ids).Due id := by
  induction ids generalizing q with
  | nil => exact h
  | cons k ids ih => exact ih (h.push k)

theorem Orderly.pushAll (h : q.Orderly) (ids : List ResourceId) : (q.pushAll ids).Orderly := by
  induction ids generalizing q with
  | nil => exact h
  | cons k ids ih => exact ih (h.push k)

/-- To push is not to take. -/
theorem active_pushAll (q : Queue) (ids : List ResourceId) : (q.pushAll ids).active = q.active := by
  induction ids generalizing q with
  | nil => rfl
  | cons k ids ih => exact (ih (q.push k).2).trans (q.active_push k)

/-- Whether keys that are pushed in order are all accepted. -/
def accepts (q : Queue) : List ResourceId → Bool
  | [] => true
  | id :: ids => (q.push id).1.accepted && (q.push id).2.accepts ids

/-- If all were accepted, all are due. -/
theorem due_of_accepts (h : q.accepts ids = true) (hid : id ∈ ids) : (q.pushAll ids).Due id := by
  induction ids generalizing q with
  | nil => cases hid
  | cons k ids ih =>
    obtain ⟨hpush, hrest⟩ := Bool.and_eq_true_iff.1 h
    rcases List.mem_cons.1 hid with rfl | hid
    · exact (due_push hpush).pushAll ids
    · exact ih hrest hid

/-! ## A key is taken

It is the first one, and it is worked on from then on. -/

/-- Without a key nothing happens. -/
theorem tryPop_of_none (h : q.tryPop.1 = none) : q.tryPop.2 = q := by
  unfold tryPop at h ⊢
  split
  · rfl
  · next heq =>
    rw [heq] at h
    cases h

/-- Where nothing is taken, no key waits. -/
theorem pending_of_tryPop_none (h : q.tryPop.1 = none) : q.tryPop.2.pending = [] := by
  rw [tryPop_of_none h]
  unfold tryPop at h
  split at h
  · next hpending => exact hpending
  · cases h

/-- All that taking a key can come to. -/
theorem tryPop_cases (hq : q.Orderly) :
    q.tryPop = (none, q) ∨ ∃ id q', q.tryPop = (some id, q') ∧ id ∉ q.active ∧ q'.Orderly ∧
      q'.active = q.active.insert id ∧ ∀ k, q.Due k → k = id ∨ q'.Due k := by
  unfold tryPop
  split
  · exact .inl rfl
  · next id rest hpending =>
    have hid : id ∈ q.queued := (hq.pending id).1 (by rw [hpending]; exact List.mem_cons_self)
    have hnodup := hq.nodup
    rw [hpending, List.nodup_cons] at hnodup
    refine .inr ⟨id, _, rfl, hq.apart id hid, ?_, rfl, fun k hk => ?_⟩
    · -- the set loses the key, the list its first
      exact
        { pending := fun k => by
            show k ∈ rest ↔ k ∈ q.queued.erase id
            rw [IdSet.mem_erase, ← hq.pending, hpending, List.mem_cons]
            constructor
            · intro hk
              exact ⟨fun heq => hnodup.1 (heq ▸ hk), .inr hk⟩
            · rintro ⟨hne, heq | hk⟩
              · exact absurd heq.symm hne
              · exact hk
          nodup := hnodup.2
          apart := fun k hk hactive => by
            obtain ⟨hne, hk⟩ := IdSet.mem_erase.1 hk
            rcases IdSet.mem_insert.1 hactive with heq | hactive
            · exact hne heq
            · exact hq.apart k hk hactive
          marked := fun k hk => IdSet.mem_insert.2 (.inr (hq.marked k hk)) }
    · by_cases heq : k = id
      · exact .inl heq
      · exact .inr (hk.imp (fun hk => IdSet.mem_erase.2 ⟨fun h => heq h.symm, hk⟩) fun hk => hk)

/-! ## The work on a key ends

If it was marked meanwhile, it waits again. -/

/-- Either way the queue is in order. -/
theorem Orderly.done (hq : q.Orderly) (id : ResourceId) : (q.done id).2.Orderly := by
  have herased :
      ({ q with active := q.active.erase id, dirty := q.dirty.erase id } : Queue).Orderly :=
    { pending := hq.pending
      nodup := hq.nodup
      apart := fun k hk hactive => hq.apart k hk (IdSet.mem_erase.1 hactive).2
      marked := fun k hk => by
        obtain ⟨hne, hk⟩ := IdSet.mem_erase.1 hk
        exact IdSet.mem_erase.2 ⟨hne, hq.marked k hk⟩ }
  unfold Queue.done
  dsimp only
  split
  · next hdirty =>
    -- a marked key was worked on, so it did not wait
    have hactive := hq.marked id (Std.ExtTreeSet.contains_iff_mem.1 hdirty)
    exact herased.enqueue (fun hqueued => hq.apart id hqueued hactive)
      fun h => (IdSet.mem_erase.1 h).1 rfl
  · exact herased

/-- A key that was due is due, be it as one that waits. -/
theorem Due.done (h : q.Due k) (id : ResourceId) : (q.done id).2.Due k := by
  unfold Queue.done
  dsimp only
  split
  · by_cases heq : k = id
    · rw [heq]
      exact due_enqueue_self _ id
    · have herased : ({ q with active := q.active.erase id, dirty := q.dirty.erase id } : Queue).Due
        k :=
        h.imp (fun hk => hk) fun hk => IdSet.mem_erase.2 ⟨fun hid => heq hid.symm, hk⟩
      exact herased.enqueue id
  · next hdirty =>
    refine h.imp (fun hk => hk) fun hk => IdSet.mem_erase.2 ⟨?_, hk⟩
    rintro rfl
    exact hdirty (Std.ExtTreeSet.contains_iff_mem.2 hk)

theorem active_done (q : Queue) (id : ResourceId) : (q.done id).2.active = q.active.erase id := by
  unfold Queue.done
  dsimp only
  split <;> rfl

end Queue

end MeshLimiter
