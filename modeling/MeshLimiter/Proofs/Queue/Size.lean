import MeshLimiter.Proofs.Queue.Traces
/-!
# How much a work queue holds

A full queue refuses new keys, but a key that was marked while it was worked on waits again in any
case. So the capacity alone does not bound what waits. What bounds it is that such a key was worked
on before: the keys that wait and those that are worked on are together at most as many as the
capacity and the most keys that were worked on at once.

* **`Queue.Within`**: at most so many keys are worked on at once, from before some calls until after
  them;
* **`Queue.load`**: the number of keys that wait or are worked on;
* **`Queue.load_answer`**, **`Queue.load_play`**: what a call may add to it, and what a run may;
* **`Queue.Leads`**, **`Queue.exists_filled`**: how a queue comes to hold as much as it may;
* **`Queue.holds_play`**: what a queue holds after every run.
-/

namespace MeshLimiter

namespace IdSet

variable {s : IdSet} {id : ResourceId}

/-- A new key is one more. -/
theorem size_insert_of_not_mem (h : id ∉ s) : (s.insert id).size = s.size + 1 := by
  rw [Std.ExtTreeSet.size_insert, if_neg (mt Std.ExtTreeSet.contains_iff_mem.1 h)]

/-- A key that is taken out is one less. -/
theorem size_erase_add_one (h : id ∈ s) : (s.erase id).size + 1 = s.size := by
  have hne : s.size ≠ 0 := fun h0 =>
    Std.ExtTreeSet.ne_empty_of_mem h (Std.ExtTreeSet.eq_empty_iff_size_eq_zero.2 h0)
  rw [Std.ExtTreeSet.size_erase, if_pos (Std.ExtTreeSet.contains_iff_mem.2 h)]
  omega

/-- What is not empty has a key. -/
theorem exists_mem_of_size {n : Nat} (h : s.size = n + 1) : ∃ id, id ∈ s := by
  refine Classical.byContradiction fun hnone => ?_
  have hempty := Std.ExtTreeSet.eq_empty_iff_forall_not_mem.2 fun id hid => hnone ⟨id, hid⟩
  rw [Std.ExtTreeSet.eq_empty_iff_size_eq_zero.1 hempty] at h
  cases h

end IdSet

namespace Queue

variable {q q' : Queue} {c : Call} {calls : List Call} {id : ResourceId} {n : Nat}

/-! ## The reported length

The gauge is set whenever the list of waiting keys changes, and to its length. -/

/-- A key at the end is reported. -/
theorem depth_enqueue (q : Queue) (id : ResourceId) :
    (q.enqueue id).depth = (q.enqueue id).pending.length := by
  show q.pending.length + 1 = (q.pending ++ [id]).length
  rw [List.length_append, List.length_singleton]

/-- So is whatever a call makes of the queue. -/
theorem depth_answer (h : q.depth = q.pending.length) (c : Call) :
    (q.answer c).2.depth = (q.answer c).2.pending.length := by
  cases c with
  | push id =>
    show (q.push id).2.depth = (q.push id).2.pending.length
    rcases q.push_cases id with ⟨-, hpush⟩ | ⟨-, hpush⟩ | hpush | ⟨-, -, hpush⟩ <;> rw [hpush]
    · exact h
    · exact h
    · exact h
    · -- the depth is counted again only where a key is put in
      exact q.depth_enqueue id
  | tryPop =>
    show q.tryPop.2.depth = q.tryPop.2.pending.length
    unfold Queue.tryPop
    split
    · exact h
    · rfl
  | done id =>
    show (q.done id).2.depth = (q.done id).2.pending.length
    unfold Queue.done
    dsimp only
    split
    · exact depth_enqueue _ id
    · exact h

/-- So it is after any calls. -/
theorem depth_play (h : q.depth = q.pending.length) (calls : List Call) :
    (q.play calls).2.depth = (q.play calls).2.pending.length := by
  induction calls generalizing q with
  | nil => exact h
  | cons c calls ih => exact ih (depth_answer h c)

/-! ## What calls add

A key that waits was pushed, or it was worked on before. Only a push while there is room adds to
those that wait or are worked on. -/

/-- At most `n` keys are worked on at once, before and after each of some calls. -/
def Within (n : Nat) (q : Queue) : List Call → Prop
  | [] => q.active.size ≤ n
  | c :: calls => q.active.size ≤ n ∧ Within n (q.answer c).2 calls

instance decidableWithin (n : Nat) :
    (q : Queue) → (calls : List Call) → Decidable (q.Within n calls)
  | q, [] => inferInstanceAs (Decidable (q.active.size ≤ n))
  | q, c :: calls =>
    have := decidableWithin n (q.answer c).2 calls
    inferInstanceAs (Decidable (q.active.size ≤ n ∧ Within n (q.answer c).2 calls))

/-- That holds before the calls as well. -/
theorem Within.size_le (h : q.Within n calls) : q.active.size ≤ n := by
  cases calls with
  | nil => exact h
  | cons c calls => exact h.1

/-- The number of keys that wait or are worked on. -/
def load (q : Queue) : Nat :=
  q.pending.length + q.active.size

/-- A push adds a key only below the capacity. -/
theorem load_push (q : Queue) (id : ResourceId) :
    (q.push id).2.load ≤ max q.load (q.capacity + q.active.size) := by
  unfold push
  split
  · exact Nat.le_max_left ..
  · split
    · exact Nat.le_max_left ..
    · split
      · exact Nat.le_max_left ..
      · next hroom =>
        show (q.pending ++ [id]).length + q.active.size ≤ _
        rw [List.length_append, List.length_singleton]
        omega

/-- A key that is taken waits no longer. -/
theorem load_tryPop (q : Queue) : q.tryPop.2.load ≤ q.load := by
  unfold tryPop
  split
  · exact Nat.le_refl _
  · next id rest hpending =>
    show rest.length + (q.active.insert id).size ≤ q.pending.length + q.active.size
    rw [hpending, List.length_cons]
    have hinsert := Std.ExtTreeSet.size_insert_le (t := q.active) (k := id)
    omega

/-- A key that waits again is worked on no longer. -/
theorem load_done (hq : q.Orderly) (id : ResourceId) : (q.done id).2.load ≤ q.load := by
  unfold done
  dsimp only
  split
  · next hdirty =>
    have hactive := hq.marked id (Std.ExtTreeSet.contains_iff_mem.1 hdirty)
    show (q.pending ++ [id]).length + (q.active.erase id).size ≤ q.pending.length + q.active.size
    rw [List.length_append, List.length_singleton, ← IdSet.size_erase_add_one hactive]
    omega
  · exact Nat.add_le_add_left Std.ExtTreeSet.size_erase_le _

/-- **What a call may add**: the capacity bounds what waits, unless a key was worked on before. -/
theorem load_answer (hq : q.Orderly) (c : Call) :
    (q.answer c).2.load ≤ max q.load (q.capacity + q.active.size) := by
  cases c with
  | push id => exact q.load_push id
  | tryPop => exact Nat.le_trans q.load_tryPop (Nat.le_max_left ..)
  | done id => exact Nat.le_trans (load_done hq id) (Nat.le_max_left ..)

/-- What a run adds is bounded by capacity and work. -/
theorem load_play (hq : q.Orderly) (h : q.Within n calls) :
    (q.play calls).2.load ≤ max q.load (q.capacity + n) := by
  induction calls generalizing q with
  | nil => exact Nat.le_max_left ..
  | cons c calls ih =>
    obtain ⟨hsize, hrest⟩ := h
    have hstep := load_answer hq c
    have hrun := ih (hq.answer c) hrest
    rw [capacity_answer] at hrun
    show ((q.answer c).2.play calls).2.load ≤ _
    omega

/-! ## As much as it may hold

Keys are taken until as many are worked on as may be. Then the queue is filled up, and those that
are worked on are pushed once more and put back behind it. -/

/-- A run may be cut in two. -/
theorem play_append (q : Queue) (calls more : List Call) :
    (q.play (calls ++ more)).2 = ((q.play calls).2.play more).2 := by
  induction calls generalizing q with
  | nil => rfl
  | cons c calls ih => exact ih (q.answer c).2

theorem Within.append {more : List Call} (h : q.Within n calls)
    (hmore : (q.play calls).2.Within n more) : q.Within n (calls ++ more) := by
  induction calls generalizing q with
  | nil => exact hmore
  | cons c calls ih => exact ⟨h.1, ih h.2 hmore⟩

/-- Some calls lead from one queue to another while at most `n` keys are worked on at once. -/
def Leads (n : Nat) (q q' : Queue) : Prop :=
  ∃ calls, q.Within n calls ∧ (q.play calls).2 = q'

theorem Leads.refl (h : q.active.size ≤ n) : Leads n q q :=
  ⟨[], h, rfl⟩

/-- What leads on may be led on. -/
theorem Leads.trans {r : Queue} (h : Leads n q q') (h' : Leads n q' r) : Leads n q r := by
  obtain ⟨calls, hcalls, rfl⟩ := h
  obtain ⟨more, hmore, rfl⟩ := h'
  exact ⟨calls ++ more, hcalls.append hmore, play_append q calls more⟩

theorem Leads.orderly (h : Leads n q q') (hq : q.Orderly) : q'.Orderly := by
  obtain ⟨calls, -, rfl⟩ := h
  exact hq.play calls

theorem Leads.capacity (h : Leads n q q') : q'.capacity = q.capacity := by
  obtain ⟨calls, -, rfl⟩ := h
  exact capacity_play q calls

theorem Leads.size_le (h : Leads n q q') : q'.active.size ≤ n := by
  obtain ⟨calls, hcalls, rfl⟩ := h
  induction calls generalizing q with
  | nil => exact hcalls
  | cons c calls ih => exact ih hcalls.2

/-- A new key is put at the end if there is room. -/
theorem push_of_room (hq : q.Orderly) (hpending : id ∉ q.pending) (hactive : id ∉ q.active)
    (hroom : q.pending.length < q.capacity) : (q.push id).2 = q.enqueue id := by
  rw [push, if_neg (mt Std.ExtTreeSet.contains_iff_mem.1 (mt (hq.pending id).2 hpending)),
    if_neg (mt Std.ExtTreeSet.contains_iff_mem.1 hactive), if_neg (Nat.not_le.2 hroom)]

/-- A new key is put in while there is room. -/
theorem leads_enqueue (hq : q.Orderly) (hpending : id ∉ q.pending) (hactive : id ∉ q.active)
    (hroom : q.pending.length < q.capacity) (hsize : q.active.size ≤ n) :
    Leads n q (q.enqueue id) := by
  have hpush := push_of_room hq hpending hactive hroom
  refine ⟨[.push id], ⟨hsize, ?_⟩, hpush⟩
  show (q.push id).2.active.size ≤ n
  rw [active_push]
  exact hsize

/-- A key that is new to an empty queue is pushed and taken. -/
theorem exists_leads_taken (hq : q.Orderly) (hpending : q.pending = []) (hcapacity : 0 < q.capacity)
    (hactive : id ∉ q.active) (hsize : q.active.size < n) :
    ∃ q', Leads n q q' ∧ q'.pending = [] ∧ q'.active = q.active.insert id := by
  have hpush : (q.push id).2 = q.enqueue id :=
    push_of_room hq (by rw [hpending]; exact List.not_mem_nil) hactive
      (by rw [hpending]; exact hcapacity)
  -- the key is alone in the queue, so it is the one that is taken
  have htaken : (q.enqueue id).tryPop.2.pending = [] ∧
      (q.enqueue id).tryPop.2.active = q.active.insert id := by
    have hone : (q.enqueue id).pending = [id] := by
      show q.pending ++ [id] = [id]
      rw [hpending, List.nil_append]
    rw [tryPop, hone]
    exact ⟨rfl, rfl⟩
  refine ⟨(q.enqueue id).tryPop.2, ⟨[.push id, .tryPop], ⟨Nat.le_of_lt hsize, ?_, ?_⟩, ?_⟩, htaken⟩
  · show (q.push id).2.active.size ≤ n
    rw [active_push]
    exact Nat.le_of_lt hsize
  · show (q.push id).2.tryPop.2.active.size ≤ n
    rw [hpush, htaken.2, IdSet.size_insert_of_not_mem hactive]
    exact hsize
  · show (q.push id).2.tryPop.2 = _
    rw [hpush]

/-- A key that is worked on is pushed and waits again, full or not. -/
theorem exists_leads_requeued (hq : q.Orderly) (hactive : id ∈ q.active)
    (hsize : q.active.size ≤ n) :
    ∃ q', Leads n q q' ∧ q'.pending = q.pending ++ [id] ∧ q'.active = q.active.erase id := by
  have hqueued : id ∉ q.queued := fun h => hq.apart id h hactive
  have hpush : (q.push id).2 = { q with dirty := q.dirty.insert id } := by
    rw [push, if_neg (mt Std.ExtTreeSet.contains_iff_mem.1 hqueued),
      if_pos (Std.ExtTreeSet.contains_iff_mem.2 hactive)]
  -- the key is worked on, so it is marked
  have hmarked : (q.dirty.insert id).contains id = true :=
    Std.ExtTreeSet.contains_iff_mem.2 (IdSet.mem_insert.2 (.inl rfl))
  have hdone : ((q.push id).2.done id).2.pending = q.pending ++ [id] ∧
      ((q.push id).2.done id).2.active = q.active.erase id := by
    rw [hpush, done]
    dsimp only
    rw [if_pos hmarked]
    exact ⟨rfl, rfl⟩
  refine ⟨((q.push id).2.done id).2, ⟨[.push id, .done id], ⟨hsize, ?_, ?_⟩, rfl⟩, hdone⟩
  · show (q.push id).2.active.size ≤ n
    rw [active_push]
    exact hsize
  · show ((q.push id).2.done id).2.active.size ≤ n
    rw [hdone.2]
    exact Nat.le_trans Std.ExtTreeSet.size_erase_le hsize

/-- Keys that are all different. -/
def key (i : Nat) : ResourceId :=
  { ns := "", name := String.ofList (List.replicate i 'k') }

/-- They differ by their numbers. -/
theorem key_inj {i j : Nat} (h : key i = key j) : i = j := by
  have hname := String.ofList_injective (congrArg ResourceId.name h)
  simpa using congrArg List.length hname

/-- As many keys are worked on as one likes, and none waits. -/
theorem exists_leads_busy (capacity : Nat) {k : Nat} (hk : k ≤ n) :
    ∃ q, Leads n (ofCapacity capacity) q ∧ q.pending = [] ∧ q.active.size = k ∧
      ∀ id ∈ q.active, ∃ i < k, id = key i := by
  -- one key after another is pushed and taken
  induction k with
  | zero =>
    refine ⟨_, .refl (Nat.zero_le n), rfl, rfl, fun id hid =>
      absurd hid Std.ExtTreeSet.not_mem_empty⟩
  | succ k ih =>
    obtain ⟨q, hq, hpending, hsize, hkeys⟩ := ih (Nat.le_of_succ_le hk)
    have hnew : key k ∉ q.active := fun hmem => by
      obtain ⟨i, hi, heq⟩ := hkeys _ hmem
      exact Nat.ne_of_gt hi (key_inj heq)
    have hcapacity : 0 < q.capacity := by
      rw [hq.capacity]
      exact Nat.le_max_right capacity 1
    obtain ⟨q', hq', hpending', hactive'⟩ := exists_leads_taken
      (hq.orderly (orderly_ofCapacity capacity)) hpending hcapacity hnew (by rw [hsize]; exact hk)
    refine ⟨q', hq.trans hq', hpending', ?_, fun id hid => ?_⟩
    · rw [hactive', IdSet.size_insert_of_not_mem hnew, hsize]
    · rw [hactive'] at hid
      rcases IdSet.mem_insert.1 hid with rfl | hid
      · exact ⟨k, Nat.lt_succ_self k, rfl⟩
      · obtain ⟨i, hi, heq⟩ := hkeys id hid
        exact ⟨i, Nat.lt_succ_of_lt hi, heq⟩

/-- Then the queue is filled up. -/
theorem exists_leads_full (capacity n : Nat) {m : Nat} (hm : m ≤ max capacity 1) :
    ∃ q, Leads n (ofCapacity capacity) q ∧ q.pending.length = m ∧ q.active.size = n ∧
      ∀ id, id ∈ q.pending ∨ id ∈ q.active → ∃ i < n + m, id = key i := by
  -- one key after another is pushed, and none is taken
  induction m with
  | zero =>
    obtain ⟨q, hq, hpending, hsize, hkeys⟩ := exists_leads_busy capacity (Nat.le_refl n)
    refine ⟨q, hq, by rw [hpending]; rfl, hsize, fun id hid => hkeys id (hid.resolve_left ?_)⟩
    rw [hpending]
    exact List.not_mem_nil
  | succ m ih =>
    obtain ⟨q, hq, hlength, hsize, hkeys⟩ := ih (Nat.le_of_succ_le hm)
    have hnew : ¬ (key (n + m) ∈ q.pending ∨ key (n + m) ∈ q.active) := fun hmem => by
      obtain ⟨i, hi, heq⟩ := hkeys _ hmem
      exact Nat.ne_of_gt hi (key_inj heq)
    have hroom : q.pending.length < q.capacity := by
      rw [hq.capacity, hlength]
      exact hm
    obtain ⟨hpending, hactive⟩ := not_or.1 hnew
    refine ⟨q.enqueue (key (n + m)), hq.trans
      (leads_enqueue (hq.orderly (orderly_ofCapacity capacity))
      hpending hactive hroom hq.size_le), ?_, hsize, fun id hid => ?_⟩
    · show (q.pending ++ [key (n + m)]).length = m + 1
      rw [List.length_append, hlength, List.length_singleton]
    · by_cases heq : id = key (n + m)
      · exact ⟨n + m, Nat.lt_succ_self _, heq⟩
      · have hold : id ∈ q.pending ∨ id ∈ q.active :=
          hid.imp_left fun h => (List.mem_append.1 h).resolve_right (mt List.mem_singleton.1 heq)
        obtain ⟨i, hi, heq⟩ := hkeys id hold
        exact ⟨i, Nat.lt_succ_of_lt hi, heq⟩

/-- All keys that are worked on are put at the end again, past the capacity. -/
theorem exists_leads_all_requeued (hq : q.Orderly) {k : Nat} (hk : q.active.size = k) (hn : k ≤ n) :
    ∃ q', Leads n q q' ∧ q'.pending.length = q.pending.length + k := by
  induction k generalizing q with
  | zero => exact ⟨q, .refl (by rw [hk]; exact hn), rfl⟩
  | succ k ih =>
    -- one active key after another is marked dirty and released into the queue
    obtain ⟨id, hid⟩ := IdSet.exists_mem_of_size hk
    have hle : q.active.size ≤ n := hk ▸ hn
    obtain ⟨q₁, hq₁, hpending, hactive⟩ := exists_leads_requeued hq hid hle
    have hsize : q₁.active.size = k := by
      have herase := IdSet.size_erase_add_one hid
      rw [hactive]
      omega
    obtain ⟨q₂, hq₂, hlength⟩ := ih (hq₁.orderly hq) hsize (Nat.le_of_succ_le hn)
    refine ⟨q₂, hq₁.trans hq₂, ?_⟩
    rw [hlength, hpending, List.length_append, List.length_singleton]
    omega

/-- **The bound is reached**, even by the keys that wait alone. -/
theorem exists_filled (capacity n : Nat) : ∃ calls, (ofCapacity capacity).Within n calls ∧
    ((ofCapacity capacity).play calls).2.pending.length = max capacity 1 + n := by
  obtain ⟨q, hq, hlength, hsize, -⟩ := exists_leads_full capacity n (Nat.le_refl _)
  obtain ⟨q', hq', hlength'⟩ :=
    exists_leads_all_requeued (hq.orderly (orderly_ofCapacity capacity)) hsize (Nat.le_refl n)
  obtain ⟨calls, hcalls, rfl⟩ := hq.trans hq'
  exact ⟨calls, hcalls, by rw [hlength', hlength]⟩

/-! ## Every run

A new queue is in order, and each call keeps it so. -/

/-- What a queue for `capacity` keys holds after some calls. -/
structure Holds (capacity : Nat) (calls : List Call) (q : Queue) : Prop where
  orderly : q.Orderly
  /-- The length that is reported is the true one. -/
  reported : q.depth = q.pending.length
  bounded : ∀ n, (ofCapacity capacity).Within n calls →
    q.pending.length + q.active.size ≤ max capacity 1 + n

/-- **The parts of a queue belong together after every run**, and what it holds is bounded by the
capacity and the most keys that were worked on at once. There is no better bound, not even of the
keys that wait. -/
theorem holds_play (capacity : Nat) :
    (∀ calls, Holds capacity calls ((ofCapacity capacity).play calls).2) ∧
      ∀ n, ∃ calls, (ofCapacity capacity).Within n calls ∧
        ((ofCapacity capacity).play calls).2.pending.length = max capacity 1 + n := by
  have hnew := orderly_ofCapacity capacity
  refine ⟨fun calls => ?_, exists_filled capacity⟩
  refine { orderly := hnew.play calls, reported := depth_play rfl calls, bounded := fun n hn => ?_ }
  -- a new queue holds nothing
  have hload := load_play hnew hn
  exact Nat.le_trans hload (Nat.max_le.2 ⟨Nat.zero_le _, Nat.le_refl _⟩)

/-- A key that is marked while it is worked on waits again behind one that has filled the queue. -/
theorem holds_play_past_capacity :
    let calls := [.push ⟨"default", "a"⟩, .tryPop, .push ⟨"default", "a"⟩, .push ⟨"default", "b"⟩,
      .done ⟨"default", "a"⟩]
    (ofCapacity 1).Within 1 calls ∧
      ((ofCapacity 1).play calls).2.pending = [⟨"default", "b"⟩, ⟨"default", "a"⟩] ∧
      ((ofCapacity 1).play calls).2.pending.length + ((ofCapacity 1).play calls).2.active.size
        ≤ max 1 1 + 1 := by
  intro calls
  have hwithin : (ofCapacity 1).Within 1 calls := by decide
  exact ⟨hwithin, by decide, ((holds_play 1).1 calls).bounded 1 hwithin⟩

end Queue

end MeshLimiter
