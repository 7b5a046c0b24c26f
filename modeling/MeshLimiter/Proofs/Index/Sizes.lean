import Mathlib.Data.Set.Card
import MeshLimiter.Proofs.Index.Notice
/-!
# What is measured of the indexes

An operation on an index measures the namespaces that it names, and no others. It need not look at
the others, because it changes nothing there: not even a reset over many namespaces does, or a
resource without one. So wherever a size was measured it is right, however long ago that was.

* **`IndexEvent.namespaces`**: the namespaces that an event names;
* **`IndexOps.Local`**: operations leave all entries alone but those in the namespaces they name;
* **`Measured.Tracks`**, **`Measured.Tracks.handle`**: each event leaves the measured sizes and
  counts right;
* **`Indexes.metrics_track_indexes`**: so they are right for each index, whatever happens.
-/

namespace MeshLimiter

/-! ## What an operation notes

The kind of the operation is counted, and each namespace that it names is measured. -/

namespace IndexEvent

variable {ρ : Type}

/-- The kind of operation that an event is. -/
def op : IndexEvent ρ → IndexOp
  | apply _ => .apply
  | delete _ => .delete
  | reset _ _ => .reset

/-- The namespaces that an event names. A reset does not count a resource without a namespace among
them. -/
def namespaces (namespaceOf : ρ → Option String) : IndexEvent ρ → List String
  | apply r => [(namespaceOf r).getD ""]
  | delete id => [id.ns]
  | reset live removed => live.filterMap namespaceOf ++ removed.namespaces

end IndexEvent

namespace IndexCounts

variable {op kind : IndexOp} {size : String → Nat} {namespaces : List String} {ns : String}

/-- The namespaces that are named are measured, and the others stay as they were measured before. -/
theorem getElem?_sizes_record (c : IndexCounts) :
    (c.record op size namespaces).sizes[ns]? = if ns ∈ namespaces then some (size ns)
    else c.sizes[ns]? := by
  -- a namespace that is measured twice has the same size both times
  have hfold : ∀ m : Std.ExtTreeMap String Nat,
      (namespaces.foldl (fun m ns => m.insert ns (size ns)) m)[ns]?
        = if ns ∈ namespaces then some (size ns) else m[ns]? := by
    induction namespaces with
    | nil => exact fun m => (if_neg List.not_mem_nil).symm
    | cons first more ih =>
      intro m
      rw [List.foldl_cons, ih, Std.ExtTreeMap.getElem?_insert]
      by_cases hmore : ns ∈ more
      · rw [if_pos hmore, if_pos (List.mem_cons_of_mem _ hmore)]
      · rw [if_neg hmore]
        by_cases hfirst : first = ns
        · subst hfirst
          rw [if_pos Std.ReflCmp.compare_self, if_pos List.mem_cons_self]
        · rw [if_neg (by simpa using hfirst), if_neg (by simp [hmore, Ne.symm hfirst])]
  exact hfold c.sizes

theorem count_updates_record (c : IndexCounts) :
    (c.record op size namespaces).updates.count kind
      = c.updates.count kind + if op = kind then 1 else 0 := by
  show (c.updates.inc op).count kind = _
  split
  · next heq => rw [heq, Tally.count_inc_self]
  · next hne => rw [Tally.count_inc_of_ne _ (Ne.symm hne), Nat.add_zero]

end IndexCounts

/-- The entries of an index in a namespace. -/
def entriesIn (held : Set ResourceId) (ns : String) : Set ResourceId :=
  {id | id ∈ held ∧ id.ns = ns}

section

variable {ι ρ : Type} {ops : IndexOps ι ρ} {entries : ι → Set ResourceId} {x : Measured ι}
  {id : ResourceId}

/-- An event is counted as what it is, and the namespaces that it names are measured after it. -/
theorem Measured.counts_handle (ops : IndexOps ι ρ) (x : Measured ι) (e : IndexEvent ρ) :
    (x.handle ops e).2.counts
      = x.counts.record e.op (ops.size (x.handle ops e).2.index)
        (e.namespaces ops.namespaceOf) := by
  cases e <;> rfl

/-! ## Operations are local

Entries in other namespaces stay, so sizes that were measured there stay right. -/

/-- The size of an index in a namespace is the number of its entries there, and an operation leaves
all entries alone but those in the namespace that it names. A resource without a namespace changes
nothing. -/
structure IndexOps.Local (ops : IndexOps ι ρ) (entries : ι → Set ResourceId) : Prop where
  size : ∀ x ns, (entriesIn (entries x) ns).encard = ops.size x ns
  apply : ∀ x r id, ops.namespaceOf r ≠ some id.ns →
    (id ∈ entries (ops.apply x r).2 ↔ id ∈ entries x)
  delete : ∀ x k id, k.ns ≠ id.ns → (id ∈ entries (ops.delete x k).2 ↔ id ∈ entries x)

/-- Operations that leave an entry alone do so one after another. -/
theorem mem_entries_foldl {β : Type} {op : ι → β → List ResourceId × ι} {bs : List β}
    (hop : ∀ b ∈ bs, ∀ x, id ∈ entries (op x b).2 ↔ id ∈ entries x) (acc : List ResourceId × ι) :
    id ∈ entries (bs.foldl (fun acc b => (acc.1 ++ (op acc.2 b).1, (op acc.2 b).2)) acc).2
      ↔ id ∈ entries acc.2 :=
  List.foldlRecOn (motive := fun acc' : List ResourceId × ι => id ∈ entries acc'.2 ↔
    id ∈ entries acc.2) bs _ Iff.rfl fun acc' hacc b hb => (hop b hb acc'.2).trans hacc

/-- **An event leaves alone what is in no namespace that it names.** -/
theorem IndexOps.Local.mem_entries_handle (hops : ops.Local entries) {e : IndexEvent ρ}
    (hother : id.ns ∉ e.namespaces ops.namespaceOf) :
    id ∈ entries (x.handle ops e).2.index ↔ id ∈ entries x.index := by
  cases e with
  | apply r =>
    refine hops.apply x.index r id fun hns => hother (List.mem_singleton.2 ?_)
    rw [hns]
    rfl
  | delete k => exact hops.delete x.index k id fun hns => hother (List.mem_singleton.2 hns.symm)
  | reset live removed =>
    -- a reset applies and deletes, one resource after another
    have hlive : ∀ r ∈ live, ∀ x, id ∈ entries (ops.apply x r).2 ↔ id ∈ entries x := by
      intro r hr x
      exact hops.apply x r id fun hns => hother
        (List.mem_append_left _ (List.mem_filterMap.2 ⟨r, hr, hns⟩))
    have hremoved : ∀ k ∈ removed.ids, ∀ x, id ∈ entries (ops.delete x k).2 ↔ id ∈ entries x := by
      intro k hk x
      exact hops.delete x k id fun hns =>
        hother (List.mem_append_right _ (hns ▸ Removed.ns_mem_namespaces hk))
    exact (mem_entries_foldl hremoved _).trans (mem_entries_foldl hlive ([], x.index))

/-- So the entries of a namespace that is not named stay the same. -/
theorem IndexOps.Local.entriesIn_handle (hops : ops.Local entries) {e : IndexEvent ρ} {ns : String}
    (hother : ns ∉ e.namespaces ops.namespaceOf) :
    entriesIn (entries (x.handle ops e).2.index) ns = entriesIn (entries x.index) ns := by
  refine Set.ext fun id => and_congr_left fun hns => ?_
  rw [← hns] at hother
  exact hops.mem_entries_handle hother

/-! ## What is measured is right

It was right when it was measured, and only events on that namespace change the size. -/

/-- What is measured of an index after some events is right. -/
structure Measured.Tracks (ops : IndexOps ι ρ) (entries : ι → Set ResourceId) (x : Measured ι)
    (events : List (IndexEvent ρ)) : Prop where
  /-- The namespaces that events have named are measured. -/
  named : ∀ ns, ns ∈ x.counts.sizes ↔ ∃ e ∈ events, ns ∈ e.namespaces ops.namespaceOf
  /-- A size is the number of entries that the index has in the namespace. -/
  sizes : ∀ (ns : String) (n : Nat), x.counts.sizes[ns]? = some n →
    (entriesIn (entries x.index) ns).encard = n
  /-- No entry is in a namespace that is not measured. -/
  complete : ∀ id ∈ entries x.index, id.ns ∈ x.counts.sizes
  /-- Each event is counted once, as what it is. -/
  updates : ∀ kind, x.counts.updates.count kind = events.countP (·.op = kind)

namespace Measured

variable {past : List (IndexEvent ρ)}

theorem tracks_new {index : ι} (hempty : entries index = ∅) : Tracks ops entries { index } [] where
  named ns := iff_of_false Std.ExtTreeMap.not_mem_empty nofun
  sizes ns n h := by
    rw [Std.ExtTreeMap.getElem?_empty] at h
    cases h
  complete id hid := by
    rw [hempty] at hid
    exact hid.elim
  updates _ := rfl

/-- **Each event leaves what is measured right.** The namespaces that it names are measured again,
and in the others nothing has changed. -/
theorem Tracks.handle (hops : ops.Local entries) (h : Tracks ops entries x past)
    (e : IndexEvent ρ) : Tracks ops entries (x.handle ops e).2 (past ++ [e]) := by
  have hsizes : ∀ ns, (x.handle ops e).2.counts.sizes[ns]?
      = if ns ∈ e.namespaces ops.namespaceOf then some (ops.size (x.handle ops e).2.index ns)
        else x.counts.sizes[ns]? := by
    intro ns
    rw [counts_handle, IndexCounts.getElem?_sizes_record]
  -- what is measured after the event was measured before or is measured now
  have hmem : ∀ ns, ns ∈ (x.handle ops e).2.counts.sizes
      ↔ ns ∈ x.counts.sizes ∨ ns ∈ e.namespaces ops.namespaceOf := by
    intro ns
    rw [Std.ExtTreeMap.mem_iff_isSome_getElem?, Std.ExtTreeMap.mem_iff_isSome_getElem?, hsizes]
    split
    · next hnamed => exact iff_of_true rfl (.inr hnamed)
    · next hother => exact (or_iff_left hother).symm
  refine ⟨fun ns => ?_, fun ns n hn => ?_, fun id hid => ?_, fun kind => ?_⟩
  · rw [hmem, h.named]
    simp [or_and_right, exists_or]
  · rw [hsizes] at hn
    split at hn
    · obtain rfl := Option.some.inj hn
      exact hops.size _ ns
    · next hother =>
      rw [hops.entriesIn_handle hother]
      exact h.sizes ns n hn
  · refine (hmem id.ns).2 (Classical.or_iff_not_imp_right.2 fun hother => ?_)
    exact h.complete id ((hops.mem_entries_handle hother).1 hid)
  · rw [counts_handle, IndexCounts.count_updates_record, h.updates, List.countP_append]
    simp

/-- A counter of 64 bits is right, too, for any number of events that there could be. -/
theorem Tracks.toNat_word (h : Tracks ops entries x past) (hroom : past.length < UInt64.size)
    (kind : IndexOp) : (x.counts.updates.word kind).toNat = past.countP (·.op = kind) := by
  have hle : x.counts.updates.count kind ≤ past.length := by
    rw [h.updates]
    exact List.countP_le_length
  rw [Tally.toNat_word (Nat.lt_of_le_of_lt hle hroom), h.updates]

/-- The same where only some of what happens is an event on the index. -/
theorem Tracks.next {γ : Type} {event? : γ → Option (IndexEvent ρ)} {past : List γ}
    (hops : ops.Local entries) (h : Tracks ops entries x (past.filterMap event?)) (c : γ) :
    Tracks ops entries ((event? c).elim x fun e => (x.handle ops e).2)
    ((past ++ [c]).filterMap event?) := by
  rw [List.filterMap_append]
  cases hc : event? c with
  | none => simpa [hc] using h
  | some e => simpa [hc] using h.handle hops e

end Measured

end

/-! ## The three indexes

Each is local, since its operations touch the entries of their own resource. -/

/-- The size of a map in a namespace, as the number of its keys there. -/
theorem encard_entriesIn {α : Type} (m : Std.ExtTreeMap ResourceId α) (ns : String) :
    (entriesIn {id | id ∈ m} ns).encard = m.toList.countP fun p => p.1.ns == ns := by
  have hkeys : entriesIn {id | id ∈ m} ns = ↑(m.keys.filter (·.ns == ns)).toFinset := by
    ext id
    simp [entriesIn, Std.ExtTreeMap.mem_keys]
  have hnodup : (m.keys.filter (·.ns == ns)).Nodup := Std.ExtTreeMap.nodup_keys.filter _
  rw [hkeys, Set.encard_coe_eq_coe_finsetCard, List.toFinset_card_of_nodup hnodup,
    ← List.countP_eq_length_filter, ← Std.ExtTreeMap.map_fst_toList_eq_keys, List.countP_map]
  rfl

section Keys

variable {α : Type} {m : Std.ExtTreeMap ResourceId α} {k id : ResourceId} {a : α}

/-- An insertion elsewhere changes nothing here. -/
theorem mem_insert_of_ns_ne (h : k.ns ≠ id.ns) : id ∈ m.insert k a ↔ id ∈ m := by
  have hne : k ≠ id := fun heq => h (congrArg ResourceId.ns heq)
  simp [hne]

theorem mem_erase_of_ns_ne (h : k.ns ≠ id.ns) : id ∈ m.erase k ↔ id ∈ m := by
  have hne : k ≠ id := fun heq => h (congrArg ResourceId.ns heq)
  simp [hne]

end Keys

/-- The limiters that the index has. -/
def LimiterIndex.entries (x : LimiterIndex) : Set ResourceId :=
  {id | id ∈ x.limiters}

/-- A limiter is filed under its key. -/
theorem LimiterIndex.local_ops : ops.Local entries where
  size x ns := encard_entriesIn x.limiters ns
  apply x l id hother := by
    show id ∈ (x.apply l).2.limiters ↔ id ∈ x.limiters
    unfold apply
    split
    · rfl
    · next ns hns =>
      refine mem_insert_of_ns_ne fun heq => hother ?_
      rw [← heq, Metadata.ns_id hns]
      exact hns
  delete x k id hother := mem_erase_of_ns_ne hother

/-- The traffic rules that the index has. -/
def SubsetIndex.entries (x : SubsetIndex) : Set ResourceId :=
  {id | id ∈ x.hosts}

theorem SubsetIndex.mem_hosts_remove {x : SubsetIndex} {rule id : ResourceId}
    (hother : rule.ns ≠ id.ns) : id ∈ (x.remove rule).2.hosts ↔ id ∈ x.hosts := by
  unfold remove
  split
  · rfl
  · exact mem_erase_of_ns_ne hother

/-- A rule is filed under its key, at whatever host. -/
theorem SubsetIndex.local_ops : ops.Local entries where
  size x ns := encard_entriesIn x.hosts ns
  apply x r id hother := by
    show id ∈ (x.apply r).2.hosts ↔ id ∈ x.hosts
    unfold apply
    split
    · rfl
    · next ns hns =>
      have hkey : r.metadata.id.ns ≠ id.ns := by
        rw [Metadata.ns_id hns]
        exact fun heq => hother (hns.trans (congrArg some heq))
      dsimp only
      split
      · rfl
      · exact (mem_insert_of_ns_ne hkey).trans (mem_hosts_remove hkey)
  delete x k id hother := mem_hosts_remove hother

/-- The slices that the index has. -/
def SliceIndex.entries (x : SliceIndex) : Set ResourceId :=
  {id | id ∈ x.services}

/-- A slice is filed under its key, for whatever service. -/
theorem SliceIndex.local_ops : ops.Local entries where
  size x ns := encard_entriesIn x.services ns
  apply x s id hother := by
    show id ∈ (x.apply s).2.services ↔ id ∈ x.services
    unfold apply
    split
    · next ns service hns _ =>
      refine mem_insert_of_ns_ne fun heq => hother ?_
      rw [← heq, Metadata.ns_id hns]
      exact hns
    · rfl
  delete x k id hother := mem_erase_of_ns_ne hother

namespace Indexes

/-- The event on the index of limiters that a call is, if it is one. -/
def Call.limiters? : Call → Option (IndexEvent Limiter)
  | .handle (.limiters e) => some e
  | _ => none

/-- The event on the index of subsets that a call is, if it is one. -/
def Call.subsets? : Call → Option (IndexEvent TrafficRule)
  | .handle (.subsets e) => some e
  | _ => none

/-- The event on the index of slices that a call is, if it is one. -/
def Call.slices? : Call → Option (IndexEvent EndpointSlice)
  | .handle (.slices e) => some e
  | _ => none

/-- What is measured of each of the indexes after some calls is right. -/
structure Tracked (x : Indexes) (calls : List Call) : Prop where
  limiters : x.limiters.Tracks LimiterIndex.ops LimiterIndex.entries
    (calls.filterMap Call.limiters?)
  subsets : x.subsets.Tracks SubsetIndex.ops SubsetIndex.entries (calls.filterMap Call.subsets?)
  slices : x.slices.Tracks SliceIndex.ops SliceIndex.entries (calls.filterMap Call.slices?)

theorem tracked_empty (domain : String) (specCapacity metricCapacity : Nat) :
    Tracked (empty domain specCapacity metricCapacity) [] where
  limiters :=
    Measured.tracks_new (Set.eq_empty_of_forall_notMem fun _ => Std.ExtTreeMap.not_mem_empty)
  subsets :=
    Measured.tracks_new (Set.eq_empty_of_forall_notMem fun _ => Std.ExtTreeMap.not_mem_empty)
  slices :=
    Measured.tracks_new (Set.eq_empty_of_forall_notMem fun _ => Std.ExtTreeMap.not_mem_empty)

theorem Tracked.call {x : Indexes} {past : List Call} (h : Tracked x past) (c : Call) :
    Tracked (x.call c) (past ++ [c]) where
  -- a call is an event on one of the indexes, or on none
  limiters := by
    have hcall : (x.call c).limiters
        = c.limiters?.elim x.limiters fun e => (x.limiters.handle LimiterIndex.ops e).2 := by
      cases c with
      | handle e => cases e <;> rfl
      | _ => rfl
    rw [hcall]
    exact h.limiters.next LimiterIndex.local_ops c
  subsets := by
    have hcall : (x.call c).subsets
        = c.subsets?.elim x.subsets fun e => (x.subsets.handle SubsetIndex.ops e).2 := by
      cases c with
      | handle e => cases e <;> rfl
      | _ => rfl
    rw [hcall]
    exact h.subsets.next SubsetIndex.local_ops c
  slices := by
    have hcall : (x.call c).slices
        = c.slices?.elim x.slices fun e => (x.slices.handle SliceIndex.ops e).2 := by
      cases c with
      | handle e => cases e <;> rfl
      | _ => rfl
    rw [hcall]
    exact h.slices.next SliceIndex.local_ops c

/-- **The metrics of the indexes are right.** Whatever has happened to the indexes: for each of
them, a size that was measured is the number of entries that the index has in the namespace, though
only the namespaces named by an event are measured after it; every namespace with entries was
measured; and each event is counted once, as what it is. -/
theorem metrics_track_indexes (domain : String) (specCapacity metricCapacity : Nat)
    (calls : List Call) :
    Tracked ((empty domain specCapacity metricCapacity).callAll calls) calls := by
  have hrun : ∀ (calls past : List Call) (x : Indexes), Tracked x past →
      Tracked (x.callAll calls) (past ++ calls) := by
    intro calls
    induction calls with
    | nil => exact fun past x h => by rwa [List.append_nil]
    | cons c calls ih =>
      intro past x h
      have hrest := ih _ _ (h.call c)
      rwa [List.append_assoc] at hrest
  exact hrun calls [] _ (tracked_empty domain specCapacity metricCapacity)

/-- A rule goes and one without a namespace comes: the size of the first one's namespace is
measured, and that of no other. -/
example :
    let calls : List Call :=
      [.handle (versionRule "ratings"), .handle
        (.subsets (.reset [{}] { byNamespace := [("web", ["a"])] }))]
    let x := (empty "cluster.local" 4 4).callAll calls
    x.subsets.counts.sizes.toList = [("web", 0)] ∧ x.subsets.counts.updates.count .reset = 1 := by
  decide +kernel

/-- A namespace from which nothing is removed is measured again as well. -/
example :
    let reset : Event := .subsets (.reset [] { byNamespace := [("web", [])] })
    ((empty "cluster.local" 4 4).handle reset).subsets.counts.sizes.toList = [("web", 0)] := by
  decide +kernel

end Indexes

end MeshLimiter
