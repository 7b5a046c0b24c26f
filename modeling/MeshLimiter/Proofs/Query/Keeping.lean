import MeshLimiter.Proofs.Query.Gather
/-!
# What a failed query keeps

Each answer to a query writes some entries: a sample that is stored its own, a failure those that
the material before held for the query. Under each key the last of them counts. A failed group keeps
whatever begins with its name and a dot, be it the value of a label set of that group or an entry of
another metric whose name begins so.

* **`Collected.Writes`**, **`Collected.slot_gather_of_writes`**: what an answer writes, and that the
  last one decides;
* **`Collected.Belongs`**: the entries that should make up the new material;
* **`Collected.consists_iff`**: when they do.
-/

namespace MeshLimiter

namespace Material

/-- Under a key there is a value, marked as a group or not. -/
def Has (m : Material) (key v : String) (group : Bool) : Prop :=
  m.slot key = (some v, group)

variable {m m' : Material} {key v v' : String} {group group' : Bool}

theorem Has.eq (h : m.Has key v group) (h' : m.Has key v' group') : v = v' ∧ group = group' := by
  have heq : (some v, group) = (some v', group') := h.symm.trans h'
  exact ⟨Option.some.inj (Prod.mk.inj heq).1, (Prod.mk.inj heq).2⟩

theorem Has.value (h : m.Has key v group) : m.values[key]? = some v :=
  congrArg Prod.fst h

theorem Has.mark (h : m.Has key v group) : m.isGroup key = group :=
  congrArg Prod.snd h

theorem has_congr (h : m.slot key = m'.slot key) : m.Has key v group ↔ m'.Has key v group := by
  rw [Has, Has, h]

theorem not_has_empty : ¬ ({} : Material).Has key v group := by
  intro h
  have hvalue := h.value
  rw [Std.ExtTreeMap.getElem?_empty] at hvalue
  cases hvalue

end Material

namespace Sample

/-- The entries of a sample that answers a query. -/
def entries (q : Query) (s : Sample) : Material :=
  (store? {} q s).getD {}

theorem key_of_has_members {metric key v : String} {group : Bool} (points : List (Labels × Float))
    {m : Material} (h : (points.foldl (fun (m : Material) (l, x) =>
      m.insert (memberKey metric l) (Decimal.floatText x)) m).Has key v group) :
    m.Has key v group ∨ ∃ labels ∈ points.map Prod.fst, key = memberKey metric labels := by
  induction points generalizing m with
  | nil => exact .inl h
  | cons p points ih =>
    rw [List.foldl_cons] at h
    -- a later point has written the key, or this one has, or it was there
    rcases ih h with h | ⟨labels, hmem, hkey⟩
    · rw [Material.Has, Material.slot_insert] at h
      split at h
      · next hkey => exact .inr ⟨p.1, List.mem_cons_self, hkey.symm⟩
      · exact .inl h
    · exact .inr ⟨labels, List.mem_cons_of_mem _ hmem, hkey⟩

/-- The entries of a sample stand under the name of the query, and those of a group under the
signatures of its label sets as well. -/
theorem key_of_has_entries {q : Query} {s : Sample} {key v : String} {group : Bool}
    (h : (entries q s).Has key v group) :
    key = q.name ∨ q.kind = .group ∧ ∃ labels ∈ s.points.map Prod.fst, key
      = memberKey q.name labels := by
  have hname : ∀ text, (({} : Material).insert q.name text).Has key v group → key = q.name := by
    intro text h
    rw [Material.Has, Material.slot_insert] at h
    split at h
    · next hkey => exact hkey.symm
    · exact absurd h Material.not_has_empty
  unfold entries store? at h
  cases hkind : q.kind with
  | value =>
    rw [hkind] at h
    cases s with
    | scalar x => exact .inl (hname _ h)
    | vector xs =>
      dsimp only at h
      split at h
      · exact absurd h Material.not_has_empty
      · exact .inl (hname _ h)
  | group =>
    rw [hkind] at h
    dsimp only at h
    split at h
    · exact absurd h Material.not_has_empty
    · rw [Option.getD_some, Material.Has, Material.slot_insertGroup] at h
      split at h
      · next hkey => exact .inl hkey.symm
      · -- under another key than the name, the entry comes from a member
        exact .inr ⟨rfl, (key_of_has_members s.points h).resolve_left Material.not_has_empty⟩

end Sample

namespace Query

/-- The keys under which a query stores its samples: its name, and those of the values of a
group. -/
def Stores (q : Query) (key : String) : Prop :=
  key = q.name ∨ q.kind = .group ∧ ∃ labels, key = Sample.memberKey q.name labels

/-- They are among those that a failure keeps. -/
theorem Stores.owns {q : Query} {key : String} (h : q.Stores key) : q.owns key = true := by
  unfold Query.owns
  rcases h with rfl | ⟨hkind, labels, rfl⟩
  · rw [beq_self_eq_true, Bool.true_or]
  · have hprefix : (q.name ++ ".").toList <+: (Sample.memberKey q.name labels).toList := by
      simp only [Sample.memberKey, String.toList_append]
      exact List.prefix_append ..
    rw [hkind, List.isPrefixOf_iff_prefix.2 hprefix]
    simp

end Query

namespace Collected

variable {previous m : Material} {groups : PodGroups} {q : Query} {r : QueryReply}
  {answer : Query × QueryReply} {answers before after : List (Query × QueryReply)} {key v : String}
  {group : Bool}

/-! ## What an answer writes

A sample writes its entries. An error writes again what was held for the query. -/

/-- An answer writes an entry: one of its sample, or one that was held for a query that failed. -/
def Writes (previous : Material) : Query × QueryReply → String → String → Bool → Prop
  | (q, .ok s), key, v, group => (Sample.entries q s).Has key v group
  | (q, .error _), key, v, group => q.owns key = true ∧ previous.Has key v group

theorem slot_takeIn_of_writes (h : Writes previous (q, r) key v group) :
    (takeIn previous m q r).1.slot key = (some v, group) := by
  cases r with
  | ok s =>
    have h : (Sample.entries q s).Has key v group := h
    rw [takeIn_ok_eq]
    rcases Sample.store?_cases q s with hnone | ⟨f, hf, hsome⟩
    · rw [Sample.entries, hnone] at h
      exact absurd h Material.not_has_empty
    · rw [Sample.entries, hsome] at h
      rw [hsome]
      -- what it writes to no material, it writes to every material
      rcases hf key with hid | ⟨v', group', hv⟩
      · exact absurd ((Material.has_congr (hid {})).1 h) Material.not_has_empty
      · have heq : (f {}).slot key = (some v, group) := h
        rw [hv] at heq
        rw [← heq]
        exact hv m
  | error e =>
    obtain ⟨howns, hheld⟩ : q.owns key = true ∧ previous.Has key v group := h
    rw [takeIn_error]
    have hslot := q.slot_carryOver_of_some previous m howns hheld.value
    rw [hheld.mark] at hslot
    exact hslot

theorem slot_takeIn_of_not (h : ∀ v group, ¬ Writes previous (q, r) key v group) :
    (takeIn previous m q r).1.slot key = m.slot key := by
  cases r with
  | ok s =>
    rw [takeIn_ok_eq]
    rcases Sample.store?_cases q s with hnone | ⟨f, hf, hsome⟩
    · rw [hnone]
    · rw [hsome]
      rcases hf key with hid | ⟨v, group, hv⟩
      · exact hid m
      · refine absurd (?_ : (Sample.entries q s).Has key v group) (h v group)
        rw [Sample.entries, hsome]
        exact hv {}
  | error e =>
    rw [takeIn_error]
    -- a failed query copies what it owns, so there was nothing to copy at the key
    refine q.slot_carryOver_of_none previous m ?_
    cases howns : q.owns key with
    | false => exact .inl rfl
    | true =>
      right
      cases hv : previous.values[key]? with
      | none => rfl
      | some v => exact absurd ⟨howns, Prod.ext hv rfl⟩ (h v (previous.isGroup key))

/-! ## The last answer decides

Under each key the last of the answers that write there decides. -/

theorem gather_append (previous m : Material) (before after : List (Query × QueryReply)) :
    (gather previous m (before ++ after)).1
      = (gather previous (gather previous m before).1 after).1 := by
  induction before generalizing m with
  | nil => rfl
  | cons answer before ih =>
    obtain ⟨q, r⟩ := answer
    rw [List.cons_append, gather_cons, gather_cons]
    exact ih _

theorem slot_gather_of_not (h : ∀ a ∈ answers, ∀ v group, ¬ Writes previous a key v group) :
    (gather previous m answers).1.slot key = m.slot key := by
  induction answers generalizing m with
  | nil => rfl
  | cons answer answers ih =>
    obtain ⟨q, r⟩ := answer
    obtain ⟨hfirst, hrest⟩ := List.forall_mem_cons.1 h
    rw [gather_cons]
    exact (ih hrest).trans (slot_takeIn_of_not hfirst)

/-- **The last answer that writes a key decides what stands there.** -/
theorem slot_gather_of_writes (h : Writes previous answer key v group)
    (hlater : ∀ a ∈ after, ∀ v group, ¬ Writes previous a key v group) :
    (gather previous m (before ++ answer :: after)).1.slot key = (some v, group) := by
  obtain ⟨q, r⟩ := answer
  rw [gather_append, gather_cons]
  exact (slot_gather_of_not hlater).trans (slot_takeIn_of_writes h)

theorem exists_last_write (h : ∃ a ∈ answers, ∃ v group, Writes previous a key v group) :
    ∃ before answer after v group, answers = before ++ answer :: after ∧
      Writes previous answer key v group ∧
      ∀ a ∈ after, ∀ v group, ¬ Writes previous a key v group := by
  induction answers with
  | nil =>
    obtain ⟨a, ha, -⟩ := h
    cases ha
  | cons answer answers ih =>
    -- if a later answer writes the key, the last such is behind; else it is this one
    by_cases hmore : ∃ a ∈ answers, ∃ v group, Writes previous a key v group
    · obtain ⟨before, a, after, v, group, rfl, hwrites, hlater⟩ := ih hmore
      exact ⟨answer :: before, a, after, v, group, rfl, hwrites, hlater⟩
    · obtain ⟨a, ha, v, group, hwrites⟩ := h
      have hnone : ∀ a ∈ answers, ∀ v group, ¬ Writes previous a key v group :=
        fun a ha v group hwrites => hmore ⟨a, ha, v, group, hwrites⟩
      rcases List.mem_cons.1 ha with rfl | ha
      · exact ⟨[], a, answers, v, group, rfl, hwrites, hnone⟩
      · exact absurd hwrites (hnone a ha v group)

/-! ## The entries that belong to the new material

They are there if none of them is written over, and if no failed query keeps what is not its own. -/

/-- The entries that should make up the new material: the numbers of pods, those of the samples, and
those that the material before held for the queries that failed. -/
inductive Belongs (previous : Material) (groups : PodGroups) (answers : List (Query × QueryReply))
    (key v : String) (group : Bool) : Prop where
  | count (has : (podCounts groups).Has key v group)
  | sampled (q : Query) (s : Sample) (mem : (q, .ok s) ∈ answers)
      (has : (Sample.entries q s).Has key v group)
  | kept (q : Query) (e : QueryError) (mem : (q, .error e) ∈ answers) (stores : q.Stores key)
    (has : previous.Has key v group)

/-- A material consists of the entries that belong to it. -/
def Consists (previous : Material) (groups : PodGroups) (answers : List (Query × QueryReply))
    (m : Material) : Prop :=
  ∀ key v group, m.Has key v group ↔ Belongs previous groups answers key v group

/-- No two entries under one key belong to the new material. -/
def Unambiguous (previous : Material) (groups : PodGroups) (answers : List (Query × QueryReply)) :
    Prop :=
  ∀ key v group v' group', Belongs previous groups answers key v group →
    Belongs previous groups answers key v' group' → v = v' ∧ group = group'

/-- Whatever a failed query keeps belongs to the new material, or a later sample is written over
it. -/
def KeepsItsOwn (previous : Material) (groups : PodGroups) (answers : List (Query × QueryReply)) :
    Prop :=
  ∀ before q e after key v group, answers = before ++ (q, .error e) :: after → q.owns key = true →
    previous.Has key v group → Belongs previous groups answers key v group ∨
      ∃ q' s v' group', (q', .ok s) ∈ after ∧ (Sample.entries q' s).Has key v' group'

/-- What belongs to the new material is counted, or some answer writes its key. -/
theorem Belongs.count_or_writes (h : Belongs previous groups answers key v group) :
    (podCounts groups).Has key v group ∨ ∃ a ∈ answers, Writes previous a key v group := by
  cases h with
  | count has => exact .inl has
  | sampled q s mem has => exact .inr ⟨_, mem, has⟩
  | kept q e mem stores has => exact .inr ⟨_, mem, stores.owns, has⟩

/-- Under a key there is in the end what was counted, or what the last answer has written. -/
theorem slot_gather_cases (previous m : Material) (answers : List (Query × QueryReply))
    (key : String) : ((∀ a ∈ answers, ∀ v group, ¬ Writes previous a key v group) ∧
        (gather previous m answers).1.slot key = m.slot key) ∨
      ∃ before answer after v group, answers = before ++ answer :: after ∧
        Writes previous answer key v group ∧
        (∀ a ∈ after, ∀ v group, ¬ Writes previous a key v group) ∧
        (gather previous m answers).1.Has key v group := by
  by_cases hwritten : ∃ a ∈ answers, ∃ v group, Writes previous a key v group
  · obtain ⟨before, answer, after, v, group, rfl, hwrites, hlater⟩ := exists_last_write hwritten
    exact .inr ⟨before, answer, after, v, group, rfl, hwrites, hlater,
      slot_gather_of_writes hwrites hlater⟩
  · have hnone : ∀ a ∈ answers, ∀ v group, ¬ Writes previous a key v group :=
      fun a ha v group hwrites => hwritten ⟨a, ha, v, group, hwrites⟩
    exact .inl ⟨hnone, slot_gather_of_not hnone⟩

/-- Where failed queries keep their own, all that stands in the end belongs there. -/
theorem KeepsItsOwn.belongs (hown : KeepsItsOwn previous groups answers)
    (h : (gather previous (podCounts groups) answers).1.Has key v group) :
    Belongs previous groups answers key v group := by
  rcases slot_gather_cases previous (podCounts groups) answers key with
    ⟨-, hslot⟩ | ⟨before, ⟨q, r⟩, after, v', group', hsplit, hwrites, hlater, hlast⟩
  · exact .count ((Material.has_congr hslot).1 h)
  · obtain ⟨rfl, rfl⟩ := h.eq hlast
    have hmem : (q, r) ∈ answers := by
      rw [hsplit]
      simp
    cases r with
    | ok s => exact .sampled q s hmem hwrites
    | error e =>
      -- nothing is written after the failed query, so no later sample either
      refine (hown before q e after key v group hsplit hwrites.1 hwrites.2).resolve_right ?_
      rintro ⟨q', s, v', group', hs, hhas⟩
      exact hlater _ hs v' group' hhas

/-- **The new material consists of the entries that belong to it** exactly if no two of these stand
under one key, and whatever a failed query keeps is among them or written over later. -/
theorem consists_iff (previous : Material) (groups : PodGroups)
    (answers : List (Query × QueryReply)) :
    Consists previous groups answers (gather previous (podCounts groups) answers).1 ↔
      Unambiguous previous groups answers ∧ KeepsItsOwn previous groups answers := by
  constructor
  · intro h
    refine ⟨fun key v group v' group' hbelongs hbelongs' => ?_, ?_⟩
    · exact ((h key v group).2 hbelongs).eq ((h key v' group').2 hbelongs')
    · intro before q e after key v group hsplit howns hheld
      by_cases hlater : ∃ q' s v' group', (q', .ok s) ∈ after ∧
        (Sample.entries q' s).Has key v' group'
      · exact .inr hlater
      · -- after the failed query the key is written again only by failures, which write the same
        left
        rw [← h]
        have hsame : ∀ a ∈ (q, .error e) :: after, ∀ v' group', Writes previous a key v' group' →
            v' = v ∧ group' = group := by
          rintro ⟨q', r⟩ ha v' group' hwrites
          cases r with
          | error e' => exact hwrites.2.eq hheld
          | ok s =>
            have ha : (q', .ok s) ∈ after := (List.mem_cons.1 ha).resolve_left nofun
            exact absurd ⟨q', s, v', group', ha, hwrites⟩ hlater
        have hwritten : ∃ a ∈ (q, .error e) :: after, ∃ v group, Writes previous a key v group :=
          ⟨_, List.mem_cons_self, v, group, howns, hheld⟩
        obtain ⟨before', a, after', v', group', hafter, hwrites, hlast⟩ :=
          exists_last_write hwritten
        obtain ⟨rfl, rfl⟩ := hsame a (by rw [hafter]; simp) v' group' hwrites
        rw [hsplit, hafter, ← List.append_assoc]
        exact slot_gather_of_writes hwrites hlast
  · rintro ⟨hclear, hown⟩ key v group
    refine ⟨hown.belongs, fun hbelongs => ?_⟩
    rcases slot_gather_cases previous (podCounts groups) answers key with
      ⟨hnone, hslot⟩ | ⟨-, -, -, v', group', -, -, -, hlast⟩
    · rcases hbelongs.count_or_writes with hcount | ⟨a, ha, hwrites⟩
      · exact (Material.has_congr hslot).2 hcount
      · exact absurd hwrites (hnone a ha v group)
    · obtain ⟨rfl, rfl⟩ := hclear key v group v' group' hbelongs (hown.belongs hlast)
      exact hlast

end Collected

end MeshLimiter
