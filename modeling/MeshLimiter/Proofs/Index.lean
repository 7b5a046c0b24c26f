import MeshLimiter.Index.Basic
/-!
# What the index of limiters publishes

An event on the index publishes a limiter unless the index knew it before, and knew it to ask for
the same.

* **`LimiterIndex.Alike`**: two looks at a limiter come to the same;
* **`LimiterIndex.Published`**: what is not published was known, and is as it was;
* **`Indexes.published_publish`**: this holds of every event;
* **`Indexes.get?_publish`**: what is in the index after an event was there before, or the event
  tells of it.
-/

namespace MeshLimiter

namespace LimiterIndex

/-- Two looks at a limiter come to the same: both times there is none, or it asks for the same. -/
def Alike : Option Limiter → Option Limiter → Prop
  | none, none => True
  | some a, some b => a.spec = b.spec ∧ a.metadata.generation = b.metadata.generation
  | _, _ => False

variable {x y z : LimiterIndex} {a b c : Option Limiter} {l : Limiter} {id : ResourceId}

/-- Two limiters ask for the same if specification and generation are the same. -/
theorem sameWish_iff {old new : Limiter} :
    sameWish old new = true ↔ Alike (some old) (some new) := by
  unfold sameWish Alike
  rw [Bool.and_eq_true_iff, decide_eq_true_iff, decide_eq_true_iff]

theorem alike_refl (a : Option Limiter) : Alike a a := by
  cases a with
  | none => trivial
  | some l => exact ⟨rfl, rfl⟩

/-- If three looks come to the same two by two, so do the first and the last. -/
theorem Alike.trans (h : Alike a b) (h' : Alike b c) : Alike a c := by
  cases b with
  | none =>
    cases a with
    | none => exact h'
    | some => exact h.elim
  | some =>
    cases a with
    | none => exact h.elim
    | some =>
      cases c with
      | none => exact h'.elim
      | some => exact ⟨h.1.trans h'.1, h.2.trans h'.2⟩

theorem Alike.isSome (h : Alike a b) (hb : b.isSome = true) : a.isSome = true := by
  cases a with
  | some => rfl
  | none =>
    cases b with
    | none => exact hb
    | some => exact h.elim

/-! ## What an operation publishes

A limiter that is new or asks for something else, and one that is gone. -/

/-- Between two states of the index, every key is published, or it stands for the same as before; a
key that was touched without being published was known. -/
def Published (x : LimiterIndex) (ids : List ResourceId) (y : LimiterIndex)
    (touched : ResourceId → Prop) : Prop :=
  ∀ id, id ∈ ids ∨
    Alike (x.get? id) (y.get? id) ∧ (touched id → (x.get? id).isSome = true)

theorem published_nil (x : LimiterIndex) : Published x [] x fun _ => False :=
  fun _ => .inr ⟨alike_refl _, False.elim⟩

/-- One operation after another publishes what both do. -/
theorem Published.append {ids ids' : List ResourceId} {touched touched' : ResourceId → Prop}
    (h : Published x ids y touched) (h' : Published y ids' z touched') :
    Published x (ids ++ ids') z fun id => touched id ∨ touched' id := by
  intro id
  rcases h id with hid | ⟨hsame, htouched⟩
  · exact .inl (List.mem_append_left _ hid)
  · rcases h' id with hid' | ⟨hsame', htouched'⟩
    · exact .inl (List.mem_append_right _ hid')
    · refine .inr ⟨hsame.trans hsame', fun ht => ht.elim htouched fun ht' => ?_⟩
      exact hsame.isSome (htouched' ht')

theorem Published.mono {ids : List ResourceId} {touched touched' : ResourceId → Prop}
    (h : Published x ids y touched) (hsub : ∀ id, touched' id → touched id) :
    Published x ids y touched' :=
  fun id => (h id).imp_right fun hid => ⟨hid.1, fun ht => hid.2 (hsub id ht)⟩

/-- The key of a limiter that is taken in, if it has one. -/
def Takes (l : Limiter) (id : ResourceId) : Prop :=
  l.metadata.ns.isSome = true ∧ l.metadata.id = id

/-- A limiter that asks for the same as before is not published. -/
theorem apply_of_alike (h : Alike (x.get? l.metadata.id) (some l)) : (x.apply l).1 = [] := by
  unfold apply
  split
  · rfl
  · have hknown : (x.get? l.metadata.id).any (fun old => sameWish old l) = true := by
      cases hold : x.get? l.metadata.id with
      | none =>
        rw [hold] at h
        exact h.elim
      | some old =>
        rw [hold] at h
        exact sameWish_iff.2 h
    dsimp only
    rw [if_pos hknown]

/-- A limiter is taken in under its key, unless it asks for the same. -/
theorem published_apply (x : LimiterIndex) (l : Limiter) :
    Published x (x.apply l).1 (x.apply l).2 (Takes l) := by
  intro id
  by_cases htakes : Takes l id
  · -- the key of the limiter: it is known to ask for the same, or it is published
    obtain ⟨hns, rfl⟩ := htakes
    obtain ⟨ns, hns⟩ := Option.isSome_iff_exists.1 hns
    have hafter : (x.apply l).2.get? l.metadata.id = some l := by
      unfold apply
      rw [hns]
      exact Std.ExtTreeMap.getElem?_insert_self
    by_cases hknown : (x.get? l.metadata.id).any fun old => sameWish old l
    · obtain ⟨old, hold, hsame⟩ := (Option.any_eq_true _ _).1 hknown
      rw [hafter, hold]
      exact .inr ⟨sameWish_iff.1 hsame, fun _ => rfl⟩
    · left
      unfold apply
      rw [hns]
      dsimp only
      rw [if_neg hknown]
      exact List.mem_singleton_self _
  · refine .inr ⟨?_, fun ht => absurd ht htakes⟩
    have hafter : (x.apply l).2.get? id = x.get? id := by
      unfold apply
      split
      · rfl
      · next ns hns =>
        have hne : l.metadata.id ≠ id := fun heq => htakes ⟨by rw [hns]; rfl, heq⟩
        show (x.limiters.insert l.metadata.id l)[id]? = _
        rw [Std.ExtTreeMap.getElem?_insert, if_neg (by rwa [Std.LawfulEqCmp.compare_eq_iff_eq])]
        rfl
    rw [hafter]
    exact alike_refl _

/-- A limiter that was known is taken out. -/
theorem published_delete (x : LimiterIndex) (k : ResourceId) :
    Published x (x.delete k).1 (x.delete k).2 fun id => k = id := by
  intro id
  by_cases heq : k = id
  · exact .inl (List.mem_singleton.2 heq.symm)
  · refine .inr ⟨?_, fun h => absurd h heq⟩
    have hafter : (x.delete k).2.get? id = x.get? id := by
      show (x.limiters.erase k)[id]? = _
      rw [Std.ExtTreeMap.getElem?_erase, if_neg (by rwa [Std.LawfulEqCmp.compare_eq_iff_eq])]
      rfl
    rw [hafter]
    exact alike_refl _

/-- What is in the index after a limiter was taken in. -/
theorem get?_apply {k : Limiter} (h : (x.apply l).2.get? id = some k) :
    x.get? id = some k ∧ ¬ Takes l id ∨ k = l ∧ Takes l id := by
  unfold apply at h
  split at h
  · next hns =>
    refine .inl ⟨h, fun htakes => ?_⟩
    rw [Takes, hns] at htakes
    cases htakes.1
  · next ns hns =>
    change (x.limiters.insert l.metadata.id l)[id]? = some k at h
    rw [Std.ExtTreeMap.getElem?_insert] at h
    split at h
    · next heq =>
      exact .inr ⟨(Option.some.inj h).symm, by rw [hns]; rfl, Std.LawfulEqCmp.eq_of_compare heq⟩
    · next hne => exact .inl ⟨h, fun htakes => hne (Std.LawfulEqCmp.compare_eq_iff_eq.2 htakes.2)⟩

/-- What is in the index after a deletion was there before. -/
theorem get?_delete {k : ResourceId} (h : (x.delete k).2.get? id = some l) :
    x.get? id = some l := by
  change (x.limiters.erase k)[id]? = some l at h
  rw [Std.ExtTreeMap.getElem?_erase] at h
  split at h
  · cases h
  · exact h

/-- The same over a list of operations, one after another. -/
theorem published_foldl {β : Type} {op : LimiterIndex → β → List ResourceId × LimiterIndex}
    {touches : β → ResourceId → Prop} (hop : ∀ x b, Published x (op x b).1 (op x b).2 (touches b))
    (bs : List β) {x : LimiterIndex} (acc : List ResourceId × LimiterIndex)
    {touched : ResourceId → Prop} (h : Published x acc.1 acc.2 touched) :
    let after := bs.foldl (fun acc b => (acc.1 ++ (op acc.2 b).1, (op acc.2 b).2)) acc
    Published x after.1 after.2 fun id => touched id ∨ ∃ b ∈ bs, touches b id := by
  induction bs generalizing acc touched with
  | nil => exact h.mono fun id ht => ht.resolve_right nofun
  | cons b bs ih =>
    refine (ih _ (h.append (hop acc.2 b))).mono fun id ht => ?_
    rcases ht with ht | ⟨b', hb', ht⟩
    · exact .inl (.inl ht)
    · rcases List.mem_cons.1 hb' with rfl | hb'
      · exact .inl (.inr ht)
      · exact .inr ⟨b', hb', ht⟩

/-- What is in the index after limiters were taken in, one after another: the last that takes the
key, or what was there if none does. -/
theorem get?_foldl_apply {k : Limiter} (live : List Limiter) {acc : List ResourceId × LimiterIndex}
    (h : (live.foldl (fun acc l => (acc.1 ++ (acc.2.apply l).1, (acc.2.apply l).2)) acc).2.get? id
      = some k) :
    acc.2.get? id = some k ∧ (∀ l ∈ live, ¬ Takes l id) ∨ k ∈ live ∧ Takes k id := by
  induction live generalizing acc with
  | nil => exact .inl ⟨h, List.forall_mem_nil _⟩
  | cons l live ih =>
    rcases ih h with ⟨h, hothers⟩ | ⟨hmem, htakes⟩
    · rcases get?_apply h with ⟨hbefore, hother⟩ | ⟨rfl, htakes⟩
      · exact .inl ⟨hbefore, List.forall_mem_cons.2 ⟨hother, hothers⟩⟩
      · exact .inr ⟨List.mem_cons_self, htakes⟩
    · exact .inr ⟨List.mem_cons_of_mem _ hmem, htakes⟩

/-- What is left after deletions was there before. -/
theorem get?_foldl_delete (ids : List ResourceId) (acc : List ResourceId × LimiterIndex)
    (h : (ids.foldl (fun acc k => (acc.1 ++ (acc.2.delete k).1, (acc.2.delete k).2)) acc).2.get? id
      = some l) : acc.2.get? id = some l := by
  induction ids generalizing acc with
  | nil => exact h
  | cons k ids ih =>
    have hrest := ih (acc.1 ++ (acc.2.delete k).1, (acc.2.delete k).2) h
    exact get?_delete hrest

end LimiterIndex

open LimiterIndex (Published Alike)

/-- Whether an event applies or deletes the limiter of a key. -/
def IndexEvent.Touches (id : ResourceId) : IndexEvent Limiter → Prop
  | apply l => LimiterIndex.Takes l id
  | delete k => k = id
  | reset live removed => (∃ l ∈ live, LimiterIndex.Takes l id) ∨ id ∈ removed.ids

instance (id : ResourceId) : (e : IndexEvent Limiter) → Decidable (e.Touches id)
  | .apply l => inferInstanceAs (Decidable (l.metadata.ns.isSome = true ∧ l.metadata.id = id))
  | .delete k => inferInstanceAs (Decidable (k = id))
  | .reset live removed =>
    inferInstanceAs (Decidable
      ((∃ l ∈ live, l.metadata.ns.isSome = true ∧ l.metadata.id = id) ∨ id ∈ removed.ids))

/-- The limiters that an event tells of. -/
def IndexEvent.limiters : IndexEvent Limiter → List Limiter
  | apply l => [l]
  | delete _ => []
  | reset live _ => live

namespace Indexes

/-- **What an event does not publish was known, and stands for the same as before.** -/
theorem published_publish (x : Indexes) (e : IndexEvent Limiter) :
    Published x.limiters.index (x.publish (.limiters e)).1
      (x.publish (.limiters e)).2.2.limiters.index e.Touches := by
  cases e with
  | apply l => exact LimiterIndex.published_apply _ l
  | delete k => exact LimiterIndex.published_delete _ k
  | reset live removed =>
    have hlive := LimiterIndex.published_foldl LimiterIndex.published_apply live
      ([], x.limiters.index) (LimiterIndex.published_nil _)
    refine (LimiterIndex.published_foldl LimiterIndex.published_delete removed.ids _ hlive).mono
      fun id ht => ?_
    rcases ht with hlive | hremoved
    · exact .inl (.inr hlive)
    · exact .inr ⟨id, hremoved, rfl⟩

/-- **What is in the index after an event** was there before and stays as it is, or the event tells
of it. -/
theorem get?_publish {x : Indexes} {e : IndexEvent Limiter} {id : ResourceId} {l : Limiter}
    (h : (x.publish (.limiters e)).2.2.limiters.index.get? id = some l) :
    x.limiters.index.get? id = some l ∧ (∀ l' ∈ e.limiters, ¬ LimiterIndex.Takes l' id) ∨
      l ∈ e.limiters ∧ LimiterIndex.Takes l id := by
  cases e with
  | apply l' =>
    rcases LimiterIndex.get?_apply h with ⟨hbefore, hother⟩ | ⟨rfl, htakes⟩
    · exact .inl ⟨hbefore, List.forall_mem_singleton.2 hother⟩
    · exact .inr ⟨List.mem_singleton_self _, htakes⟩
  | delete k => exact .inl ⟨LimiterIndex.get?_delete h, List.forall_mem_nil _⟩
  | reset live removed =>
    -- what was removed is not there, so it was there before or is among what was taken in
    exact LimiterIndex.get?_foldl_apply live (LimiterIndex.get?_foldl_delete removed.ids _ h)

/-- A limiter of which only the status has changed leaves the spec queue as it is. -/
theorem specQueue_handle_of_alike {x : Indexes} {l : Limiter}
    (h : Alike (x.limiters.index.get? l.metadata.id) (some l)) :
    (x.handle (.limiters (.apply l))).specQueue = x.specQueue := by
  show x.specQueue.pushAll (x.limiters.index.apply l).1 = x.specQueue
  rw [LimiterIndex.apply_of_alike h]
  rfl

end Indexes

end MeshLimiter
