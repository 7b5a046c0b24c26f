import MeshLimiter.Pass.Collection
import MeshLimiter.Proofs.Material
/-!
# Gathering metrics again

A query that fails keeps what the material before held for it. So what a collection gives depends on
what was collected before. It settles at once: with the same replies, the collection after it gives
the same material again.

* **`Material.Blind`**: changes that, under each key, write something fixed or nothing at all;
* **`Query.slot_carryOver_of_some`**, **`Query.slot_carryOver_of_none`**: what a failed query keeps;
* **`Collected.gather_gather`**: gathering from what was gathered gives the same.

Under one key the argument is this. The last query to write there is the same both times, unless a
failed query keeps a value that a query behind it has written the first time; and that is the value
it ends with.
-/

namespace MeshLimiter

namespace Material

/-! ## Changes that do not look

To store a sample is to write fixed values under some keys, whatever the material was. -/

/-- A change that, under each key, leaves everything as it is or writes something fixed. -/
def Blind (f : Material → Material) : Prop :=
  ∀ key, (∀ m, (f m).slot key = m.slot key) ∨ ∃ v group, ∀ m, (f m).slot key = (some v, group)

theorem Blind.id : Blind fun m => m :=
  fun _ => .inl fun _ => rfl

theorem Blind.insert (k v : String) : Blind fun m => m.insert k v := by
  intro key
  by_cases h : k = key
  · exact .inr ⟨v, false, fun m => by rw [slot_insert, if_pos h]⟩
  · exact .inl fun m => by rw [slot_insert, if_neg h]

theorem Blind.insertGroup (k v : String) : Blind fun m => m.insertGroup k v := by
  intro key
  by_cases h : k = key
  · exact .inr ⟨v, true, fun m => by rw [slot_insertGroup, if_pos h]⟩
  · exact .inl fun m => by rw [slot_insertGroup, if_neg h]

theorem Blind.comp {f g : Material → Material} (hf : Blind f) (hg : Blind g) :
    Blind fun m => g (f m) := by
  intro key
  -- the later change decides, unless it leaves the key alone
  rcases hg key with hg | ⟨v, group, hg⟩
  · rcases hf key with hf | ⟨v, group, hf⟩
    · exact .inl fun m => by rw [hg, hf]
    · exact .inr ⟨v, group, fun m => by rw [hg, hf]⟩
  · exact .inr ⟨v, group, fun m => hg (f m)⟩

theorem Blind.foldl {α : Type} {step : Material → α → Material} (hstep : ∀ x, Blind (step · x))
    (xs : List α) : Blind fun m => xs.foldl step m := by
  induction xs with
  | nil => exact Blind.id
  | cons x xs ih => exact (hstep x).comp ih

end Material

/-- Storing a sample writes something fixed, or fails whatever the material is. -/
theorem Sample.store?_cases (q : Query) (s : Sample) :
    (∀ m, store? m q s = none) ∨ ∃ f, Material.Blind f ∧ ∀ m, store? m q s = some (f m) := by
  unfold store?
  cases hk : q.kind with
  | value =>
    cases s with
    | scalar x => exact .inr ⟨_, .insert q.name _, fun m => rfl⟩
    | vector xs =>
      dsimp only
      split
      · -- a vector of no values, or of several, is no single value
        exact .inl fun m => rfl
      · exact .inr ⟨_, .insert q.name _, fun m => rfl⟩
  | group =>
    dsimp only
    split
    · exact .inl fun m => rfl
    · refine .inr ⟨_, ?_, fun m => rfl⟩
      exact (Material.Blind.foldl (fun p => .insert _ _) _).comp (.insertGroup q.name _)

namespace Query

variable (q : Query) (previous : Material)

/-- What a failed query keeps of one entry of the material before. -/
def keepOne (acc : Material) (entry : String × String) : Material :=
  if q.owns entry.1 then acc.put (previous.isGroup entry.1) entry.1 entry.2 else acc

theorem carryOver_eq_foldl (m : Material) :
    q.carryOver previous m = previous.values.toList.foldl (q.keepOne previous) m := by
  unfold carryOver
  rw [Std.ExtTreeMap.foldl_eq_foldl_toList]
  rfl

/-- A failed query keeps what was held under a key of its own. -/
theorem slot_carryOver_of_some (m : Material) {key v : String} (howns : q.owns key = true)
    (hv : previous.values[key]? = some v) :
    (q.carryOver previous m).slot key = (some v, previous.isGroup key) := by
  rw [carryOver_eq_foldl]
  refine (Material.slot_foldl_values q.owns m previous key).trans ?_
  rw [if_pos ⟨howns, Option.isSome_of_eq_some hv⟩]
  exact Prod.ext hv rfl

/-- It writes nothing under other keys, nor where nothing was held. -/
theorem slot_carryOver_of_none (m : Material) {key : String}
    (h : q.owns key = false ∨ previous.values[key]? = none) :
    (q.carryOver previous m).slot key = m.slot key := by
  rw [carryOver_eq_foldl]
  refine (Material.slot_foldl_values q.owns m previous key).trans (if_neg ?_)
  rintro ⟨howns, hsome⟩
  rcases h with h | h
  · rw [h] at howns
    cases howns
  · rw [h] at hsome
    cases hsome

end Query

namespace Collected

open Material (Blind)

/-! ## All queries of a collection

One after another they are taken in. What a failed one keeps comes from the material before, not
from the one that is gathered. -/

theorem takeIn_ok_eq (previous m : Material) (q : Query) (sample : Sample) :
    takeIn previous m q (.ok sample) =
      match Sample.store? m q sample with
      | some m => (m, .ok)
      | none => (m, .empty) := rfl

theorem takeIn_error (previous m : Material) (q : Query) (e : QueryError) :
    takeIn previous m q (.error e) = (q.carryOver previous m, .error) := rfl

/-- A reply writes something fixed under each key, or nothing. -/
theorem blind_takeIn (previous : Material) (q : Query) (r : QueryReply) :
    Blind fun m => (takeIn previous m q r).1 := by
  cases r with
  | ok sample =>
    rcases Sample.store?_cases q sample with h | ⟨f, hf, h⟩
    · have htake : (fun m => (takeIn previous m q (.ok sample)).1) = fun m => m := by
        funext m
        rw [takeIn_ok_eq, h]
      rw [htake]
      exact Blind.id
    · have htake : (fun m => (takeIn previous m q (.ok sample)).1) = f := by
        funext m
        rw [takeIn_ok_eq, h]
      rw [htake]
      exact hf
  | error e =>
    -- a failed query keeps what was held of the keys that are its own
    intro key
    cases howns : q.owns key with
    | false => exact .inl fun m => q.slot_carryOver_of_none previous m (.inl howns)
    | true =>
      cases hv : previous.values[key]? with
      | none => exact .inl fun m => q.slot_carryOver_of_none previous m (.inr hv)
      | some v => exact .inr ⟨v, _, fun m => q.slot_carryOver_of_some previous m howns hv⟩

theorem takeIn_ok (previous previous' m : Material) (q : Query) (sample : Sample) :
    takeIn previous m q (.ok sample) = takeIn previous' m q (.ok sample) := rfl

/-- The outcome depends on query and reply alone. -/
theorem takeIn_outcome (previous previous' m m' : Material) (q : Query) (r : QueryReply) :
    (takeIn previous m q r).2 = (takeIn previous' m' q r).2 := by
  cases r with
  | ok sample =>
    rcases Sample.store?_cases q sample with h | ⟨f, -, h⟩
    · rw [takeIn_ok_eq, takeIn_ok_eq, h, h]
    · rw [takeIn_ok_eq, takeIn_ok_eq, h, h]
  | error e => rfl

theorem gather_cons (previous m : Material) (q : Query) (r : QueryReply)
    (answers : List (Query × QueryReply)) : gather previous m ((q, r) :: answers)
      = ((gather previous (takeIn previous m q r).1 answers).1,
        (takeIn previous m q r).2 :: (gather previous (takeIn previous m q r).1 answers).2) := rfl

theorem gather_outcomes (previous previous' : Material) (answers : List (Query × QueryReply))
    (m m' : Material) : (gather previous m answers).2 = (gather previous' m' answers).2 := by
  induction answers generalizing m m' with
  | nil => rfl
  | cons answer answers ih =>
    obtain ⟨q, r⟩ := answer
    rw [gather_cons, gather_cons]
    exact List.cons_eq_cons.2 ⟨takeIn_outcome .., ih _ _⟩

theorem blind_gather (previous : Material) (answers : List (Query × QueryReply)) :
    Blind fun m => (gather previous m answers).1 := by
  induction answers with
  | nil => exact Blind.id
  | cons answer answers ih => exact (blind_takeIn previous answer.1 answer.2).comp ih

/-- A key that has a value keeps one. -/
theorem gather_keeps (previous m : Material) (answers : List (Query × QueryReply)) {key v : String}
    (h : m.values[key]? = some v) : (gather previous m answers).1.values[key]? ≠ none := by
  rcases blind_gather previous answers key with hid | ⟨v', group, hv⟩
  · have hslot := congrArg Prod.fst (hid m)
    rw [show (gather previous m answers).1.values[key]? = m.values[key]? from hslot, h]
    simp
  · have hslot := congrArg Prod.fst (hv m)
    rw [show (gather previous m answers).1.values[key]? = some v' from hslot]
    simp

/-- While the same replies are gathered once more, from the material `final` that they came to:
under each key there is what was there the first time, or what came to be there in the end. -/
theorem slot_gather_again (previous final : Material) (key : String)
    (answers : List (Query × QueryReply)) (first again : Material)
    (hfinal : (gather previous first answers).1 = final)
    (h : again.slot key = first.slot key ∨ again.slot key = final.slot key) :
    (gather final again answers).1.slot key = final.slot key := by
  -- the invariant `h` is on the key alone: two queries may write it, and only the last one counts
  induction answers generalizing first again with
  | nil =>
    rcases h with h | h
    · rw [← hfinal]
      exact h
    · exact h
  | cons answer answers ih =>
    obtain ⟨q, r⟩ := answer
    rw [gather_cons] at hfinal ⊢
    refine ih _ _ hfinal ?_
    cases r with
    | ok sample =>
      -- the same is written both times, or nothing
      rcases blind_takeIn previous q (.ok sample) key with hid | ⟨v, group, hv⟩
      · rw [hid first]
        rw [takeIn_ok final previous, hid again]
        exact h
      · left
        rw [hv first, takeIn_ok final previous, hv again]
    | error e =>
      rw [takeIn_error, takeIn_error]
      cases howns : q.owns key with
      | false =>
        rw [q.slot_carryOver_of_none final again (.inl howns),
          q.slot_carryOver_of_none previous first (.inl howns)]
        exact h
      | true =>
        cases hv : final.values[key]? with
        | some v =>
          -- the failed query keeps the final value
          right
          rw [q.slot_carryOver_of_some final again howns hv]
          exact Prod.ext hv.symm rfl
        | none =>
          -- then nothing was held before either, since what is kept stays
          cases hp : previous.values[key]? with
          | none =>
            rw [q.slot_carryOver_of_none final again (.inr hv),
              q.slot_carryOver_of_none previous first (.inr hp)]
            exact h
          | some v =>
            have hslot := q.slot_carryOver_of_some previous first howns hp
            have hkept := gather_keeps previous (q.carryOver previous first) answers
              (congrArg Prod.fst hslot)
            exact absurd (by rw [← hv, ← hfinal]; rfl) hkept

/-- **Gathering settles at once.** The same replies, gathered from the material that they came to,
come to that material again. -/
theorem gather_gather (previous m : Material) (answers : List (Query × QueryReply)) :
    gather (gather previous m answers).1 m answers = gather previous m answers := by
  refine Prod.ext ?_ (gather_outcomes ..)
  exact Material.eq_of_slot_eq fun key =>
    slot_gather_again previous _ key answers m m rfl (.inl rfl)

end Collected

end MeshLimiter
