import MeshLimiter.Proofs.Index
import MeshLimiter.Proofs.Pass.Commands
import MeshLimiter.Proofs.Program.Interleaving
import MeshLimiter.Proofs.Queue
/-!
# The desk of the watch and the workers

A watch puts changed limiters into the index and their keys into the spec queue; workers take the
keys and look the limiters up. What a worker found last is what it makes the pass for.

* **`World.Serves`**: how steps are answered while only the watch and the workers use the desk;
* **`Delivery.lastProcessed`**: the version of a limiter for which a pass ended last;
* **`Delivery.Tidy`**: every limiter was last processed as it is now, or its key is still on its
  way;
* the lemmas **`Delivery.Tidy.…`**: each step at the desk leaves it tidy.
-/

namespace MeshLimiter

open Interleaving
open LimiterIndex (Alike Published)

/-! ## What the watch and the workers share

Only they use it, so its steps are answered from it, and all other steps leave it as it is. -/

/-- The index of limiters and the queue of those that have changed. -/
structure Desk where
  limiters : LimiterIndex
  queue : Queue

def World.desk (w : World) : Desk :=
  { limiters := w.indexes.limiters.index, queue := w.indexes.specQueue }

/-- A pass goes by the key under which the index takes a limiter. -/
theorem Pass.keyOf_of_takes {id : ResourceId} {l : Limiter} (h : LimiterIndex.Takes l id) :
    keyOf l = .ok id := by
  obtain ⟨hns, rfl⟩ := h
  obtain ⟨ns, hns⟩ := Option.isSome_iff_exists.1 hns
  rw [keyOf, hns]

namespace World

/-- How a step is answered where the desk is left to the watch and the workers, while all else may
change by itself. A call may fail. -/
inductive Serves (w : World) : (a : Step) → a.Reply → World → Prop where
  | performed {v : World} (desk : v.desk = w.desk) (a : Step) :
    Serves w a (v.perform a).1 (v.perform a).2
  | failed {v : World} (desk : v.desk = w.desk) (c : ClusterCall) (e : ClusterError) :
    Serves w (.call c) (.error e) v

variable {w w' : World} {id : ResourceId}

/-- A call of the cluster is not about the desk. -/
theorem desk_call (w : World) (c : ClusterCall) : (w.call c).2.desk = w.desk := by
  unfold World.call
  dsimp only
  split
  · rfl
  · split <;> rfl

theorem desk_note_queries (texts : List String) (w : World) :
    (texts.foldl (fun w t => w.note ("query " ++ t)) w).desk = w.desk := by
  induction texts generalizing w with
  | nil => rfl
  | cons t ts ih => exact ih _

/-- No more is any other step than looks, pops, pushes and ends. -/
theorem desk_perform (w : World) {a : Step} (ha : a.offDesk = true) :
    (w.perform a).2.desk = w.desk := by
  cases a with
  | call c => exact w.desk_call c
  | sendQueries texts => exact desk_note_queries texts w
  | findLimiter => cases ha
  | tryPop name | push name | finish name =>
    cases name with
    | spec => cases ha
    | metric => rfl
  | _ => rfl

/-- Such a step leaves the desk as it is, whatever it is answered. -/
theorem Serves.desk_eq {a : Step} {r : a.Reply} (h : w.Serves a r w') (ha : a.offDesk = true) :
    w'.desk = w.desk := by
  cases h with
  | performed desk => rw [desk_perform _ ha, desk]
  | failed desk => exact desk

/-- The index answers what it has. -/
theorem Serves.findLimiter {r : Option Limiter} (h : w.Serves (.findLimiter id) r w') :
    r = w.desk.limiters.get? id ∧ w'.desk = w.desk := by
  cases h with
  | performed desk => rw [← desk]; exact ⟨rfl, rfl⟩

/-- The queue answers with its next key. -/
theorem Serves.tryPop {r : Option ResourceId} (h : w.Serves (.tryPop .spec) r w') :
    r = w.desk.queue.tryPop.1 ∧ w'.desk = { w.desk with queue := w.desk.queue.tryPop.2 } := by
  cases h with
  | performed desk => rw [← desk]; exact ⟨rfl, rfl⟩

/-- The queue takes the key, or refuses it. -/
theorem Serves.push {r : Queue.PushOutcome} (h : w.Serves (.push .spec id) r w') :
    r = (w.desk.queue.push id).1 ∧ w'.desk = { w.desk with queue := (w.desk.queue.push id).2 } := by
  cases h with
  | performed desk => rw [← desk]; exact ⟨rfl, rfl⟩

/-- The queue is told that the work on a key has ended. -/
theorem Serves.finish {r : Bool} (h : w.Serves (.finish .spec id) r w') :
    w'.desk = { w.desk with queue := (w.desk.queue.done id).2 } := by
  cases h with
  | performed desk => rw [← desk]; rfl

end World

namespace Delivery

/-! ## What has happened

The versions that were found and processed are read off the steps on record, the last one first. -/

/-- The workers, the watch of limiters, and the programs that push a key again after a failure. -/
inductive Hand where
  | worker (n : Nat)
  | watch
  | retry (n : Nat)
deriving DecidableEq

/-- What the hands have done so far, and of which events the watch took note. -/
abbrev Past := List (Occurrence Hand (Option (IndexEvent Limiter)))

/-- What a hand found when it last looked a limiter up. -/
def lastLook (t : Hand) (id : ResourceId) : Past → Option (Option Limiter)
  | [] => none
  | .did u ⟨.findLimiter k, (found : Option Limiter)⟩ :: past =>
    if u = t ∧ k = id then some found else lastLook t id past
  | _ :: past => lastLook t id past

/-- The version of a limiter that was last processed: what the hand had found that last finished
with it. No version stands for a deletion. -/
def lastProcessed (id : ResourceId) : Past → Option (Option Limiter)
  | [] => none
  | .did u ⟨.finish .spec k, _⟩ :: past =>
    if k = id then lastLook u id past else lastProcessed id past
  | _ :: past => lastProcessed id past

/-- A limiter was applied or deleted. -/
def Touches (id : ResourceId) : Occurrence Hand (Option (IndexEvent Limiter)) → Prop
  | .began _ (some e) => e.Touches id
  | _ => False

instance (id : ResourceId) : DecidablePred (Touches id)
  | .began _ (some e) => inferInstanceAs (Decidable (e.Touches id))
  | .began _ none => inferInstanceAs (Decidable False)
  | .did _ _ => inferInstanceAs (Decidable False)

/-- A limiter has been applied or deleted some time. -/
def Touched (id : ResourceId) (past : Past) : Prop :=
  ∃ o ∈ past, Touches id o

instance (id : ResourceId) (past : Past) : Decidable (Touched id past) :=
  inferInstanceAs (Decidable (∃ o ∈ past, Touches id o))

/-- The watch was refused a push. -/
def refused : Occurrence Hand (Option (IndexEvent Limiter)) → Bool
  | .did .watch ⟨.push .spec _, (outcome : Queue.PushOutcome)⟩ => !outcome.accepted
  | _ => false

/-- The watch was never refused a push. -/
def NoneRefused (past : Past) : Prop :=
  ∀ o ∈ past, refused o = false

instance (past : Past) : Decidable (NoneRefused past) :=
  inferInstanceAs (Decidable (∀ o ∈ past, refused o = false))

/-- A step that tells nothing of which version of a limiter is processed. -/
structure Aside (o : Occurrence Hand (Option (IndexEvent Limiter))) : Prop where
  look : ∀ t id past, lastLook t id (o :: past) = lastLook t id past
  processed : ∀ id past, lastProcessed id (o :: past) = lastProcessed id past
  touched : ∀ id past, Touched id (o :: past) → Touched id past

/-- A limiter that is touched after a step that does not touch it was touched before. -/
theorem Touched.tail {o : Occurrence Hand (Option (IndexEvent Limiter))} {id : ResourceId}
    {past : Past} (h : Touched id (o :: past)) (ho : ¬ Touches id o) : Touched id past := by
  obtain ⟨o', hmem, ho'⟩ := h
  rcases List.mem_cons.1 hmem with rfl | hmem
  · exact absurd ho' ho
  · exact ⟨o', hmem, ho'⟩

/-- So are all steps but looks and ends of work. -/
theorem aside_did {t : Hand} {a : Step} {r : a.Reply} (hlook : ∀ id, a ≠ .findLimiter id)
    (hfinish : ∀ id, a ≠ .finish .spec id) : Aside (.did t ⟨a, r⟩) where
  look u id past := by
    cases a with
    | findLimiter k => exact absurd rfl (hlook k)
    | _ => rfl
  processed id past := by
    cases a with
    | finish queue k =>
      cases queue with
      | spec => exact absurd rfl (hfinish k)
      | metric => rfl
    | _ => rfl
  touched id past h := h.tail not_false

theorem aside_began {t : Hand} : Aside (.began t none) where
  look _ _ _ := rfl
  processed _ _ := rfl
  touched _ _ h := h.tail not_false

/-- If none was refused, none was before. -/
theorem NoneRefused.tail {o : Occurrence Hand (Option (IndexEvent Limiter))} {past : Past}
    (h : NoneRefused (o :: past)) : NoneRefused past :=
  fun o' ho' => h o' (List.mem_cons_of_mem _ ho')

/-! ## A tidy desk

Each step at the desk keeps it tidy. A step concerns one hand; what holds of the others goes on to
hold, and a limiter stays accounted for by whatever accounted for it, unless that was the hand
itself. -/

/-- Where a hand is. -/
inductive Phase where
  /-- It has taken a key. -/
  | taken (id : ResourceId)
  /-- It makes the pass for what it found. -/
  | busy (id : ResourceId) (found : Option Limiter)
  /-- It has keys to push, or nothing to do. -/
  | owing (ids : List ResourceId)

/-- The key that a hand works on. -/
def Phase.key? : Phase → Option ResourceId
  | taken id | busy id _ => some id
  | owing _ => none

/-- A limiter is accounted for: its key waits, or is taken, or the watch is to push it; or the
version that is processed, or was last, is as it is now. -/
inductive Accounted (d : Desk) (past : Past) (ph : Hand → Phase) (id : ResourceId) : Prop where
  | due (h : d.queue.Due id)
  | taken (t : Hand) (h : ph t = .taken id)
  | owed (ids : List ResourceId) (h : ph .watch = .owing ids) (mem : id ∈ ids)
  | busy (t : Hand) (found : Option Limiter) (h : ph t = .busy id found)
    (alike : Alike found (d.limiters.get? id))
  | processed (idle : id ∉ d.queue.active) (version : Option Limiter)
    (h : lastProcessed id past = some version) (alike : Alike version (d.limiters.get? id))

/-- What holds of the desk at all times. -/
structure Tidy (d : Desk) (past : Past) (ph : Hand → Phase) : Prop where
  orderly : d.queue.Orderly
  active : ∀ t id, (ph t).key? = some id → id ∈ d.queue.active
  alone : ∀ t u id, (ph t).key? = some id → (ph u).key? = some id → t = u
  found : ∀ t id version, ph t = .busy id version → lastLook t id past = some version
  accounted : NoneRefused past → ∀ id, Touched id past ∨ (d.limiters.get? id).isSome = true →
    Accounted d past ph id

variable {d d' : Desk} {past past' : Past} {ph : Hand → Phase} {t u : Hand} {φ : Phase}
  {id k : ResourceId}

/-- What one hand does leaves a limiter accounted for, unless it was accounted for by what that hand
did before; `self` is for that case. -/
theorem Accounted.update (h : Accounted d past ph id)
    (due : d.queue.Due id → d'.queue.Due id)
    (alike : Alike (d.limiters.get? id) (d'.limiters.get? id))
    (idle : id ∉ d.queue.active →
      id ∉ d'.queue.active ∧ lastProcessed id past' = lastProcessed id past)
    (self : (ph t = .taken id ∨ (∃ ids, ph t = .owing ids ∧ id ∈ ids) ∨
      ∃ found, ph t = .busy id found ∧ Alike found (d.limiters.get? id)) →
        Accounted d' past' (Function.update ph t φ) id) :
    Accounted d' past' (Function.update ph t φ) id := by
  -- the other hands are in the phases that they were in
  have hother : ∀ u φ', u ≠ t → ph u = φ' → Function.update ph t φ u = φ' :=
    fun u φ' hu h => (Function.update_of_ne hu _ _).trans h
  cases h with
  | due h => exact .due (due h)
  | taken u h =>
    by_cases hu : u = t
    · exact self (.inl (hu ▸ h))
    · exact .taken u (hother u _ hu h)
  | owed ids h mem =>
    by_cases hu : .watch = t
    · exact self (.inr (.inl ⟨ids, hu ▸ h, mem⟩))
    · exact .owed ids (hother .watch _ hu h) mem
  | busy u found h hfound =>
    by_cases hu : u = t
    · exact self (.inr (.inr ⟨found, hu ▸ h, hfound⟩))
    · exact .busy u found (hother u _ hu h) (hfound.trans alike)
  | processed hidle version h hversion =>
    obtain ⟨hidle', hpast⟩ := idle hidle
    exact .processed hidle' version (hpast.trans h) (hversion.trans alike)

namespace Tidy

/-- A new desk is tidy. -/
theorem new (capacity : Nat) :
    Tidy { limiters := {}, queue := .ofCapacity capacity } [] fun _ => .owing [] where
  orderly := Queue.orderly_ofCapacity capacity
  active _ _ h := nomatch h
  alone _ _ _ h := nomatch h
  found _ _ _ h := nomatch h
  accounted _ id h := by
    rcases h with ⟨o, hmem, -⟩ | hsome
    · cases hmem
    · have hnone : (({} : LimiterIndex).get? id) = none := Std.ExtTreeMap.getElem?_empty
      rw [hnone] at hsome
      cases hsome

/-- What stands aside is of no matter. -/
theorem aside {o : Occurrence Hand (Option (IndexEvent Limiter))} (h : Tidy d past ph)
    (ho : Aside o) : Tidy d (o :: past) ph where
  orderly := h.orderly
  active := h.active
  alone := h.alone
  found t id version hφ := (ho.look t id past).trans (h.found t id version hφ)
  accounted hnone id hid := by
    cases h.accounted hnone.tail id (hid.imp_left (ho.touched id past)) with
    | due h => exact .due h
    | taken u h => exact .taken u h
    | owed ids h mem => exact .owed ids h mem
    | busy u found h hfound => exact .busy u found h hfound
    | processed idle version h hversion =>
      exact .processed idle version ((ho.processed id past).trans h) hversion

/-- A hand comes to another phase. The others stay in theirs, and keep what they found. -/
theorem update (h : Tidy d past ph) (orderly : d'.queue.Orderly)
    (own : ∀ k, φ.key? = some k → k ∈ d'.queue.active ∧ ∀ u, u ≠ t → (ph u).key? ≠ some k)
    (others : ∀ u k, u ≠ t → (ph u).key? = some k → k ∈ d'.queue.active)
    (found : ∀ k version, φ = .busy k version → lastLook t k past' = some version)
    (looks : ∀ u k, u ≠ t → lastLook u k past' = lastLook u k past)
    (accounted : NoneRefused past' → ∀ k, Touched k past' ∨ (d'.limiters.get? k).isSome = true →
      Accounted d' past' (Function.update ph t φ) k) : Tidy d' past' (Function.update ph t φ) where
  orderly := orderly
  active u k hu := by
    by_cases hut : u = t
    · rw [hut, Function.update_self] at hu
      exact (own k hu).1
    · rw [Function.update_of_ne hut] at hu
      exact others u k hut hu
  alone u v k hu hv := by
    -- two hands with one key: the same hand, or one of them has had it before
    by_cases hut : u = t <;> by_cases hvt : v = t
    · exact hut.trans hvt.symm
    · rw [hut, Function.update_self] at hu
      rw [Function.update_of_ne hvt] at hv
      exact absurd hv ((own k hu).2 v hvt)
    · rw [hvt, Function.update_self] at hv
      rw [Function.update_of_ne hut] at hu
      exact absurd hu ((own k hv).2 u hut)
    · rw [Function.update_of_ne hut] at hu
      rw [Function.update_of_ne hvt] at hv
      exact h.alone u v k hu hv
  found u k version hu := by
    by_cases hut : u = t
    · rw [hut, Function.update_self] at hu
      rw [hut]
      exact found k version hu
    · rw [Function.update_of_ne hut] at hu
      exact (looks u k hut).trans (h.found u k version hu)
  accounted := accounted

/-- A hand takes a key. -/
theorem taken (h : Tidy d past ph) (hφ : ph t = .owing []) (hpop : d.queue.tryPop.1 = some id) :
    Tidy { d with queue := d.queue.tryPop.2 } past (Function.update ph t (.taken id)) := by
  rcases Queue.tryPop_cases h.orderly with hnone | ⟨k, q, hsome, hfresh, horderly, hactive, hdue⟩
  · rw [hnone] at hpop
    cases hpop
  rw [hsome] at hpop ⊢
  obtain rfl := Option.some.inj hpop
  have hmem : ∀ i, i ∈ q.active ↔ k = i ∨ i ∈ d.queue.active := fun i => by
    rw [hactive, IdSet.mem_insert]
  refine h.update horderly ?_ (fun u i _ hi => (hmem i).2 (.inr (h.active u i hi)))
    (fun _ _ hi => nomatch hi) (fun _ _ _ => rfl) fun hnone i hi => ?_
  · -- the key that was popped was nobody's
    intro i hi
    obtain rfl := Option.some.inj hi
    exact ⟨(hmem k).2 (.inl rfl), fun u _ hu => hfresh (h.active u k hu)⟩
  · by_cases heq : i = k
    · exact .taken t (by rw [heq, Function.update_self])
    · refine (h.accounted hnone i hi).update (fun hd => (hdue i hd).resolve_left heq)
        (LimiterIndex.alike_refl _) (fun hidle => ⟨fun hi => ?_, rfl⟩) ?_
      · exact ((hmem i).1 hi).elim (fun h => heq h.symm) hidle
      · rw [hφ]
        rintro (h | ⟨ids, h, hids⟩ | ⟨found, h, -⟩)
        · cases h
        · cases h
          cases hids
        · cases h

/-- A hand looks up the limiter of the key that it has taken. -/
theorem looked (h : Tidy d past ph) (hφ : ph t = .taken id) :
    Tidy d (.did t ⟨.findLimiter id, d.limiters.get? id⟩ :: past)
      (Function.update ph t (.busy id (d.limiters.get? id))) := by
  have hkey : (ph t).key? = some id := by rw [hφ]; rfl
  refine h.update h.orderly ?_ (fun u k _ => h.active u k) ?_ ?_ fun hnone k hk => ?_
  · intro k hk
    obtain rfl := Option.some.inj hk
    exact ⟨h.active t id hkey, fun u hut hu => hut (h.alone u t id hu hkey)⟩
  · rintro k version ⟨⟩
    exact if_pos ⟨rfl, rfl⟩
  · -- what others have found last does not change
    exact fun u k hut => if_neg fun heq => hut heq.1.symm
  · refine (h.accounted hnone.tail k (hk.imp_left fun ht => ht.tail not_false)).update
      (fun hd => hd) (LimiterIndex.alike_refl _) (fun hidle => ⟨hidle, rfl⟩) ?_
    rw [hφ]
    rintro (h | ⟨ids, h, -⟩ | ⟨found, h, -⟩)
    · cases h
      exact .busy t _ (Function.update_self ..) (LimiterIndex.alike_refl _)
    · cases h
    · cases h

/-- A hand finishes with a key. What it had found is the version that was processed last. -/
theorem finished (h : Tidy d past ph) {version : Option Limiter} (hφ : ph t = .busy id version)
    (r : Bool) : Tidy { d with queue := (d.queue.done id).2 }
      (.did t ⟨.finish .spec id, r⟩ :: past) (Function.update ph t (.owing [])) := by
  have hkey : (ph t).key? = some id := by rw [hφ]; rfl
  have hmem : ∀ i, i ∈ (d.queue.done id).2.active ↔ id ≠ i ∧ i ∈ d.queue.active := fun i => by
    rw [Queue.active_done, IdSet.mem_erase]
  refine h.update (h.orderly.done id) (fun _ hk => nomatch hk) ?_ (fun _ _ hk => nomatch hk)
    (fun _ _ _ => rfl) fun hnone k hk => ?_
  · -- no other hand works on this key
    rintro u k hut hu
    refine (hmem k).2 ⟨?_, h.active u k hu⟩
    rintro rfl
    exact hut (h.alone u t id hu hkey)
  · refine (h.accounted hnone.tail k (hk.imp_left fun ht => ht.tail not_false)).update
      (fun hd => hd.done id)
      (LimiterIndex.alike_refl _) (fun hidle => ⟨fun hk => hidle ((hmem k).1 hk).2, ?_⟩) ?_
    · refine if_neg ?_
      rintro rfl
      exact hidle (h.active t id hkey)
    · rw [hφ]
      rintro (h' | ⟨ids, h', -⟩ | ⟨found, h', hfound⟩)
      · cases h'
      · cases h'
      · cases h'
        refine .processed (fun hk => ((hmem id).1 hk).1 rfl) version ?_ hfound
        exact (if_pos rfl).trans (h.found t id version hφ)

/-- A key is pushed. -/
theorem pushed (h : Tidy d past ph) (id : ResourceId) :
    Tidy { d with queue := (d.queue.push id).2 } past ph where
  orderly := h.orderly.push id
  active u k hu := by
    show k ∈ (d.queue.push id).2.active
    rw [Queue.active_push]
    exact h.active u k hu
  alone := h.alone
  found := h.found
  accounted hnone k hk := by
    -- a push only adds to what waits, so each account stands
    cases h.accounted hnone k hk with
    | due h => exact .due (h.push id)
    | taken u h => exact .taken u h
    | owed ids h mem => exact .owed ids h mem
    | busy u found h hfound => exact .busy u found h hfound
    | processed idle version h hversion =>
      refine .processed ?_ version h hversion
      show k ∉ (d.queue.push id).2.active
      rw [Queue.active_push]
      exact idle

/-- The watch has pushed one of the keys that it was to push. -/
theorem settled (h : Tidy d past ph) {ids : List ResourceId} (hφ : ph .watch = .owing (id :: ids))
    (hdue : NoneRefused past → d.queue.Due id) :
    Tidy d past (Function.update ph .watch (.owing ids)) := by
  refine h.update h.orderly (fun _ hk => nomatch hk) (fun u k _ => h.active u k)
    (fun _ _ hk => nomatch hk) (fun _ _ _ => rfl) fun hnone k hk => ?_
  refine (h.accounted hnone k hk).update (fun hd => hd) (LimiterIndex.alike_refl _)
    (fun hidle => ⟨hidle, rfl⟩) ?_
  rw [hφ]
  rintro (h | ⟨ids', h, hmem⟩ | ⟨found, h, -⟩)
  · cases h
  · cases h
    rcases List.mem_cons.1 hmem with rfl | hmem
    · exact .due (hdue hnone)
    · exact .owed ids (Function.update_self ..) hmem
  · cases h

/-- The watch takes an event into the index. What that publishes is to be pushed. -/
theorem published (h : Tidy d past ph) {e : IndexEvent Limiter} {ids : List ResourceId}
    {x : LimiterIndex}
    (hφ : ph .watch = .owing []) (hpublished : Published d.limiters ids x e.Touches) :
    Tidy { d with limiters := x } (.began .watch (some e) :: past)
      (Function.update ph .watch (.owing ids)) := by
  refine h.update h.orderly (fun _ hk => nomatch hk) (fun u k _ => h.active u k)
    (fun _ _ hk => nomatch hk) (fun _ _ _ => rfl) fun hnone k hk => ?_
  rcases hpublished k with hmem | ⟨halike, hknown⟩
  · exact .owed ids (Function.update_self ..) hmem
  · -- what is not published was known
    have hbefore : Touched k past ∨ (d.limiters.get? k).isSome = true := by
      rcases hk with ⟨o, hmem, ho⟩ | hsome
      · rcases List.mem_cons.1 hmem with rfl | hmem
        · exact .inr (hknown ho)
        · exact .inl ⟨o, hmem, ho⟩
      · exact .inr (halike.isSome hsome)
    refine (h.accounted hnone.tail k hbefore).update (fun hd => hd) halike
      (fun hidle => ⟨hidle, rfl⟩) ?_
    rw [hφ]
    rintro (h | ⟨ids', h, hmem⟩ | ⟨found, h, -⟩)
    · cases h
    · cases h
      cases hmem
    · cases h

end Tidy

end Delivery

end MeshLimiter
