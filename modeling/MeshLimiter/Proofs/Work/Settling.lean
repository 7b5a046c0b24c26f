import MeshLimiter.Proofs.Pass.Noting
import MeshLimiter.Proofs.Work.Skipping
import MeshLimiter.Proofs.Work.Turns
/-!
# How limiters settle

A worker makes its pass for the version that it has looked up, and the index may have another one by
then. For a limiter that has changed this does not matter, since its key is in the queue again, and
each worker that takes changed limiters has its key for itself. But nothing makes up for a pass for
metrics that comes too late.

* **`Turns.LastPass`**: the pass that has applied a limiter last;
* **`Turns.AtDesk`**, **`Turns.OnRecord`**: how the workers stand to the queue, and to what has been
  done;
* **`Turns.Accounted`**: what is still to come for a limiter, or what has come last;
* **`Turns.Accounted.turn`**, **`Turns.Accounted.told`**: limiters stay accounted for.
-/

namespace MeshLimiter

open Program (Runs)
open LimiterIndex (Alike Takes)

namespace Turns

open Pass (keyOf appliedOf isApplied)

variable {s : Settings} {t : Worker} {x y : State} {id k : ResourceId} {l : Limiter} {d : Deed}
  {past : List Deed} {p : Pass.Taken} {c : Collected}

/-! ## What has been done for a limiter

Passes, deletions and events are deeds, the last one first. A deed may be for a version that the
index has not any more. -/

/-- The limiters that the index was told of. -/
def given (past : List Deed) : List Limiter :=
  past.flatMap fun
    | .told e => e.limiters
    | _ => []

/-- A limiter that the index was told of under a key. -/
def Given (id : ResourceId) (l : Limiter) (past : List Deed) : Prop :=
  l ∈ given past ∧ Takes l id

/-- A deed after which something else is noted as applied: a pass that has collected metrics, or a
deletion. -/
def Touches (s : Settings) (id : ResourceId) : Deed → Prop
  | .told _ => False
  | .pass p => keyOf p.limiter = .ok id ∧ ∃ c, p.Collects s id c
  | .deletion k => k = id

/-- The last pass that has applied a limiter, with the metrics that it has collected, if the limiter
was not deleted since. -/
inductive LastPass (s : Settings) (id : ResourceId) (p : Pass.Taken) (c : Collected) :
    List Deed → Prop where
  | now {past : List Deed} (key : keyOf p.limiter = .ok id) (ran : p.Ran World.Answers s)
    (ok : p.result = .ok ()) (collects : p.Collects s id c) : LastPass s id p c (.pass p :: past)
  | since {d : Deed} {past : List Deed} (earlier : LastPass s id p c past)
    (aside : ¬ Touches s id d) : LastPass s id p c (d :: past)

/-- A pass for a version of a limiter that was not in the index any more when the pass was made. -/
def Outdated (id : ResourceId) (p : Pass.Taken) : Prop :=
  ∀ l, p.before.desk.limiters.get? id = some l → l.metadata.uid = p.limiter.metadata.uid →
    ¬ Alike (some p.limiter) (some l)

/-- Versions of a limiter with one generation have one specification, as far as the index was told
of them. -/
def GenerationsTell (id : ResourceId) (past : List Deed) : Prop :=
  ∀ l ∈ given past, ∀ l' ∈ given past, Takes l id → Takes l' id →
    l.metadata.generation.isSome = true → l.metadata.generation = l'.metadata.generation →
    l.spec = l'.spec

/-- Of two generations, if there are two, the second is not the lower one. -/
def NotLower : Option Int64 → Option Int64 → Prop
  | some g, some g' => g ≤ g'
  | _, _ => True

/-- The index was told of the versions of each object in the order of their generations. -/
def InOrder (id : ResourceId) : List Deed → Prop
  | [] => True
  | .told e :: past =>
    (∀ l ∈ e.limiters, ∀ l' ∈ e.limiters ++ given past, Takes l id → Takes l' id →
      l.metadata.uid.isSome = true → l.metadata.uid = l'.metadata.uid →
        NotLower l'.metadata.generation l.metadata.generation) ∧ InOrder id past
  | .pass _ :: past | .deletion _ :: past => InOrder id past

/-- No generation is lower than itself. -/
theorem notLower_refl (g : Option Int64) : NotLower g g := by
  cases g with
  | none => trivial
  | some g => exact Int64.le_refl g

/-- What was given stays so. -/
theorem Given.cons (h : Given id l past) (d : Deed) : Given id l (d :: past) :=
  ⟨List.mem_append_right _ h.1, h.2⟩

/-- What was given under a key has that key. -/
theorem Given.keyOf (h : Given id l past) : keyOf l = .ok id :=
  Pass.keyOf_of_takes h.2

/-- A pass that succeeds touches its limiter and notes it, or leaves what is noted as it is. -/
theorem noted_of_pass (key : keyOf p.limiter = .ok k) (ran : p.Ran World.Answers s)
    (ok : p.result = .ok ()) (id : ResourceId) :
    (∃ c, k = id ∧ p.Collects s id c ∧ p.after.held.applied[id]? = some (appliedOf p.limiter c)) ∨
    ¬ Touches s id (.pass p) ∧ p.after.held.applied[id]? = p.before.held.applied[id]? ∧
      (k = id → p.occasion = .changed →
        ∃ revision, isApplied p.before.held.applied[id]? p.limiter revision = true) := by
  -- the pass has one key
  have hself : ∀ {k'}, Pass.keyOf p.limiter = .ok k' → k' = k := by
    intro k' h
    rw [key] at h
    exact (Except.ok.inj h).symm
  rcases ran.noted sound_answers key ok with ⟨c, hc, happlied⟩ | ⟨hnone, happlied, hskip⟩
  · rw [happlied]
    by_cases heq : k = id
    · subst heq
      exact .inl ⟨c, rfl, hc, Std.ExtTreeMap.getElem?_insert_self⟩
    · refine .inr ⟨fun h => heq (hself h.1).symm, ?_, fun h => absurd h heq⟩
      rw [Std.ExtTreeMap.getElem?_insert, if_neg (by rwa [Std.LawfulEqCmp.compare_eq_iff_eq])]
  · refine .inr ⟨?_, by rw [happlied], ?_⟩
    · rintro ⟨h, c, hc⟩
      obtain rfl := hself h
      exact hnone c hc
    · -- it has collected nothing, so it has passed the limiter over
      rintro rfl hchanged
      exact hskip hchanged

/-! ## Workers and their queue

A key that is worked on belongs to one worker of its queue, and is active there. -/

/-- Who takes keys of limiters that have changed works on a key alone. -/
structure AtDesk (q : Queue) (stance : Worker → Stance) : Prop where
  orderly : q.Orderly
  active : ∀ t id, t.queue = .spec → (stance t).key? = some id → id ∈ q.active
  alone : ∀ t u id, t.queue = .spec → u.queue = .spec → (stance t).key? = some id →
    (stance u).key? = some id → t = u

section

variable {q q' : Queue} {stance : Worker → Stance} {φ : Stance}

/-- A worker comes to another stance. The others stay in theirs. -/
theorem AtDesk.update (h : AtDesk q stance) (orderly : q'.Orderly)
    (own : ∀ k, t.queue = .spec → φ.key? = some k →
      k ∈ q'.active ∧ ∀ u, u.queue = .spec → u ≠ t → (stance u).key? ≠ some k)
    (others : ∀ u k, u.queue = .spec → u ≠ t → (stance u).key? = some k → k ∈ q'.active) :
    AtDesk q' (Function.update stance t φ) where
  orderly := orderly
  active u k hu hk := by
    by_cases hut : u = t
    · subst hut
      rw [Function.update_self] at hk
      exact (own k hu hk).1
    · rw [Function.update_of_ne hut] at hk
      exact others u k hu hut hk
  alone u v k hu hv hku hkv := by
    -- two workers with one key: the same worker, or one of them has had it before
    by_cases hut : u = t <;> by_cases hvt : v = t
    · exact hut.trans hvt.symm
    · subst hut
      rw [Function.update_self] at hku
      rw [Function.update_of_ne hvt] at hkv
      exact absurd hkv ((own k hu hku).2 v hv hvt)
    · subst hvt
      rw [Function.update_self] at hkv
      rw [Function.update_of_ne hut] at hku
      exact absurd hku ((own k hv hkv).2 u hu hut)
    · rw [Function.update_of_ne hut] at hku
      rw [Function.update_of_ne hvt] at hkv
      exact h.alone u v k hu hv hku hkv

/-- It stays with its key, or is not at this queue. -/
theorem AtDesk.keep (h : AtDesk q stance) (hkey : t.queue = .spec → φ.key? = (stance t).key?) :
    AtDesk q (Function.update stance t φ) := by
  refine h.update h.orderly (fun k ht hk => ?_) fun u k hu _ hk => h.active u k hu hk
  rw [hkey ht] at hk
  exact ⟨h.active t k ht hk, fun u hu hne hku => hne (h.alone u t k hu ht hku hk)⟩

end

/-- A turn takes a key that nobody has, or gives one back. -/
theorem AtDesk.turn (h : AtDesk x.world.desk.queue x.stance) (turn : Turn s t x y) :
    AtDesk y.world.desk.queue y.stance := by
  cases turn with
  | @pop id free popped =>
    obtain ⟨q, n⟩ := t
    cases q with
    | spec =>
      rcases Queue.tryPop_cases h.orderly with hnone | ⟨k, q', hpop, hidle, horderly, hactive, -⟩
      · exact absurd ((congrArg Prod.fst hnone).symm.trans popped) nofun
      · obtain rfl := Option.some.inj ((congrArg Prod.fst hpop).symm.trans popped)
        -- a key that can be taken is not under work, so no other worker has it
        show AtDesk x.world.desk.queue.tryPop.2 _
        rw [hpop]
        refine h.update horderly (fun k' _ hk' => ?_) fun u k' hu _ hk' => ?_
        · obtain rfl := Option.some.inj hk'
          rw [hactive]
          exact ⟨IdSet.mem_insert.2 (.inl rfl), fun u hu _ hku => hidle (h.active u _ hu hku)⟩
        · rw [hactive]
          exact IdSet.mem_insert.2 (.inr (h.active u k' hu hk'))
    | metric => exact h.keep (t := ⟨.metric, n⟩) nofun
  | @look id taken => exact h.keep fun _ => by rw [taken]; rfl
  | @pass id p found _ _ _ _ apart =>
    show AtDesk p.after.desk.queue _
    rw [apart]
    exact h.keep fun _ => by rw [found]; rfl
  | @deletion id tr w found _ _ apart =>
    show AtDesk w.desk.queue _
    rw [apart]
    exact h.keep fun _ => by rw [found]; rfl
  | @nothing id found metric => exact h.keep fun _ => by rw [found]; rfl
  | @finish id passed =>
    obtain ⟨q, n⟩ := t
    cases q with
    | spec =>
      refine h.update (h.orderly.done id) (fun k _ => nofun) fun u k hu hne hk => ?_
      show k ∈ (x.world.desk.queue.done id).2.active
      rw [Queue.active_done]
      -- another worker has another key, which stays under work
      refine IdSet.mem_erase.2 ⟨?_, h.active u k hu hk⟩
      rintro rfl
      exact hne (h.alone u _ id hu rfl hk (by rw [passed]; rfl))
    | metric => exact h.keep (t := ⟨.metric, n⟩) nofun

/-! ## What is on record

What workers have found was in the index some time, and what is noted as applied comes from the last
pass. -/

/-- What is known, found or noted is on record with what has been done. -/
structure OnRecord (s : Settings) (x : State) : Prop where
  known : ∀ id l, x.world.desk.limiters.get? id = some l → Given id l x.past
  found : ∀ t id l, x.stance t = .found id (some l) → Given id l x.past
  noted : ∀ id p c, LastPass s id p c x.past →
    x.world.held.applied[id]? = some (appliedOf p.limiter c)
  applied : ∀ id a, x.world.held.applied[id]? = some a →
    ∃ p c, LastPass s id p c x.past ∧ a = appliedOf p.limiter c ∧ Given id p.limiter x.past

namespace OnRecord

/-- A worker comes to another stance, and nothing is told or noted. -/
theorem goOn {φ : Stance} {w : World} (h : OnRecord s x)
    (limiters : w.desk.limiters = x.world.desk.limiters)
    (held : w.held = x.world.held) (found : ∀ id l, φ = .found id (some l) → Given id l x.past) :
    OnRecord s (x.goOn t φ w) where
  known id l hl := h.known id l (by rw [← limiters]; exact hl)
  found u id l hu := by
    by_cases hut : u = t
    · subst hut
      exact found id l ((Function.update_self ..).symm.trans hu)
    · exact h.found u id l ((Function.update_of_ne hut ..).symm.trans hu)
  noted id p c hlast := (congrArg (·.applied[id]?) held).trans (h.noted id p c hlast)
  applied id a ha := h.applied id a ((congrArg (·.applied[id]?) held).symm.trans ha)

/-- A deed that is no event for the index, by a worker that has done with its limiter. -/
theorem after {w : World} (h : OnRecord s x) (limiters : w.desk.limiters = x.world.desk.limiters)
    (noted : ∀ id p c, LastPass s id p c (d :: x.past) →
      w.held.applied[id]? = some (appliedOf p.limiter c))
    (applied : ∀ id a, w.held.applied[id]? = some a →
      (x.world.held.applied[id]? = some a ∧ ¬ Touches s id d) ∨
        ∃ p c, LastPass s id p c (d :: x.past) ∧ a = appliedOf p.limiter c ∧
          Given id p.limiter x.past) :
    OnRecord s ((x.goOn t (.passed k) w).after d) where
  known id l hl := (h.known id l (by rw [← limiters]; exact hl)).cons d
  found u id l hu := by
    -- the hand that acted has passed its limiter on, every other keeps its own
    by_cases hut : u = t
    · subst hut
      cases (Function.update_self ..).symm.trans hu
    · exact (h.found u id l ((Function.update_of_ne hut ..).symm.trans hu)).cons d
  noted := noted
  applied id a ha := by
    -- what is noted as applied is older than the deed, or the deed has put it there
    rcases applied id a ha with ⟨ha, haside⟩ | ⟨p, c, hlast, heq, hgiven⟩
    · obtain ⟨p, c, hlast, heq, hgiven⟩ := h.applied id a ha
      exact ⟨p, c, .since hlast haside, heq, hgiven.cons d⟩
    · exact ⟨p, c, hlast, heq, hgiven.cons d⟩

/-- A turn puts on record what it does. -/
theorem turn (h : OnRecord s x) (turn : Turn s t x y) : OnRecord s y := by
  cases turn with
  | @pop id free popped =>
    refine h.goOn ?_ ?_ (fun _ _ => nofun) <;> cases t.queue <;> rfl
  | @look id taken =>
    refine h.goOn rfl rfl fun k l heq => ?_
    obtain ⟨rfl, hl⟩ := Stance.found.inj heq
    exact h.known _ l hl
  | @pass k p found _ before ran ok apart =>
    have hgiven : Given k p.limiter x.past := h.found t k _ found
    -- where the pass has noted something it is the last one now, else all is as it was
    refine h.after (by rw [apart]) (fun id q c hlast => ?_) fun id a ha => ?_
    · rcases noted_of_pass hgiven.keyOf ran ok id with ⟨c', rfl, hc', happlied⟩ |
        ⟨haside, happlied, -⟩
      · cases hlast with
        | now _ _ _ collects => rw [happlied, hc'.eq collects]
        | since _ aside => exact absurd ⟨hgiven.keyOf, c', hc'⟩ aside
      · cases hlast with
        | now key _ _ collects => exact absurd ⟨key, c, collects⟩ haside
        | since earlier _ => rw [happlied, before, h.noted id q c earlier]
    · rcases noted_of_pass hgiven.keyOf ran ok id with ⟨c', rfl, hc', happlied⟩ |
        ⟨haside, happlied, -⟩
      · rw [happlied] at ha
        exact .inr ⟨p, c', .now hgiven.keyOf ran ok hc', (Option.some.inj ha).symm, hgiven⟩
      · rw [happlied, before] at ha
        exact .inl ⟨ha, haside⟩
  | @deletion k tr w found _ ran apart =>
    have happlied := Pass.applied_of_runs_delete sound_answers ran
    refine h.after (by rw [apart]) (fun id p c hlast => ?_) fun id a ha => ?_
    · cases hlast with
      | since earlier aside =>
        rw [happlied, Std.ExtTreeMap.getElem?_erase,
          if_neg (by rw [Std.LawfulEqCmp.compare_eq_iff_eq]; exact aside)]
        exact h.noted id p c earlier
    · rw [happlied, Std.ExtTreeMap.getElem?_erase] at ha
      split at ha
      · cases ha
      · next hne => exact .inl ⟨ha, fun heq => hne (Std.LawfulEqCmp.compare_eq_iff_eq.2 heq)⟩
  | @nothing id found metric => exact h.goOn rfl rfl fun _ _ => nofun
  | @finish id passed =>
    refine h.goOn ?_ ?_ (fun _ _ => nofun) <;> cases t.queue <;> rfl

end OnRecord

/-! ## Limiters are accounted for

A change puts the key in the queue, a worker takes it and makes the pass for what it then finds. At
each point there is something that will bring the pass about, or it was the last one. -/

/-- The pass was for the specification of a limiter, or for metrics and too late. -/
def Suits (id : ResourceId) (l : Limiter) (p : Pass.Taken) : Prop :=
  p.limiter.spec = l.spec ∨ p.occasion = .metrics ∧ Outdated id p

/-- A limiter is accounted for: its key waits, or a worker has it and will see the limiter as it is
or has seen it so; or no worker will make a pass for it, and the last one suits it. -/
inductive Accounted (s : Settings) (id : ResourceId) (x : State) (l : Limiter) : Prop where
  | due (h : x.world.desk.queue.Due id)
  | taken (t : Worker) (spec : t.queue = .spec) (h : x.stance t = .taken id)
  | found (t : Worker) (spec : t.queue = .spec) (l' : Limiter)
    (h : x.stance t = .found id (some l')) (alike : Alike (some l') (some l))
  | settled (p : Pass.Taken) (c : Collected)
    (idle : ∀ t, t.queue = .spec → (x.stance t).pending? ≠ some id)
    (last : LastPass s id p c x.past) (suits : Suits id l p)

namespace Accounted

variable {φ : Stance}

/-- No worker will make a pass for a limiter, if no other one would and one comes to another
stance. -/
theorem idle_update (stance : y.stance = Function.update x.stance t φ)
    (others : ∀ u, u.queue = .spec → u ≠ t → (x.stance u).pending? ≠ some id)
    (own : t.queue = .spec → φ.pending? ≠ some id) :
    ∀ u, u.queue = .spec → (y.stance u).pending? ≠ some id := by
  intro u hu
  rw [stance]
  by_cases hut : u = t
  · subst hut
    rw [Function.update_self]
    exact own hu
  · rw [Function.update_of_ne hut]
    exact others u hu hut

/-- What one worker does leaves a limiter accounted for, unless this worker was, or is now, to make
the pass for it. -/
theorem update (h : Accounted s id x l) (stance : y.stance = Function.update x.stance t φ)
    (due : x.world.desk.queue.Due id → Accounted s id y l)
    (before : t.queue = .spec → (x.stance t).pending? = some id →
      (∀ l', x.stance t = .found id l' → Alike l' (some l)) → Accounted s id y l)
    (now : t.queue = .spec → φ.pending? = some id → Accounted s id y l)
    (settled : ∀ p c, (t.queue = .spec → (x.stance t).pending? ≠ some id) →
      LastPass s id p c x.past →
      Suits id l p → ∃ p c, LastPass s id p c y.past ∧ Suits id l p) : Accounted s id y l := by
  -- the other workers are where they were
  have hother : ∀ u, u ≠ t → y.stance u = x.stance u :=
    fun u hu => (congrFun stance u).trans (Function.update_of_ne hu _ _)
  cases h with
  | due h => exact due h
  | taken u spec h =>
    by_cases hu : u = t
    · subst hu
      refine before spec (by rw [h]; rfl) fun l' hl' => ?_
      rw [h] at hl'
      cases hl'
    · exact .taken u spec ((hother u hu).trans h)
  | found u spec l' h alike =>
    by_cases hu : u = t
    · subst hu
      refine before spec (by rw [h]; rfl) fun l'' hl'' => ?_
      rw [h] at hl''
      exact (Stance.found.inj hl'').2 ▸ alike
    · exact .found u spec l' ((hother u hu).trans h) alike
  | settled p c idle last suits =>
    by_cases hnow : t.queue = .spec ∧ φ.pending? = some id
    · exact now hnow.1 hnow.2
    · obtain ⟨q, c', hlast, hsuits⟩ := settled p c (idle t) last suits
      exact .settled q c' (idle_update stance (fun u hu _ => idle u hu) fun hspec heq =>
        hnow ⟨hspec, heq⟩) hlast hsuits

/-- A pass that a worker makes for a limiter as it is suits it: it is the last one now, or there was
nothing to do after the last one. -/
theorem suits_of_pass (hrecord : OnRecord s x) (htell : GenerationsTell id x.past)
    (hfound : x.stance t = .found id (some p.limiter)) (hchanged : p.occasion = .changed)
    (hbefore : p.before = x.world) (ran : p.Ran World.Answers s) (ok : p.result = .ok ())
    (hspec : p.limiter.spec = l.spec) :
    ∃ q c, LastPass s id q c (.pass p :: x.past) ∧ Suits id l q := by
  have hgiven : Given id p.limiter x.past := hrecord.found t id _ hfound
  rcases noted_of_pass hgiven.keyOf ran ok id with ⟨c, -, hc, -⟩ | ⟨haside, -, hskip⟩
  · exact ⟨p, c, .now hgiven.keyOf ran ok hc, .inl hspec⟩
  · obtain ⟨revision, happlied⟩ := hskip rfl hchanged
    rw [hbefore] at happlied
    cases ha : x.world.held.applied[id]? with
    | none =>
      rw [ha] at happlied
      cases happlied
    | some a =>
      obtain ⟨q, c, hlast, rfl, hq⟩ := hrecord.applied id a ha
      rw [ha] at happlied
      refine ⟨q, c, .since hlast haside, .inl ?_⟩
      -- what is noted has the same specification, or the same generation, which tells as much
      rcases (Recall.isApplied_iff.1 happlied).2 with hsame | ⟨hsome, hsame⟩
      · exact hsame.symm.trans hspec
      · exact (htell p.limiter hgiven.1 q.limiter hq.1 hgiven.2 hq.2 hsome hsame).symm.trans hspec

/-- A key is taken, and it may be the one of the limiter. -/
theorem pop (h : Accounted s id x l) (hdesk : AtDesk x.world.desk.queue x.stance)
    (free : x.stance t = .free) (popped : (x.world.perform (.tryPop t.queue)).1 = some k) :
    Accounted s id (x.goOn t (.taken k) (x.world.perform (.tryPop t.queue)).2) l := by
  refine h.update rfl (fun hdue => ?_) (fun _ hpending => ?_) (fun hspec hpending => ?_)
    fun p c _ last suits => ⟨p, c, last, suits⟩
  · -- a key that was due is still due, unless it is the one that was taken
    obtain ⟨q, n⟩ := t
    cases q with
    | spec =>
      rcases Queue.tryPop_cases hdesk.orderly with hnone | ⟨k', q', hpop, -, -, -, hdue'⟩
      · exact absurd ((congrArg Prod.fst hnone).symm.trans popped) nofun
      · obtain rfl := Option.some.inj ((congrArg Prod.fst hpop).symm.trans popped)
        rcases hdue' id hdue with rfl | hdue
        · exact .taken ⟨.spec, n⟩ rfl (Function.update_self ..)
        · refine .due ?_
          show x.world.desk.queue.tryPop.2.Due id
          rw [hpop]
          exact hdue
    | metric => exact .due hdue
  · rw [free] at hpending
    cases hpending
  · obtain rfl := Option.some.inj hpending
    exact .taken t hspec (Function.update_self ..)

/-- A worker that looks a limiter up sees it as it is. -/
theorem look (h : Accounted s id x l) (hl : x.world.desk.limiters.get? id = some l)
    (taken : x.stance t = .taken k) :
    Accounted s id (x.goOn t (.found k (x.world.desk.limiters.get? k)) x.world) l := by
  have hseen : t.queue = .spec → k = id →
      Accounted s id (x.goOn t (.found k (x.world.desk.limiters.get? k)) x.world) l := by
    rintro hspec rfl
    refine .found t hspec l ?_ (LimiterIndex.alike_refl _)
    rw [← hl]
    exact Function.update_self ..
  refine h.update rfl (fun hdue => .due hdue) (fun hspec hpending _ => ?_)
    (fun hspec hpending => ?_)
    fun p c _ last suits => ⟨p, c, last, suits⟩
  · rw [taken] at hpending
    exact hseen hspec (Option.some.inj hpending)
  · exact hseen hspec (Option.some.inj hpending)

/-- **A pass settles a limiter** if it is made for a change that is up to date. One for metrics
leaves it settled, or comes too late. -/
theorem pass (h : Accounted s id x l) (hdesk : AtDesk x.world.desk.queue x.stance)
    (hrecord : OnRecord s x)
    (htell : GenerationsTell id x.past) (hl : x.world.desk.limiters.get? id = some l)
    (found : x.stance t = .found k (some p.limiter)) (occasion : p.occasion = occasionFor t.queue)
    (before : p.before = x.world) (ran : p.Ran World.Answers s) (ok : p.result = .ok ())
    (apart : p.after.desk = x.world.desk) :
    Accounted s id ((x.goOn t (.passed k) p.after).after (.pass p)) l := by
  have hkey : keyOf p.limiter = .ok k := (hrecord.found t k _ found).keyOf
  refine h.update rfl (fun hdue => .due ?_) (fun hspec hpending hseen => ?_) (fun _ => nofun)
    fun q c idle last suits => ?_
  · show p.after.desk.queue.Due id
    rw [apart]
    exact hdue
  · -- no other worker has this key, so no pass will be made for what was found before
    rw [found] at hpending
    obtain rfl := Option.some.inj hpending
    have hchanged : p.occasion = .changed := by rw [occasion, hspec]; rfl
    obtain ⟨q, c, hlast, hsuits⟩ :=
      suits_of_pass hrecord htell found hchanged before ran ok (hseen _ found).1
    refine .settled q c (idle_update rfl (fun u hu hut hpending => hut ?_) fun _ => nofun)
      hlast hsuits
    exact hdesk.alone u t k hu hspec (Stance.key?_of_pending? hpending) (by rw [found]; rfl)
  · -- the limiter was settled, and this pass may be the last one instead
    rcases noted_of_pass hkey ran ok id with ⟨c', rfl, hc', -⟩ | ⟨haside, -, -⟩
    · refine ⟨p, c', .now hkey ran ok hc', ?_⟩
      by_cases hlate : Outdated k p
      · refine .inr ⟨?_, hlate⟩
        rw [occasion]
        cases hq : t.queue with
        | spec => exact absurd (by rw [found]; rfl) (idle hq)
        | metric => rfl
      · refine .inl (by_contra fun hne => hlate fun l' hl' _ halike => hne ?_)
        rw [before, hl] at hl'
        obtain rfl := Option.some.inj hl'
        exact halike.1
    · exact ⟨q, c, .since last haside, suits⟩

/-- **Limiters stay accounted for** in each turn of a worker. -/
theorem turn (h : Accounted s id x l) (hdesk : AtDesk x.world.desk.queue x.stance)
    (hrecord : OnRecord s x)
    (htell : GenerationsTell id x.past) (hl : x.world.desk.limiters.get? id = some l)
    (turn : Turn s t x y) :
    Accounted s id y l := by
  cases turn with
  | pop free popped => exact h.pop hdesk free popped
  | look taken => exact h.look hl taken
  | pass found occasion before ran ok apart =>
    exact h.pass hdesk hrecord htell hl found occasion before ran ok apart
  | @deletion k tr w found spec ran apart =>
    -- a worker that has found nothing has not found this limiter as it is
    refine h.update rfl (fun hdue => .due ?_) (fun hspec hpending hseen => ?_) (fun _ => nofun)
      fun p c idle last suits => ⟨p, c, .since last fun heq => idle spec ?_, suits⟩
    · show w.desk.queue.Due id
      rw [apart]
      exact hdue
    · rw [found] at hpending
      obtain rfl := Option.some.inj hpending
      exact (hseen _ found).elim
    · rw [found]
      exact congrArg some heq
  | @nothing k found metric =>
    refine h.update rfl (fun hdue => .due hdue) (fun hspec => ?_) (fun _ => nofun)
      fun p c _ last suits => ⟨p, c, last, suits⟩
    rw [metric] at hspec
    cases hspec
  | @finish k passed =>
    refine h.update rfl (fun hdue => .due ?_) (fun _ hpending => ?_) (fun _ => nofun)
      fun p c _ last suits => ⟨p, c, last, suits⟩
    · obtain ⟨q, n⟩ := t
      cases q with
      | spec => exact hdue.done k
      | metric => exact hdue
    · rw [passed] at hpending
      cases hpending

/-- The index handles an event that leaves the limiter alike, or its key is due afterwards. -/
theorem told {e : IndexEvent Limiter}
    (h : ∀ l₀, x.world.desk.limiters.get? id = some l₀ → Accounted s id x l₀)
    (haccepted : x.world.desk.queue.accepts (x.world.indexes.publish (.limiters e)).1 = true)
    (hl : (x.told e).world.desk.limiters.get? id = some l) : Accounted s id (x.told e) l := by
  have hqueue : (x.told e).world.desk.queue
      = x.world.desk.queue.pushAll (x.world.indexes.publish (.limiters e)).1 := rfl
  rcases Indexes.published_publish x.world.indexes e id with hid | ⟨halike, -⟩
  · refine .due ?_
    rw [hqueue]
    exact Queue.due_of_accepts haccepted hid
  · -- what was seen of the limiter before the event is as good after it
    have hl' : (x.world.indexes.publish (.limiters e)).2.2.limiters.index.get? id = some l := hl
    rw [hl'] at halike
    obtain ⟨l₀, hl₀⟩ := Option.isSome_iff_exists.1 (halike.isSome rfl)
    rw [hl₀] at halike
    cases h l₀ hl₀ with
    | due h =>
      refine .due ?_
      rw [hqueue]
      exact h.pushAll _
    | taken t spec h => exact .taken t spec h
    | found t spec l' h hfound => exact .found t spec l' h (hfound.trans halike)
    | settled p c idle last suits =>
      exact .settled p c idle (.since last not_false)
        (suits.imp_left fun hspec => hspec.trans halike.1)

end Accounted

end Turns

end MeshLimiter
