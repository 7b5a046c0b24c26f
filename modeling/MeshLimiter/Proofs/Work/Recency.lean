import MeshLimiter.Proofs.Work.Settling
/-!
# Which version is applied last

Once no changed limiter is left to work on, each one has been applied as it is. But a worker for
metrics that had looked one up before it changed may apply the earlier version once more, and that
stays until the metrics are looked at again.

* **`Turns.Current`**: what holds at all times, and **`Turns.Current.move`** that no move changes
  it;
* **`Turns.applied_unless_outdated`**: which pass is the last one, and when what is noted may come
  to a lower generation;
* **`Turns.exists_applied_outdated`**: that it may.
-/

namespace MeshLimiter

open LimiterIndex (Alike Takes)

namespace Turns

open Pass (appliedOf)

variable {s : Settings} {t : Worker} {x y z : State} {id : ResourceId} {l : Limiter} {d : Deed}
  {past : List Deed} {p : Pass.Taken} {c : Collected}

/-- Nothing has happened yet, and nothing is known. -/
structure Anew (x : State) : Prop where
  limiters : x.world.desk.limiters = {}
  queue : ∃ capacity, x.world.desk.queue = .ofCapacity capacity
  applied : x.world.held.applied = ∅
  free : ∀ t, x.stance t = .free
  past : x.past = []

/-- What holds at all times. -/
structure Current (s : Settings) (x : State) : Prop where
  desk : AtDesk x.world.desk.queue x.stance
  record : OnRecord s x
  /-- The index has the latest of the versions of an object that it was told of. -/
  latest : ∀ id, InOrder id x.past → ∀ l, x.world.desk.limiters.get? id = some l →
    ∀ l', Given id l' x.past → l.metadata.uid.isSome = true → l.metadata.uid = l'.metadata.uid →
      NotLower l'.metadata.generation l.metadata.generation
  accounted : ∀ id, GenerationsTell id x.past → ∀ l, x.world.desk.limiters.get? id = some l →
    Accounted s id x l

/-- What was given before another deed was given. -/
theorem Given.of_cons (h : Given id l (d :: past)) (hd : ∀ e, d ≠ .told e) : Given id l past := by
  cases d with
  | told e => exact absurd rfl (hd e)
  | pass | deletion => exact h

/-- A shorter past tells no more. -/
theorem GenerationsTell.of_cons (h : GenerationsTell id (d :: past)) : GenerationsTell id past :=
  fun l hl l' hl' => h l (List.mem_append_right _ hl) l' (List.mem_append_right _ hl')

/-- A shorter past is in order, too. -/
theorem InOrder.of_cons (h : InOrder id (d :: past)) : InOrder id past := by
  cases d with
  | told e => exact h.2
  | pass | deletion => exact h

/-- The index is as before after a turn, and was told of nothing. A pass is made in the world as it
is. -/
theorem Turn.deed (turn : Turn s t x y) : y.world.desk.limiters = x.world.desk.limiters ∧
    (y.past = x.past ∨ ∃ d, y.past = d :: x.past ∧ (∀ e, d ≠ .told e) ∧
      ∀ p, d = .pass p → p.before = x.world) := by
  cases turn with
  | pop free popped => exact ⟨by cases t.queue <;> rfl, .inl rfl⟩
  | look taken => exact ⟨rfl, .inl rfl⟩
  | pass _ _ before _ _ apart =>
    refine ⟨congrArg Desk.limiters apart, .inr ⟨_, rfl, fun _ => nofun, fun p heq => ?_⟩⟩
    obtain rfl := Deed.pass.inj heq
    exact before
  | deletion _ _ _ apart => exact ⟨congrArg Desk.limiters apart,
      .inr ⟨_, rfl, fun _ => nofun, fun _ => nofun⟩⟩
  | nothing found metric => exact ⟨rfl, .inl rfl⟩
  | finish passed => exact ⟨by cases t.queue <;> rfl, .inl rfl⟩

/-- A move adds one deed or none, and a pass begins in the world before it. -/
theorem Move.deed (move : Move s x y) :
    y.past = x.past ∨ ∃ d, y.past = d :: x.past ∧ ∀ p, d = .pass p → p.before = x.world := by
  cases move with
  | turn turn =>
    rcases turn.deed.2 with hpast | ⟨d, hpast, -, hd⟩
    · exact .inl hpast
    · exact .inr ⟨d, hpast, hd⟩
  | tell => exact .inr ⟨_, rfl, fun _ => nofun⟩
  | outside => exact .inl rfl

/-- What is in order after a move was so before. -/
theorem InOrder.of_move (move : Move s x y) (h : InOrder id y.past) : InOrder id x.past := by
  rcases move.deed with hpast | ⟨d, hpast, -⟩
  · rwa [hpast] at h
  · rw [hpast] at h
    exact h.of_cons

/-- What was given stays so. -/
theorem Given.reaches (h : Given id l x.past) (reaches : Reaches s x y) : Given id l y.past := by
  induction reaches with
  | refl => exact h
  | snoc _ move ih =>
    rcases move.deed with hpast | ⟨d, hpast, -⟩
    · rw [hpast]
      exact ih
    · rw [hpast]
      exact ih.cons d

/-- The last pass was the last one before the move, or it is the move. -/
theorem LastPass.of_move (move : Move s x y) (h : LastPass s id p c y.past) :
    LastPass s id p c x.past ∨ p.before = x.world := by
  rcases move.deed with hpast | ⟨d, hpast, hd⟩
  · rw [hpast] at h
    exact .inl h
  · rw [hpast] at h
    cases h with
    | now => exact .inr (hd p rfl)
    | since earlier => exact .inl earlier

namespace Current

theorem anew (hx : Anew x) : Current s x := by
  -- no limiter is known, and no worker is at work
  have hnone : ∀ id l, x.world.desk.limiters.get? id ≠ some l := by
    intro id l hl
    rw [hx.limiters] at hl
    cases Std.ExtTreeMap.getElem?_empty.symm.trans hl
  have hfree : ∀ t id, (x.stance t).key? ≠ some id := fun t id h => by
    rw [hx.free t] at h
    cases h
  exact
    { desk :=
        { orderly := by
            obtain ⟨capacity, hqueue⟩ := hx.queue
            rw [hqueue]
            exact Queue.orderly_ofCapacity capacity
          active := fun t id _ h => absurd h (hfree t id)
          alone := fun t u id _ _ h => absurd h (hfree t id) }
      record :=
        { known := fun id l hl => absurd hl (hnone id l)
          found := fun t id l h => absurd (congrArg Stance.key? h) (hfree t id)
          noted := fun id p c hlast => by
            rw [hx.past] at hlast
            cases hlast
          applied := fun id a ha => by
            rw [hx.applied] at ha
            cases Std.ExtTreeMap.getElem?_empty.symm.trans ha }
      latest := fun id _ l hl => absurd hl (hnone id l)
      accounted := fun id _ l hl => absurd hl (hnone id l) }

/-- A worker takes its turn. -/
theorem turn (h : Current s x) (turn : Turn s t x y) : Current s y := by
  obtain ⟨hlimiters, hpast⟩ := turn.deed
  refine ⟨h.desk.turn turn, h.record.turn turn, fun id horder l hl l' hl' => ?_,
    fun id htell l hl => ?_⟩
  · rw [hlimiters] at hl
    rcases hpast with hpast | ⟨d, hpast, hd, -⟩
    · rw [hpast] at horder hl'
      exact h.latest id horder l hl l' hl'
    · -- the index is told of nothing in a turn
      rw [hpast] at horder hl'
      exact h.latest id horder.of_cons l hl l' (hl'.of_cons hd)
  · rw [hlimiters] at hl
    have htell' : GenerationsTell id x.past := by
      rcases hpast with hpast | ⟨d, hpast, -⟩
      · rwa [hpast] at htell
      · rw [hpast] at htell
        exact htell.of_cons
    exact (h.accounted id htell' l hl).turn h.desk h.record htell' hl turn

/-- The watch tells of a limiter, or of its end. -/
theorem told {e : IndexEvent Limiter} (h : Current s x)
    (haccepted : x.world.desk.queue.accepts (x.world.indexes.publish (.limiters e)).1 = true) :
    Current s (x.told e) where
  desk :=
    { orderly := h.desk.orderly.pushAll _
      active := fun t id ht hk => by
        show id ∈ (x.world.desk.queue.pushAll (x.world.indexes.publish (.limiters e)).1).active
        rw [Queue.active_pushAll]
        exact h.desk.active t id ht hk
      alone := h.desk.alone }
  record :=
    { known := fun id l hl => by
        rcases Indexes.get?_publish hl with ⟨hl, -⟩ | ⟨hmem, htakes⟩
        · exact (h.record.known id l hl).cons _
        · exact ⟨List.mem_append_left _ hmem, htakes⟩
      found := fun t id l hfound => (h.record.found t id l hfound).cons _
      noted := fun id p c hlast => by
        cases hlast with
        | since earlier _ => exact h.record.noted id p c earlier
      applied := fun id a ha => by
        obtain ⟨p, c, hlast, heq, hgiven⟩ := h.record.applied id a ha
        exact ⟨p, c, .since hlast not_false, heq, hgiven.cons _⟩ }
  latest id horder l hl l' hl' huid hobject := by
    rcases Indexes.get?_publish hl with ⟨hl, hothers⟩ | ⟨hmem, htakes⟩
    · -- the event tells of no version of this limiter
      rcases List.mem_append.1 hl'.1 with hnew | hold
      · exact absurd hl'.2 (hothers l' hnew)
      · exact h.latest id horder.2 l hl l' ⟨hold, hl'.2⟩ huid hobject
    · exact horder.1 l hmem l' hl'.1 htakes hl'.2 huid hobject
  accounted id htell l hl := Accounted.told (h.accounted id htell.of_cons) haccepted hl

/-- The world changes beside all of them. -/
theorem outside {w : World} (h : Current s x) (held : w.held = x.world.held)
    (desk : w.desk = x.world.desk) : Current s { x with world := w } where
  desk := by
    rw [desk]
    exact h.desk
  -- every field reads the desk or what is held, and neither changes
  record :=
    { known := by
        rw [desk]
        exact h.record.known
      found := h.record.found
      noted := by
        rw [held]
        exact h.record.noted
      applied := by
        rw [held]
        exact h.record.applied }
  latest := by
    rw [desk]
    exact h.latest
  accounted id htell l hl := by
    rw [desk] at hl
    cases h.accounted id htell l hl with
    | due hdue => exact .due (by rw [desk]; exact hdue)
    | taken t spec h => exact .taken t spec h
    | found t spec l' h alike => exact .found t spec l' h alike
    | settled p c idle last suits => exact .settled p c idle last suits

/-- **No move changes what holds at all times.** -/
theorem move (h : Current s x) (move : Move s x y) : Current s y := by
  cases move with
  | turn turn => exact h.turn turn
  | tell accepted => exact h.told accepted
  | outside held desk => exact h.outside held desk

theorem reaches (h : Current s x) (reaches : Reaches s x y) : Current s y := by
  induction reaches with
  | refl => exact h
  | snoc _ move ih => exact ih.move move

/-- With nothing in the queue of changed limiters, and nothing under work, a limiter is settled. -/
theorem settled (h : Current s x) (htell : GenerationsTell id x.past)
    (hqueued : x.world.desk.queue.queued = ∅)
    (hactive : x.world.desk.queue.active = ∅) (hl : x.world.desk.limiters.get? id = some l) :
    ∃ p c, LastPass s id p c x.past ∧ Suits id l p := by
  have hnobody : ∀ t, t.queue = .spec → (x.stance t).key? ≠ some id := by
    intro t ht hk
    have hmem := h.desk.active t id ht hk
    rw [hactive] at hmem
    exact Std.ExtTreeSet.not_mem_empty hmem
  cases h.accounted id htell l hl with
  | due hdue => exact absurd hdue (h.desk.orderly.not_due hqueued hactive id)
  | taken t spec hφ => exact absurd (by rw [hφ]; rfl) (hnobody t spec)
  | found t spec l' hφ alike => exact absurd (by rw [hφ]; rfl) (hnobody t spec)
  | settled p c idle last suits => exact ⟨p, c, last, suits⟩

/-- A pass that was made since, if it was for what the index had, was for no earlier version of an
object than the index had been told of. -/
theorem outdated_or_latest (h : Current s x) (reaches : Reaches s x y) (horder : InOrder id y.past)
    (hlast : LastPass s id p c y.past) : LastPass s id p c x.past ∨ Outdated id p ∨
      ∀ l, Given id l x.past → l.metadata.uid.isSome = true →
        l.metadata.uid = p.limiter.metadata.uid →
        NotLower l.metadata.generation p.limiter.metadata.generation := by
  induction reaches with
  | refl => exact .inl hlast
  | @snoc y z before move ih =>
    rcases hlast.of_move move with hlast | hbefore
    · exact ih (horder.of_move move) hlast
    · right
      by_cases hlate : Outdated id p
      · exact .inl hlate
      · -- the pass was for what the index had, and the index had the latest version
        refine .inr fun l hgiven huid hobject => by_contra fun hlower => hlate
          fun l' hl' hsame halike => ?_
        rw [hbefore] at hl'
        have hlatest := (h.reaches before).latest id (horder.of_move move) l' hl' l
          (hgiven.reaches before)
        rw [hsame, ← hobject] at hlatest
        rw [halike.2] at hlower
        exact hlower (hlatest huid rfl)

end Current

/-- **What is applied last.** Let workers start anew, any number of them at each queue, with no push
refused and every pass succeeding. Whenever no changed limiter waits or is worked on, each limiter
in the index has been applied, what is noted is from the last pass that has applied it, and this
pass was for the specification that the limiter has now, or it was for metrics and for an outdated
version. This takes for granted that no two versions of the limiter have one generation but
different specifications. And if the index is told of the versions of each object in order, then
what is noted comes to a lower generation of an object by a pass for an outdated version only. -/
theorem applied_unless_outdated (hx : Anew x) (h : Reaches s x y) (id : ResourceId) :
    (GenerationsTell id y.past → y.world.desk.queue.queued = ∅ → y.world.desk.queue.active = ∅ →
      ∀ l, y.world.desk.limiters.get? id = some l →
        ∃ p c, LastPass s id p c y.past ∧ y.world.held.applied[id]? = some (appliedOf p.limiter c) ∧
          (p.limiter.spec = l.spec ∨ p.occasion = .metrics ∧ Outdated id p)) ∧
    ∀ z, Reaches s y z → InOrder id z.past →
      ∀ a a', y.world.held.applied[id]? = some a → z.world.held.applied[id]? = some a' →
        ∃ p c p' c', LastPass s id p c y.past ∧ a = appliedOf p.limiter c ∧
          LastPass s id p' c' z.past ∧ a' = appliedOf p'.limiter c' ∧
          (p.limiter.metadata.uid.isSome = true → p.limiter.metadata.uid = p'.limiter.metadata.uid →
            NotLower a.generation a'.generation ∨ Outdated id p') := by
  have hy : Current s y := (Current.anew hx).reaches h
  constructor
  · intro htell hqueued hactive l hl
    obtain ⟨p, c, hlast, hsuits⟩ := hy.settled htell hqueued hactive hl
    exact ⟨p, c, hlast, hy.record.noted id p c hlast, hsuits⟩
  · intro z hz horder a a' ha ha'
    obtain ⟨p, c, hlast, rfl, hgiven⟩ := hy.record.applied id a ha
    obtain ⟨p', c', hlast', rfl, -⟩ := (hy.reaches hz).record.applied id a' ha'
    refine ⟨p, c, p', c', hlast, rfl, hlast', rfl, fun huid hobject => ?_⟩
    rcases hy.outdated_or_latest hz horder hlast' with hsame | hlate | hlatest
    · -- nothing was applied in the meantime
      rw [Option.some.inj (ha.symm.trans (hy.record.noted id p' c' hsame))]
      exact .inl (notLower_refl _)
    · exact .inr hlate
    · exact .inl (hlatest p.limiter hgiven huid hobject)

/-! ## A look that is outdated

A worker for metrics looks up the first version. The second one is applied meanwhile, and then the
first once more. -/

open Recall (object)
open Pass (noMetrics reviews reviewsWorld)

/-- A worker for changed limiters. -/
def changer : Worker := { queue := .spec, number := 0 }

/-- A worker for metrics. -/
def refresher : Worker := { queue := .metric, number := 0 }

/-- Nothing has happened, and no limiter is known. -/
def nothingYet : State :=
  { world := reviewsWorld []
    stance := fun _ => .free
    past := [] }

/-- The first version of a limiter has been applied. A worker for metrics has looked it up. -/
def lookedUp : State :=
  (((nothingYet.tell (.apply (object "1" 1 "1"))).turns noMetrics (List.replicate 4 changer)).ask
    reviews).turns noMetrics [refresher, refresher]

/-- The second version has been applied since. -/
def overtaken : State :=
  (lookedUp.tell (.apply (object "1" 2 "2"))).turns noMetrics (List.replicate 4 changer)

/-- The worker for metrics makes its pass, and ends its work. -/
def late : State :=
  overtaken.turns noMetrics [refresher, refresher]

theorem anew_nothingYet : Anew nothingYet :=
  ⟨rfl, ⟨64, rfl⟩, rfl, fun _ => rfl, rfl⟩

/-- The second version is applied while the first is still held by the worker for metrics. -/
theorem reaches_overtaken : Reaches noMetrics nothingYet overtaken := by
  have happlied : Reaches noMetrics nothingYet
      ((nothingYet.tell (.apply (object "1" 1 "1"))).turns noMetrics (List.replicate 4 changer)) :=
    (State.reaches_tell _ _ _).trans (State.reaches_turns _ _ _)
  have hlooked : Reaches noMetrics nothingYet lookedUp :=
    happlied.trans ((State.reaches_ask _ _ _).trans (State.reaches_turns _ _ _))
  exact hlooked.trans ((State.reaches_tell _ _ _).trans (State.reaches_turns _ _ _))

/-- That worker then makes its pass. -/
theorem reaches_late : Reaches noMetrics overtaken late :=
  State.reaches_turns _ _ _

instance (id : ResourceId) (past : List Deed) : Decidable (GenerationsTell id past) :=
  inferInstanceAs (Decidable (∀ l ∈ given past, ∀ l' ∈ given past, _))

instance : (a b : Option Int64) → Decidable (NotLower a b)
  | some g, some g' => inferInstanceAs (Decidable (g ≤ g'))
  | none, _ | some _, none => .isTrue trivial

instance decidableInOrder (id : ResourceId) : (past : List Deed) → Decidable (InOrder id past)
  | [] => .isTrue trivial
  | .told e :: past =>
    have := decidableInOrder id past
    inferInstanceAs
    (Decidable ((∀ l ∈ e.limiters, ∀ l' ∈ e.limiters ++ given past, _) ∧ InOrder id past))
  | .pass _ :: past | .deletion _ :: past => decidableInOrder id past

/-- The last pass is one of the passes. -/
theorem LastPass.mem (h : LastPass s id p c past) : .pass p ∈ past := by
  induction h with
  | now => exact List.mem_cons_self
  | since _ _ ih => exact List.mem_cons_of_mem _ ih

/-- Whether a deed is for the first object, if it is a pass. -/
def Deed.isForFirst : Deed → Bool
  | .pass p => p.limiter.metadata.uid = some "1"
  | _ => true

/-- No changed limiter waits or is worked on. The index has one version of the first object, and one
is noted as applied. -/
def State.Shows (x : State) (known noted : Limiter) : Prop :=
  (GenerationsTell reviews x.past ∧ InOrder reviews x.past ∧ x.past.all Deed.isForFirst = true) ∧
    (x.world.desk.queue.queued = ∅ ∧ x.world.desk.queue.active = ∅) ∧
    x.world.desk.limiters.get? reviews = some known ∧
    x.world.held.applied[reviews]?.map (fun a => (a.generation, a.spec))
      = some (noted.metadata.generation, noted.spec)

instance (x : State) (known noted : Limiter) : Decidable (x.Shows known noted) :=
  inferInstanceAs (Decidable ((_ ∧ _ ∧ _) ∧ (_ ∧ _) ∧ _ ∧ _))

/-- The second version is applied, and then the first one again, after which there is nothing left
to do. -/
theorem overtaken_then_late :
    overtaken.Shows (object "1" 2 "2") (object "1" 2 "2") ∧
    late.Shows (object "1" 2 "2") (object "1" 1 "1") ∧
      late.world.indexes.metricQueue.queued = ∅ ∧ late.world.indexes.metricQueue.active = ∅ ∧
      late.world.indexes.interest.contains reviews = true := by
  decide +kernel

/-- What is noted is from a pass for the first object. -/
theorem State.Shows.applied {known noted : Limiter} (h : x.Shows known noted) :
    ∃ a, x.world.held.applied[reviews]? = some a ∧ a.generation = noted.metadata.generation ∧
      a.spec = noted.spec ∧
      ∀ {s p c}, LastPass s reviews p c x.past → p.limiter.metadata.uid = some "1" := by
  obtain ⟨⟨-, -, hfirst⟩, -, -, hnoted⟩ := h
  obtain ⟨a, ha, heq⟩ := Option.map_eq_some_iff.1 hnoted
  obtain ⟨hgeneration, hspec⟩ := Prod.mk.inj heq
  exact ⟨a, ha, hgeneration, hspec, fun hlast =>
    of_decide_eq_true (List.all_eq_true.1 hfirst _ hlast.mem)⟩

/-- The second version is settled before the worker for metrics makes its pass, which is outdated
then. -/
theorem applied_unless_outdated_late :
    (∃ p c, LastPass noMetrics reviews p c overtaken.past ∧
      overtaken.world.held.applied[reviews]? = some (appliedOf p.limiter c) ∧
      (p.limiter.spec = (object "1" 2 "2").spec ∨ p.occasion = .metrics ∧ Outdated reviews p)) ∧
    ∃ p c, LastPass noMetrics reviews p c late.past ∧ Outdated reviews p := by
  obtain ⟨hsettled, hlater⟩ := applied_unless_outdated anew_nothingYet reaches_overtaken reviews
  obtain ⟨hovertaken, hlate, -⟩ := overtaken_then_late
  obtain ⟨a, ha, hsecond, -, huid⟩ := hovertaken.applied
  obtain ⟨a', ha', hfirst, -, huid'⟩ := hlate.applied
  obtain ⟨⟨htell, -, -⟩, ⟨hqueued, hactive⟩, hknown, -⟩ := hovertaken
  refine ⟨hsettled htell hqueued hactive _ hknown, ?_⟩
  obtain ⟨p, c, p', c', hlast, rfl, hlast', rfl, hright⟩ :=
    hlater late reaches_late hlate.1.2.1 a a' ha ha'
  rcases hright (by rw [huid hlast]; rfl)
    ((huid hlast).trans (huid' hlast').symm) with hlower | hlate
  · rw [hsecond, hfirst] at hlower
    exact absurd hlower (by decide)
  · exact ⟨p', c', hlast', hlate⟩

/-- **What is applied last may be outdated**, and of a lower generation than what was applied
before: a worker for metrics looks a limiter up, then another version is applied, and then it makes
its pass. -/
theorem exists_applied_outdated :
    (¬ ∀ (s : Settings) (x y : State) (id : ResourceId), Anew x → Reaches s x y →
      GenerationsTell id y.past → InOrder id y.past →
      y.world.desk.queue.queued = ∅ → y.world.desk.queue.active = ∅ →
      y.world.indexes.metricQueue.queued = ∅ → y.world.indexes.metricQueue.active = ∅ →
      y.world.indexes.interest.contains id = true → ∀ l, y.world.desk.limiters.get? id = some l →
      ∀ p c, LastPass s id p c y.past → p.limiter.spec = l.spec) ∧
    ¬ ∀ (s : Settings) (x y z : State) (id : ResourceId), Anew x → Reaches s x y → Reaches s y z →
      GenerationsTell id z.past → InOrder id z.past →
      ∀ p c p' c', LastPass s id p c y.past → LastPass s id p' c' z.past →
        p.limiter.metadata.uid.isSome = true → p.limiter.metadata.uid = p'.limiter.metadata.uid →
          NotLower p.limiter.metadata.generation p'.limiter.metadata.generation := by
  have hovertaken : Current noMetrics overtaken :=
    (Current.anew anew_nothingYet).reaches reaches_overtaken
  have hlate : Current noMetrics late := hovertaken.reaches reaches_late
  obtain ⟨hsecond, hfirst, hmetrics, hrefreshing, hinterest⟩ := overtaken_then_late
  obtain ⟨a, ha, hhigher, -, huid⟩ := hsecond.applied
  obtain ⟨a', ha', hlower, hspec, huid'⟩ := hfirst.applied
  obtain ⟨⟨htell, horder, -⟩, ⟨hqueued, hactive⟩, hknown, -⟩ := hfirst
  obtain ⟨p, c, hlast, rfl, -⟩ := hovertaken.record.applied reviews a ha
  obtain ⟨p', c', hlast', rfl, -⟩ := hlate.record.applied reviews a' ha'
  constructor
  · intro h
    -- no limiter waits, yet the last pass was for another specification
    have hsame := h noMetrics nothingYet late reviews anew_nothingYet
      (reaches_overtaken.trans reaches_late)
      htell horder hqueued hactive hmetrics hrefreshing hinterest _ hknown p' c' hlast'
    exact absurd (hspec.symm.trans hsame) (by decide +kernel)
  · -- and for a lower generation of the same object
    intro h
    -- and for a lower generation of the same object
    have hnot := h noMetrics nothingYet overtaken late reviews anew_nothingYet reaches_overtaken
      reaches_late
      htell horder p c p' c' hlast hlast' (by rw [huid hlast]; rfl)
        ((huid hlast).trans (huid' hlast').symm)
    have hfalse : ¬ NotLower (object "1" 2 "2").metadata.generation
        (object "1" 1 "1").metadata.generation := by
      decide
    rw [← hhigher, ← hlower] at hfalse
    exact hfalse hnot

end Turns

end MeshLimiter
