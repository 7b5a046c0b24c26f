import MeshLimiter.Proofs.Program.Interleaving
import MeshLimiter.Proofs.Store
import MeshLimiter.Pass
/-!
# Phases of a deletion and of the passes beside it

Two sides work on one limiter: one takes its changes, and makes passes or deletes it; the other
looks at its metrics, and makes passes. What a side may still do depends on the phase that it is in.
The lock of the entry, the look whether the limiter is of interest and the look whether the entry is
still its own tie the phases of the sides together.

* **`Pass.Phase`**: the phases;
* **`Pass.Tied`**: what holds between the phases, the locks and what is held about the limiter;
* the lemmas **`Pass.Tied.…`**: each command leads from one phase to another.
-/

namespace MeshLimiter

/-- What is held about a limiter. -/
structure Scene where
  wanted : Bool
  current : Option EntryId
  applied : Option Applied
  written : Option SubsetNames
  registry : Option ConfigMap

def Held.scene (h : Held) (s : Settings) (id : ResourceId) : Scene :=
  { wanted := h.interest.contains id
    current := h.store.find? id
    applied := h.applied[id]?
    written := h.written[id]?
    registry := h.configMaps[s.registry]? }

namespace Pass

/-- The sides that work on a limiter: one takes its changes, the other looks at its metrics. -/
inductive Side where
  | changes
  | metrics
deriving DecidableEq

/-- How far a deletion is once there is no entry any more. -/
inductive Stage where
  | clearing
  | forgetting
  | cleared
  /-- The lock of the registry is held. -/
  | locked
  | read (found : Option ConfigMap)
  | freed
  /-- The lock is given back. -/
  | free

/-- Where a side is. -/
inductive Phase where
  | outside
  /-- The limiter has come to be of interest. -/
  | entering
  /-- A pass waits for the lock of an entry. -/
  | waiting (e : EntryId)
  | holding (e : EntryId)
  /-- It has looked whether the limiter is of interest. -/
  | asked (e : EntryId) (wanted : Bool)
  /-- The limiter is of interest and the entry is its own. -/
  | working (e : EntryId)
  /-- The limiter is of no interest, and the entry is to be taken out. -/
  | dropping (e : EntryId)
  | leaving (e : EntryId)
  /-- A deletion has begun: the limiter is of no interest any more. -/
  | dropped
  /-- It waits for the lock of the entry. -/
  | found (e : EntryId)
  | cutting (e : EntryId)
  | cut (e : EntryId)
  | gone (stage : Stage)

namespace Phase

/-- The entry whose lock is held. -/
def lock? : Phase → Option EntryId
  | holding e | asked e _ | working e | dropping e | leaving e | cutting e | cut e => some e
  | _ => none

/-- The entry that a pass works on, or will if it is still that of the limiter. -/
def worksOn? : Phase → Option EntryId
  | asked e true | working e => some e
  | _ => none

/-- The entry that a pass takes out once it knows that the limiter is of no interest. -/
def drops? : Phase → Option EntryId
  | waiting e | holding e | asked e false | dropping e => some e
  | _ => none

/-- Whether a pass is under way. -/
def passes : Phase → Bool
  | entering | waiting _ | holding _ | asked _ _ | working _ | dropping _ | leaving _ => true
  | _ => false

/-- Whether a deletion is under way, or done. -/
def deletes : Phase → Bool
  | dropped | found _ | cutting _ | cut _ | gone _ => true
  | _ => false

/-- Who works on an entry, or will, holds its lock. -/
theorem lock?_of_worksOn? {φ : Phase} {e : EntryId} (h : φ.worksOn? = some e) :
    φ.lock? = some e := by
  cases φ with
  | asked e' wanted =>
    cases wanted with
    | true => exact h
    | false => cases h
  | working => exact h
  | _ => cases h

/-- The phase of a pass once it has looked whether its entry is still that of the limiter. -/
def afterLook (e : EntryId) (wanted : Bool) (current : Option EntryId) : Phase :=
  if current = some e then if wanted then working e else dropping e else leaving e

/-- The entry is still that of the limiter. -/
theorem afterLook_of_eq {e : EntryId} {current : Option EntryId} (h : current = some e)
    (wanted : Bool) : afterLook e wanted current = if wanted then working e else dropping e :=
  if_pos h

/-- The limiter has got another entry, or has none. -/
theorem afterLook_of_ne {e : EntryId} {current : Option EntryId} (h : current ≠ some e)
    (wanted : Bool) : afterLook e wanted current = leaving e :=
  if_neg h

end Phase

/-- What a deletion has brought about by a stage; `F` says that a registry has no entry of the
limiter. -/
def Stage.Reached (F : Option ConfigMap → Prop) (v : Scene) (owner : Lock → Option Side) :
    Stage → Prop
  | clearing => True
  | forgetting => v.applied = none
  | cleared => v.applied = none ∧ v.written = none
  | locked => (v.applied = none ∧ v.written = none) ∧ owner .registry = some .changes
  | read found =>
    (v.applied = none ∧ v.written = none) ∧ owner .registry = some .changes ∧ v.registry = found
  | freed => (v.applied = none ∧ v.written = none) ∧ owner .registry = some .changes ∧ F v.registry
  | free => (v.applied = none ∧ v.written = none) ∧ F v.registry

/-- What a deletion may rely on of a pass beside it that is in phase `b`. Only one that was already
about to work can go on, and on no entry but the one that the deletion waits for. -/
def Bounded (F : Option ConfigMap → Prop) (v : Scene) (owner : Lock → Option Side) (b : Phase) :
    Phase → Prop
  | .found e₀ => ∀ e, b.worksOn? = some e → v.current = some e → e = e₀
  | .cutting _ => ∀ e, b.worksOn? = some e → v.current ≠ some e
  | .cut _ => ∀ e, v.current = some e → b.drops? = some e
  | .gone stage => (∀ e, v.current = some e → b.drops? = some e) ∧ stage.Reached F v owner
  | _ => True

/-- What holds between the phases `a` and `b` of the sides, the locks, and what is held. -/
structure Tied (F : Option ConfigMap → Prop) (v : Scene) (owner : Lock → Option Side)
    (a b : Phase) : Prop where
  changesLock : ∀ e, a.lock? = some e → owner (.entry e) = some .changes
  metricsLock : ∀ e, b.lock? = some e → owner (.entry e) = some .metrics
  /-- While a changed limiter is passed over, it is of interest. -/
  wanted : a.passes = true → v.wanted = true
  unwanted : a.deletes = true → v.wanted = false
  /-- So that pass never finds that it is not. -/
  stays : ∀ e, a.drops? = some e → a = .waiting e ∨ a = .holding e
  /-- Only changes lead to a deletion. -/
  kept : b.deletes = false
  /-- A pass over the metrics works on the entry of the limiter. -/
  current : ∀ e, b = .working e → v.current = some e
  bounded : Bounded F v owner b a

namespace Tied

variable {F : Option ConfigMap → Prop} {v v' : Scene} {owner owner' : Lock → Option Side}
  {a b : Phase}
  {e : EntryId}

/-! ## The pass over the metrics

It may be in any phase while the other side is in any. Each of its commands keeps what a deletion
relies on: at most it puts an entry in that it has not looked at yet. -/

/-- It gets the entry of the limiter, or makes one. -/
theorem metrics_waiting (h : Tied F v owner a .outside) (e : EntryId) :
    Tied F { v with current := some e } owner a (.waiting e) where
  changesLock := h.changesLock
  metricsLock := nofun
  wanted := h.wanted
  unwanted := h.unwanted
  stays := h.stays
  kept := rfl
  current := nofun
  bounded := by
    have hb := h.bounded
    -- an entry that was made anew is one that the pass waits for, so a deletion may rely on no more
    cases a with
    | found e₀ => exact nofun
    | cutting e₀ => exact nofun
    | cut e₀ => exact fun e' he' => he'
    | gone stage => exact ⟨fun e' he' => he', by cases stage <;> exact hb.2⟩
    | _ => trivial

/-- A lock that is free is not the one that a side holds. -/
theorem entry_ne {t : Side} {e' : EntryId} (free : owner (.entry e) = none)
    (ht : owner (.entry e') = some t) : Lock.entry e' ≠ .entry e := by
  intro heq
  rw [heq, free] at ht
  cases ht

/-- A lock of an entry leaves the stage of a deletion alone. -/
theorem reached_update {stage : Stage} (h : stage.Reached F v owner) (e : EntryId)
    (t : Option Side) : stage.Reached F v (Function.update owner (.entry e) t) := by
  have hregistry : Function.update owner (.entry e) t .registry = owner .registry :=
    Function.update_of_ne (fun heq => by cases heq) _ _
  cases stage with
  | locked => exact ⟨h.1, hregistry.trans h.2⟩
  | read found => exact ⟨h.1, hregistry.trans h.2.1, h.2.2⟩
  | freed => exact ⟨h.1, hregistry.trans h.2.1, h.2.2⟩
  | _ => exact h

/-- What a deletion relies on does not depend on who holds the locks of entries. -/
theorem bounded_update (h : Bounded F v owner b a) (e : EntryId) (t : Option Side) :
    Bounded F v (Function.update owner (.entry e) t) b a := by
  cases a with
  | gone stage => exact ⟨h.1, reached_update h.2 e t⟩
  | _ => exact h

/-- It gets the lock. -/
theorem metrics_holding (h : Tied F v owner a (.waiting e)) (free : owner (.entry e) = none) :
    Tied F v (Function.update owner (.entry e) (some .metrics)) a (.holding e) where
  changesLock e' he' := by
    have ht := h.changesLock e' he'
    rw [Function.update_of_ne (entry_ne free ht)]
    exact ht
  metricsLock e' he' := by
    obtain rfl := Option.some.inj he'
    exact Function.update_self ..
  wanted := h.wanted
  unwanted := h.unwanted
  stays := h.stays
  kept := rfl
  current := nofun
  bounded := by
    -- a pass that only holds the lock works on no entry yet
    have hb := bounded_update h.bounded e (some .metrics)
    cases a with
    | found e₀ => exact nofun
    | cutting e₀ => exact nofun
    | _ => exact hb

/-- It looks whether the limiter is of interest. During a deletion it is not. -/
theorem metrics_asked (h : Tied F v owner a (.holding e)) :
    Tied F v owner a (.asked e v.wanted) where
  changesLock := h.changesLock
  metricsLock := h.metricsLock
  wanted := h.wanted
  unwanted := h.unwanted
  stays := h.stays
  kept := rfl
  current := nofun
  bounded := by
    have hb := h.bounded
    have hunwanted := h.unwanted
    -- a deletion has taken the interest away before, so the pass finds that there is none
    cases a with
    | found e₀ =>
      rw [hunwanted rfl]
      exact fun e' he' => nomatch he'
    | cutting e₀ =>
      rw [hunwanted rfl]
      exact fun e' he' => nomatch he'
    | cut e₀ =>
      rw [hunwanted rfl]
      exact hb
    | gone stage =>
      rw [hunwanted rfl]
      exact hb
    | _ => trivial

/-- It looks whether its entry is still that of the limiter. -/
theorem metrics_afterLook {wanted : Bool} (h : Tied F v owner a (.asked e wanted)) :
    Tied F v owner a (.afterLook e wanted v.current) := by
  have hlock : ∀ φ : Phase, φ.lock? = some e → ∀ e', φ.lock? = some e' →
      owner (.entry e') = some .metrics := by
    intro φ hφ e' he'
    rw [hφ] at he'
    exact h.metricsLock e' he'
  have hb := h.bounded
  unfold Phase.afterLook
  split
  · next hcurrent =>
    cases wanted with
    | true =>
      exact
        { h with
          metricsLock := hlock (.working e) rfl
          kept := rfl
          current := fun e' he' => by
            cases he'
            exact hcurrent
          bounded := by
            cases a with
            | cut e₀ => cases hb e hcurrent
            | gone stage => cases hb.1 e hcurrent
            | _ => exact hb }
    | false =>
      exact
        { h with
          metricsLock := hlock (.dropping e) rfl
          kept := rfl
          current := nofun
          bounded := by
            cases a with
            | found e₀ => exact nofun
            | cutting e₀ => exact nofun
            | _ => exact hb }
  · next hcurrent =>
    -- it was to work on this entry, or to take it out, and on no other
    have hnone : (∀ e', v.current = some e' → (Phase.asked e wanted).drops? = some e') →
        ∀ e', v.current = some e' → (Phase.leaving e).drops? = some e' := by
      intro hall e' he'
      have hdrops := hall e' he'
      cases wanted with
      | true => cases hdrops
      | false =>
        obtain rfl := Option.some.inj hdrops
        exact absurd he' hcurrent
    exact
      { h with
        metricsLock := hlock (.leaving e) rfl
        kept := rfl
        current := nofun
        bounded := by
          cases a with
          | found e₀ => exact nofun
          | cutting e₀ => exact nofun
          | cut e₀ => exact hnone hb
          | gone stage => exact ⟨hnone hb.1, hb.2⟩
          | _ => trivial }

/-- It takes the entry out. -/
theorem metrics_leaving (h : Tied F v owner a (.dropping e)) :
    Tied F { v with current := none } owner a (.leaving e) where
  changesLock := h.changesLock
  metricsLock := h.metricsLock
  wanted := h.wanted
  unwanted := h.unwanted
  stays := h.stays
  kept := rfl
  current := nofun
  bounded := by
    have hb := h.bounded
    cases a with
    | found e₀ => exact nofun
    | cutting e₀ => exact nofun
    | cut e₀ => exact nofun
    | gone stage => exact ⟨nofun, by cases stage <;> exact hb.2⟩
    | _ => trivial

/-- While it works, nothing but the entry matters: a deletion has not come past its entry. -/
theorem metrics_working (h : Tied F v owner a (.working e)) (hwanted : v'.wanted = v.wanted)
    (hcurrent : v'.current = v.current) (howner : ∀ e', owner' (.entry e') = owner (.entry e')) :
    Tied F v' owner' a (.working e) where
  changesLock e' he' := by rw [howner, h.changesLock e' he']
  metricsLock e' he' := by rw [howner, h.metricsLock e' he']
  wanted := by rw [hwanted]; exact h.wanted
  unwanted := by rw [hwanted]; exact h.unwanted
  stays := h.stays
  kept := rfl
  current := by rw [hcurrent]; exact h.current
  bounded := by
    have hb := h.bounded
    cases a with
    | found e₀ | cutting e₀ =>
      intro e'
      rw [hcurrent]
      exact hb e'
    -- a deletion that has cut the entry off leaves none to work on
    | cut e₀ => cases hb e (h.current e rfl)
    | gone stage => cases hb.1 e (h.current e rfl)
    | _ => trivial

/-- It gives the lock back. -/
theorem metrics_outside (h : Tied F v owner a b) (hlock : b.lock? = some e)
    (hdrops : b.drops? = none) : Tied F v (Function.update owner (.entry e) none) a .outside where
  changesLock e' he' := by
    have hmetrics := h.metricsLock e hlock
    have hchanges := h.changesLock e' he'
    rw [Function.update_of_ne, hchanges]
    -- two owners of one lock would be one
    intro heq
    rw [heq, hmetrics] at hchanges
    cases hchanges
  metricsLock := nofun
  wanted := h.wanted
  unwanted := h.unwanted
  stays := h.stays
  kept := rfl
  current := nofun
  bounded := by
    have hb := bounded_update h.bounded e none
    have hgone : (∀ e', v.current = some e' → b.drops? = some e') →
        ∀ e', v.current = some e' → Phase.outside.drops? = some e' := by
      intro hall e' he'
      rw [hall e' he'] at hdrops
      cases hdrops
    cases a with
    | found e₀ => exact nofun
    | cutting e₀ => exact nofun
    | cut e₀ => exact hgone hb
    | gone stage => exact ⟨hgone hb.1, hb.2⟩
    | _ => trivial

/-! ## The pass over a changed limiter

It is the side that makes deletions, so none is under way beside it, and the limiter is of interest
as long as the pass lasts. -/

/-- The limiter comes to be of interest. -/
theorem changes_entering (h : Tied F v owner .outside b) :
    Tied F { v with wanted := true } owner .entering b where
  changesLock := nofun
  metricsLock := h.metricsLock
  wanted _ := rfl
  unwanted := nofun
  stays := nofun
  kept := h.kept
  current := h.current
  bounded := trivial

/-- A pass gets the entry of the limiter, or makes one if there is none. -/
theorem changes_waiting (h : Tied F v owner .entering b)
    (he : v.current = none ∨ v.current = some e) :
    Tied F { v with current := some e } owner (.waiting e) b where
  changesLock := nofun
  metricsLock := h.metricsLock
  wanted _ := h.wanted rfl
  unwanted := nofun
  stays e' he' := .inl (by rw [Option.some.inj he'])
  kept := h.kept
  current e' he' := by
    have hcurrent := h.current e' he'
    rcases he with hnone | hsome
    · rw [hnone] at hcurrent
      cases hcurrent
    · exact hsome.symm.trans hcurrent
  bounded := trivial

/-- The lock was free, so the other side holds another one. -/
theorem changes_holding (h : Tied F v owner (.waiting e) b) (free : owner (.entry e) = none) :
    Tied F v (Function.update owner (.entry e) (some .changes)) (.holding e) b where
  changesLock e' he' := by
    obtain rfl := Option.some.inj he'
    exact Function.update_self ..
  metricsLock e' he' := by
    have ht := h.metricsLock e' he'
    rw [Function.update_of_ne (entry_ne free ht)]
    exact ht
  wanted _ := h.wanted rfl
  unwanted := nofun
  stays e' he' := .inr (by rw [Option.some.inj he'])
  kept := h.kept
  current := h.current
  bounded := trivial

/-- It finds that the limiter is of interest. -/
theorem changes_asked (h : Tied F v owner (.holding e) b) :
    Tied F v owner (.asked e v.wanted) b where
  changesLock := h.changesLock
  metricsLock := h.metricsLock
  wanted _ := h.wanted rfl
  unwanted := nofun
  stays e' he' := by
    rw [h.wanted rfl] at he'
    cases he'
  kept := h.kept
  current := h.current
  bounded := trivial

/-- The limiter is of interest, so the pass works or leaves. -/
theorem changes_afterLook {wanted : Bool} (h : Tied F v owner (.asked e wanted) b) :
    Tied F v owner (.afterLook e wanted v.current) b := by
  have hpass : ∀ φ : Phase, φ.lock? = some e → φ.passes = true → φ.drops? = none →
      φ.deletes = false →
      Bounded F v owner b φ → Tied F v owner φ b := fun φ hlock hpasses hdrops hdeletes hbounded =>
    { changesLock := fun e' he' => by
        rw [hlock] at he'
        exact h.changesLock e' he'
      metricsLock := h.metricsLock
      wanted := fun _ => h.wanted rfl
      unwanted := fun hd => by
        rw [hdeletes] at hd
        cases hd
      stays := fun e' he' => by
        rw [hdrops] at he'
        cases he'
      kept := h.kept
      current := h.current
      bounded := hbounded }
  unfold Phase.afterLook
  cases wanted with
  | true =>
    split
    · exact hpass _ rfl rfl rfl rfl trivial
    · exact hpass _ rfl rfl rfl rfl trivial
  | false =>
    -- it has found that the limiter is of interest
    rcases h.stays e rfl with he | he <;> cases he

/-- Nobody takes the interest away meanwhile. -/
theorem changes_not_dropping (h : Tied F v owner (.dropping e) b) : False := by
  rcases h.stays e rfl with he | he <;> cases he

/-- Work on the limiter touches neither its entry nor its interest. -/
theorem changes_working (h : Tied F v owner (.working e) b) (hwanted : v'.wanted = v.wanted)
    (hcurrent : v'.current = v.current) (howner : ∀ e', owner' (.entry e') = owner (.entry e')) :
    Tied F v' owner' (.working e) b where
  changesLock e' he' := by rw [howner, h.changesLock e' he']
  metricsLock e' he' := by rw [howner, h.metricsLock e' he']
  wanted := by rw [hwanted]; exact h.wanted
  unwanted := nofun
  stays := h.stays
  kept := h.kept
  current := by rw [hcurrent]; exact h.current
  bounded := trivial

/-- The lock that this side lets go is not the one of the other. -/
theorem metricsLock_update (h : Tied F v owner a b) (hlock : a.lock? = some e) :
    ∀ e', b.lock? = some e' → Function.update owner (.entry e) none (.entry e')
      = some .metrics := by
  intro e' he'
  have hchanges := h.changesLock e hlock
  have hmetrics := h.metricsLock e' he'
  rw [Function.update_of_ne, hmetrics]
  intro heq
  rw [heq, hchanges] at hmetrics
  cases hmetrics

/-- The pass is over. -/
theorem changes_outside (h : Tied F v owner a b) (hlock : a.lock? = some e) :
    Tied F v (Function.update owner (.entry e) none) .outside b where
  changesLock := nofun
  metricsLock := h.metricsLock_update hlock
  wanted := nofun
  unwanted := nofun
  stays := nofun
  kept := h.kept
  current := h.current
  bounded := trivial

/-! ## The deletion

Once the limiter is of no interest, a pass beside it can at most take the entry out. What the
deletion has cleared by a stage stays cleared. -/

/-- The interest is taken away, and no pass can begin to work any more. -/
theorem deletion_dropped (h : Tied F v owner .outside b) :
    Tied F { v with wanted := false } owner .dropped b where
  changesLock := nofun
  metricsLock := h.metricsLock
  wanted := nofun
  unwanted _ := rfl
  stays := nofun
  kept := h.kept
  current := h.current
  bounded := trivial

/-- It finds an entry. Whoever works on the entry of the limiter works on that one. -/
theorem deletion_found (h : Tied F v owner .dropped b) (he : v.current = some e) :
    Tied F v owner (.found e) b where
  changesLock := nofun
  metricsLock := h.metricsLock
  wanted := nofun
  unwanted _ := h.unwanted rfl
  stays := nofun
  kept := h.kept
  current := h.current
  bounded _ _ he' := Option.some.inj (he'.symm.trans he)

/-- There is no entry to take out. -/
theorem deletion_missing (h : Tied F v owner .dropped b) (hnone : v.current = none) :
    Tied F v owner (.gone .clearing) b where
  changesLock := nofun
  metricsLock := h.metricsLock
  wanted := nofun
  unwanted _ := h.unwanted rfl
  stays := nofun
  kept := h.kept
  current := h.current
  bounded := by
    refine ⟨fun e he => ?_, trivial⟩
    rw [hnone] at he
    cases he

/-- It gets the lock. Whoever was about to work on the entry would hold it. -/
theorem deletion_cutting (h : Tied F v owner (.found e) b) (free : owner (.entry e) = none) :
    Tied F v (Function.update owner (.entry e) (some .changes)) (.cutting e) b where
  changesLock e' he' := by
    obtain rfl := Option.some.inj he'
    exact Function.update_self ..
  metricsLock e' he' := by
    have ht := h.metricsLock e' he'
    rw [Function.update_of_ne (entry_ne free ht)]
    exact ht
  wanted := nofun
  unwanted _ := h.unwanted rfl
  stays := nofun
  kept := h.kept
  current := h.current
  bounded e' hworks hcurrent := by
    have hsame : e' = e := h.bounded e' hworks hcurrent
    -- a pass that works on the entry would hold the lock that was free
    have howner := h.metricsLock e' (Phase.lock?_of_worksOn? hworks)
    rw [hsame, free] at howner
    cases howner

/-- It takes the entry out. No pass works on an entry any more. -/
theorem deletion_cut (h : Tied F v owner (.cutting e) b) :
    Tied F { v with current := none } owner (.cut e) b where
  changesLock := h.changesLock
  metricsLock := h.metricsLock
  wanted := nofun
  unwanted _ := h.unwanted rfl
  stays := nofun
  kept := h.kept
  current e' he' := by
    subst he'
    exact absurd (h.current e' rfl) (h.bounded e' rfl)
  bounded := nofun

/-- The lock is let go, and all that is left to do is to clear what is noted. -/
theorem deletion_clearing (h : Tied F v owner (.cut e) b) :
    Tied F v (Function.update owner (.entry e) none) (.gone .clearing) b where
  changesLock := nofun
  metricsLock := h.metricsLock_update rfl
  wanted := nofun
  unwanted _ := h.unwanted rfl
  stays := nofun
  kept := h.kept
  current := h.current
  bounded := ⟨h.bounded, trivial⟩

/-- Once the entry is gone, whatever else is held may change if that leads to a further stage. -/
theorem deletion_gone {stage stage' : Stage} (h : Tied F v owner (.gone stage) b)
    (hwanted : v'.wanted = v.wanted) (hcurrent : v'.current = v.current)
    (howner : ∀ e', owner' (.entry e') = owner (.entry e'))
    (hstage : stage.Reached F v owner → stage'.Reached F v' owner') :
    Tied F v' owner' (.gone stage') b where
  changesLock := nofun
  metricsLock e' he' := by rw [howner, h.metricsLock e' he']
  wanted := nofun
  unwanted _ := hwanted.trans (h.unwanted rfl)
  stays := nofun
  kept := h.kept
  current := by rw [hcurrent]; exact h.current
  bounded := by
    refine ⟨?_, hstage h.bounded.2⟩
    rw [hcurrent]
    exact h.bounded.1

/-- A deletion that has ended, or has failed, asks for nothing. -/
theorem deletion_outside {stage : Stage} (h : Tied F v owner (.gone stage) b)
    (howner : ∀ e', owner' (.entry e') = owner (.entry e')) : Tied F v owner' .outside b where
  changesLock := nofun
  metricsLock e' he' := by rw [howner, h.metricsLock e' he']
  wanted := nofun
  unwanted := nofun
  stays := nofun
  kept := h.kept
  current := h.current
  bounded := trivial

/-! ## What else may happen

Others may change the world as they like, except for the interest in this limiter, its entry and
what is noted of it. -/

/-- What a deletion has brought about stays so. The registry may be changed by others while its lock
is free, and then only to one that is as fit. -/
theorem bounded_of_elsewhere {stage : Stage} (h : stage.Reached F v owner)
    (happlied : v'.applied = v.applied) (hwritten : v'.written = v.written)
    (hregistry : v'.registry = v.registry ∨
      owner .registry = none ∧ (F v.registry → F v'.registry)) : stage.Reached F v' owner := by
  have hcleared : v.applied = none ∧ v.written = none → v'.applied = none ∧ v'.written = none := by
    rw [happlied, hwritten]
    exact id
  have hlocked : owner .registry = some .changes → v'.registry = v.registry := by
    intro howner
    refine hregistry.resolve_right fun hfree => ?_
    rw [hfree.1] at howner
    cases howner
  -- by stages: what was cleared before, and what is known of the registry
  cases stage with
  | clearing => trivial
  | forgetting => exact happlied.trans h
  | cleared => exact hcleared h
  | locked => exact ⟨hcleared h.1, h.2⟩
  | read found => exact ⟨hcleared h.1, h.2.1, (hlocked h.2.1).trans h.2.2⟩
  | freed => exact ⟨hcleared h.1, h.2.1, by rw [hlocked h.2.1]; exact h.2.2⟩
  | free =>
    refine ⟨hcleared h.1, ?_⟩
    rcases hregistry with hsame | ⟨-, hF⟩
    · rw [hsame]
      exact h.2
    · exact hF h.2

/-- Others leave the limiter alone, and write the registry only while no side holds its lock. -/
theorem elsewhere (h : Tied F v owner a b) (hwanted : v'.wanted = v.wanted)
    (hcurrent : v'.current = v.current) (happlied : v'.applied = v.applied)
    (hwritten : v'.written = v.written) (hregistry : v'.registry = v.registry ∨
      owner .registry = none ∧ (F v.registry → F v'.registry)) : Tied F v' owner a b where
  changesLock := h.changesLock
  metricsLock := h.metricsLock
  wanted := by rw [hwanted]; exact h.wanted
  unwanted := by rw [hwanted]; exact h.unwanted
  stays := h.stays
  kept := h.kept
  current := by rw [hcurrent]; exact h.current
  bounded := by
    have hb := h.bounded
    -- the bound speaks of the entry the index now has, which stays the same
    cases a with
    | found e₀ | cutting e₀ | cut e₀ =>
      intro e'
      rw [hcurrent]
      exact hb e'
    | gone stage =>
      refine ⟨fun e' he' => ?_, bounded_of_elsewhere hb.2 happlied hwritten hregistry⟩
      rw [hcurrent] at he'
      exact hb.1 e' he'
    | _ => trivial

end Tied

end Pass

end MeshLimiter
