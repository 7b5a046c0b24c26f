import MeshLimiter.Proofs.Pass.History
import MeshLimiter.Proofs.Work.Desk
import MeshLimiter.Work.Round
/-!
# Work in turns

A worker takes a key from its queue, looks the limiter up, makes the pass for what it has found, and
ends its work on the key. Workers do these four things in turns, each in one go, and the watch may
change the index between any two of them. So a pass may be for a version of the limiter that is not
in the index any more.

* **`Turns.Move`**: what may happen while no push is refused and every pass succeeds;
* **`Turns.roundOf_eq`**: the program of a worker does these four things, one after another;
* **`Turns.State.turn`**, **`Turns.State.tell`**: turns that are taken with no other program beside
  them.
-/

namespace MeshLimiter

open Program (Runs)

namespace Turns

/-- A worker: the queue that it takes keys from, and its number. -/
structure Worker where
  queue : QueueName
  number : Nat
deriving DecidableEq

/-- What a worker is at. -/
inductive Stance where
  | free
  | taken (id : ResourceId)
  /-- It has looked the limiter up, and is to make the pass for it. -/
  | found (id : ResourceId) (limiter : Option Limiter)
  /-- The pass is made. -/
  | passed (id : ResourceId)

namespace Stance

/-- The key that a worker works on. -/
def key? : Stance → Option ResourceId
  | free => none
  | taken id | found id _ | passed id => some id

/-- The key for which a worker is still to make a pass. -/
def pending? : Stance → Option ResourceId
  | free | passed _ => none
  | taken id | found id _ => some id

/-- Who is still to make a pass works on the key. -/
theorem key?_of_pending? {φ : Stance} {id : ResourceId} (h : φ.pending? = some id) :
    φ.key? = some id := by
  cases φ with
  | free | passed => cases h
  | taken | found => exact h

end Stance

/-- What has been done, as far as it matters to limiters. -/
inductive Deed where
  /-- The index was told of an event. -/
  | told (e : IndexEvent Limiter)
  | pass (p : Pass.Taken)
  | deletion (id : ResourceId)

/-- Workers, and what they share. -/
structure State where
  world : World
  stance : Worker → Stance
  /-- What has been done so far, the last first. -/
  past : List Deed

/-- A worker has come to another stance. -/
def State.goOn (x : State) (t : Worker) (φ : Stance) (w : World) : State :=
  { x with world := w, stance := Function.update x.stance t φ }

def State.after (x : State) (d : Deed) : State :=
  { x with past := d :: x.past }

/-- The index has handled an event. -/
def State.told (x : State) (e : IndexEvent Limiter) : State :=
  { x with
    world := { x.world with indexes := x.world.indexes.handle (.limiters e) }
    past := .told e :: x.past }

/-- Why a worker makes its passes. -/
def occasionFor : QueueName → Pass.Occasion
  | .spec => .changed
  | .metric => .metrics

/-- A worker's turn. Nobody else comes to the desk while a pass is made. -/
inductive Turn (s : Settings) (t : Worker) (x : State) : State → Prop where
  | pop {id : ResourceId} (free : x.stance t = .free)
    (popped : (x.world.perform (.tryPop t.queue)).1 = some id) :
    Turn s t x (x.goOn t (.taken id) (x.world.perform (.tryPop t.queue)).2)
  | look {id : ResourceId} (taken : x.stance t = .taken id) :
    Turn s t x (x.goOn t (.found id (x.world.desk.limiters.get? id)) x.world)
  | pass {id : ResourceId} {p : Pass.Taken} (found : x.stance t = .found id (some p.limiter))
    (occasion : p.occasion = occasionFor t.queue) (before : p.before = x.world)
    (ran : p.Ran World.Answers s) (ok : p.result = .ok ()) (apart : p.after.desk = x.world.desk) :
    Turn s t x ((x.goOn t (.passed id) p.after).after (.pass p))
  | deletion {id : ResourceId} {tr : Trace} {w : World} (found : x.stance t = .found id none)
    (spec : t.queue = .spec) (ran : Runs World.Answers (Pass.delete s id).run x.world tr (.ok ()) w)
    (apart : w.desk = x.world.desk) :
    Turn s t x ((x.goOn t (.passed id) w).after (.deletion id))
  /-- There are no metrics to look at for a limiter that is not known. -/
  | nothing {id : ResourceId} (found : x.stance t = .found id none) (metric : t.queue = .metric) :
    Turn s t x (x.goOn t (.passed id) x.world)
  | finish {id : ResourceId} (passed : x.stance t = .passed id) :
    Turn s t x (x.goOn t .free (x.world.perform (.finish t.queue id)).2)

/-- What may happen while no push is refused and every pass succeeds. -/
inductive Move (s : Settings) (x : State) : State → Prop where
  | turn {t : Worker} {y : State} (turn : Turn s t x y) : Move s x y
  /-- The index handles an event, and all keys that it publishes are accepted. -/
  | tell {e : IndexEvent Limiter}
    (accepted : x.world.desk.queue.accepts (x.world.indexes.publish (.limiters e)).1 = true) :
    Move s x (x.told e)
  /-- All else may change by itself: services, pods, metrics, time, the queue of metrics. -/
  | outside {w : World} (held : w.held = x.world.held) (desk : w.desk = x.world.desk) :
    Move s x { x with world := w }

/-- What is reached by moves. -/
inductive Reaches (s : Settings) (x : State) : State → Prop where
  | refl : Reaches s x x
  | snoc {y z : State} (before : Reaches s x y) (move : Move s y z) : Reaches s x z

variable {s : Settings} {t : Worker} {x y z : State} {id : ResourceId}

/-- What is reached from what is reached is reached. -/
theorem Reaches.trans (h : Reaches s x y) (h' : Reaches s y z) : Reaches s x z := by
  induction h' with
  | refl => exact h
  | snoc _ move ih => exact .snoc ih move

/-! ## The turns of a program

The program of a worker is these four turns, for either queue. -/

def roundOf (s : Settings) : QueueName → Program RoundResult
  | .spec => Round.changes s
  | .metric => Round.metrics s

/-- What a worker does for what it has found under a key. -/
def passOn (s : Settings) (id : ResourceId) : QueueName → Option Limiter → Program RoundResult
  | q, some l => (Pass.passFor s (occasionFor q) l).run
  | .spec, none => (Pass.delete s id).run
  | .metric, none => .done (.ok ())

/-- What it does once the work on the key has ended. -/
def noteEnd (s : Settings) (id : ResourceId) : QueueName → RoundResult → Program RoundResult
  | .spec, .ok _ => do
    Program.step (.noteSuccess id)
    return .ok ()
  | .spec, .error _ => do
    let delay : Delay ← Program.step (.noteFailure s.backoff id)
    Program.command (.retryAfter delay.inMillis id)
    return .ok ()
  | .metric, _ => return .ok ()

/-- **A round is made of four turns**: a key is taken, the limiter is looked up, the pass is made
for it, and the work on the key ends. What comes then is of no matter to others. -/
theorem roundOf_eq (s : Settings) (q : QueueName) :
    roundOf s q = (do
      let taken : Option ResourceId ← Program.step (.tryPop q)
      match taken with
      | none => do
        Program.command (.await q)
        return .ok ()
      | some id => do
        let found : Option Limiter ← Program.step (.findLimiter id)
        let result ← passOn s id q found
        let _ : Bool ← Program.step (.finish q id)
        noteEnd s id q result) := by
  -- the two kinds of rounds are one program, once what was taken and found is known
  cases q with
  | spec =>
    refine congrArg (Program.ask (.step (.tryPop .spec)))
      (funext fun (taken : Option ResourceId) => ?_)
    cases taken with
    | none => rfl
    | some id =>
      refine congrArg (Program.ask (.step (.findLimiter id)))
        (funext fun (found : Option Limiter) => ?_)
      cases found with
      | none =>
        refine congrArg (Program.bind (Pass.delete s id).run) (funext fun result => ?_)
        cases result <;> rfl
      | some l =>
        refine congrArg (Program.bind (Pass.reconcile s l).run) (funext fun result => ?_)
        cases result <;> rfl
  | metric =>
    refine congrArg (Program.ask (.step (.tryPop .metric)))
      (funext fun (taken : Option ResourceId) => ?_)
    cases taken with
    | none => rfl
    | some id =>
      refine congrArg (Program.ask (.step (.findLimiter id)))
        (funext fun (found : Option Limiter) => ?_)
      cases found <;> rfl

/-! ## Turns with nobody beside

A turn that is taken in one go is the run of its part of the program. -/

/-- A program that is not about the desk leaves it as it is. -/
theorem desk_runAlone {α : Type} {p : Program α} (hp : p.Takes Pass.OffDesk) (w : World) :
    (p.runAlone w).2.desk = w.desk := by
  induction p generalizing w with
  | done x => rfl
  | ask c next ih =>
    cases c with
    | step a => exact (ih _ (hp.2 _) _).trans (w.desk_perform hp.1)
    | _ => exact ih _ (hp.2 _) _ -- all but the steps leave the world as it is

/-- No pass is about the desk. -/
theorem takes_passFor (s : Settings) (occasion : Pass.Occasion) (l : Limiter) :
    (Pass.passFor s occasion l).run.Takes Pass.OffDesk := by
  cases occasion with
  | changed => exact Pass.takes_reconcile s l
  | metrics =>
    show (Pass.refresh s l).run.Takes Pass.OffDesk
    cases hkey : Pass.keyOf l with
    | ok id => exact (Pass.takes_refresh s hkey).mono fun _ h => h.syncs.offDesk
    | error e =>
      -- without a key there is nothing that it could do
      unfold Pass.refresh
      rw [hkey]
      trivial

namespace State

/-- A worker takes its turn. It stays where it is if there is no key for it, or if its pass
fails. -/
def turn (s : Settings) (x : State) (t : Worker) : State :=
  match x.stance t with
  | .free =>
    match (x.world.perform (.tryPop t.queue)).1 with
    | some id => x.goOn t (.taken id) (x.world.perform (.tryPop t.queue)).2
    | none => x
  | .taken id => x.goOn t (.found id (x.world.desk.limiters.get? id)) x.world
  | .found id (some l) =>
    let p := Pass.Taken.alone s x.world (occasionFor t.queue) l
    if p.result.isOk then (x.goOn t (.passed id) p.after).after (.pass p) else x
  | .found id none =>
    match t.queue with
    | .metric => x.goOn t (.passed id) x.world
    | .spec =>
      let deletion := (Pass.delete s id).run.runAlone x.world
      if deletion.1.isOk then (x.goOn t (.passed id) deletion.2).after (.deletion id) else x
  | .passed id => x.goOn t .free (x.world.perform (.finish t.queue id)).2

def turns (s : Settings) (x : State) (ts : List Worker) : State :=
  ts.foldl (turn s) x

/-- The index is told of an event, if all that it publishes is accepted. -/
def tell (x : State) (e : IndexEvent Limiter) : State :=
  if x.world.desk.queue.accepts (x.world.indexes.publish (.limiters e)).1 then x.told e else x

/-- The metrics of a limiter are asked for. -/
def ask (x : State) (id : ResourceId) : State :=
  { x with world := (x.world.perform (.push .metric id)).2 }

/-- A turn is a move, or nothing happens. -/
theorem reaches_turn (s : Settings) (x : State) (t : Worker) : Reaches s x (x.turn s t) := by
  have hone : ∀ {y}, Turn s t x y → Reaches s x y := fun h => .snoc .refl (.turn h)
  unfold turn
  split
  · next hfree =>
    split
    · next id hpopped => exact hone (.pop hfree hpopped)
    · exact .refl
  · next id htaken => exact hone (.look htaken)
  · next id l hfound =>
    dsimp only
    split
    · next hok =>
      obtain ⟨u, hok⟩ := exists_eq_ok_of_isOk hok
      -- a pass that is run alone is one that nobody disturbs at the desk
      refine hone (.pass (p := .alone s x.world (occasionFor t.queue) l) hfound rfl rfl ?_ hok ?_)
      · exact Program.runs_answers_runAlone _ _
      · exact desk_runAlone (takes_passFor s _ l) x.world
    · exact .refl
  · next id hfound =>
    split
    · next hmetric => exact hone (.nothing hfound hmetric)
    · next hspec =>
      dsimp only
      split
      · next hok =>
        obtain ⟨u, hok⟩ := exists_eq_ok_of_isOk hok
        have hrun := Program.runs_answers_runAlone (Pass.delete s id).run x.world
        rw [hok] at hrun
        exact hone (.deletion hfound hspec hrun
          (desk_runAlone ((Pass.takes_delete s id).mono fun _ h => h.forgets.offDesk) x.world))
      · exact .refl
  · next id hpassed => exact hone (.finish hpassed)

/-- So are turns one after another. -/
theorem reaches_turns (s : Settings) (x : State) (ts : List Worker) :
    Reaches s x (x.turns s ts) := by
  induction ts generalizing x with
  | nil => exact .refl
  | cons t ts ih => exact (reaches_turn s x t).trans (ih _)

/-- Telling the index is a move, or nothing happens. -/
theorem reaches_tell (s : Settings) (x : State) (e : IndexEvent Limiter) :
    Reaches s x (x.tell e) := by
  unfold tell
  split
  · next haccepted => exact .snoc .refl (.tell haccepted)
  · exact .refl

/-- To ask for metrics concerns no changed limiter. -/
theorem reaches_ask (s : Settings) (x : State) (id : ResourceId) : Reaches s x (x.ask id) :=
  .snoc .refl (.outside rfl rfl)

end State

end Turns

end MeshLimiter
