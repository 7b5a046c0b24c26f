import MeshLimiter.Program.World
import MeshLimiter.Work.Round
/-!
# The schedule

Many programs on one thread. A program runs until it has to wait; then the next one runs that is
ready, first come first served. Locks go to those who wait in the order in which they asked. A queue
wakes the one that has waited longest when a key is put into it; if none waits, the next one to wait
goes on at once. Time passes only when every program waits, and then to the next time that one
sleeps until: no round takes any time, so no sleeper wakes late, and a ticker has no times to skip.
-/

namespace MeshLimiter

/-- Wakes those that wait for a key. -/
structure Signal where
  /-- Whether the next one to wait goes on at once. -/
  raised : Bool := false
  /-- Those that wait, the longest first. -/
  waiting : List Nat := []
deriving DecidableEq, Repr

/-- A program and what it is. -/
structure Task where
  role : Role
  /-- What is left of its round. -/
  program : Program RoundResult

/-- All programs, with what they wait for. -/
structure Schedule where
  settings : Settings
  world : World
  tasks : Std.ExtTreeMap Nat Task := ∅
  /-- The programs that are ready, in order. -/
  ready : List Nat := []
  /-- The locks that are held, each with those that wait for it. -/
  locks : List (Lock × List Nat) := []
  specSignal : Signal := {}
  metricSignal : Signal := {}
  /-- The programs that sleep, in the order in which they fell asleep. -/
  sleeping : List (Nat × Nat) := []
  /-- What ended programs ended with. -/
  results : Std.ExtTreeMap Nat RoundResult := ∅
  /-- The number of the next program. -/
  fresh : Nat := 0

namespace Schedule

/-- Adds a program that is ready; its number. -/
def start (s : Schedule) (role : Role) (p : Program RoundResult) : Nat × Schedule :=
  (s.fresh, { s with
    tasks := s.tasks.insert s.fresh { role, program := p }
    ready := s.ready ++ [s.fresh]
    fresh := s.fresh + 1 })

def startRole (s : Schedule) (role : Role) : Schedule :=
  match role.nextRound? s.settings with
  | some (role, p) => (s.start role p).2
  | none => s

def wake (s : Schedule) (ts : List Nat) : Schedule :=
  { s with ready := s.ready ++ ts }

def signal (s : Schedule) : QueueName → Signal
  | .spec => s.specSignal
  | .metric => s.metricSignal

def setSignal (s : Schedule) (name : QueueName) (x : Signal) : Schedule :=
  match name with
  | .spec => { s with specSignal := x }
  | .metric => { s with metricSignal := x }

/-- Wakes one that waits for a key of a queue. -/
def notify (s : Schedule) (name : QueueName) : Schedule :=
  match (s.signal name).waiting with
  | [] => s.setSignal name { raised := true }
  | t :: ts => (s.setSignal name { (s.signal name) with waiting := ts }).wake [t]

/-- Does a step from outside of the programs; a key that it puts into a queue wakes one of them. -/
def doStep (s : Schedule) (a : Step) : a.Reply × Schedule :=
  let (r, world) := s.world.perform a
  let s := { s with world }
  (r, match a.enqueuedOn r with
    | some name => s.notify name
    | none => s)

/-- Handles an event on an index and pushes what it publishes. -/
def handle (s : Schedule) (e : Indexes.Event) : Schedule :=
  let (spec, metric, indexes) := s.world.indexes.publish e
  let s := { s with world := { s.world with indexes } }
  let s := spec.foldl (fun s id => (s.doStep (.push .spec id)).2) s
  metric.foldl (fun s id => (s.doStep (.push .metric id)).2) s

/-- Asks for a lock; whether it was free. -/
def acquire (s : Schedule) (t : Nat) (l : Lock) : Bool × Schedule :=
  match s.locks.find? fun x => x.1 = l with
  | none => (true, { s with locks := s.locks ++ [(l, [])] })
  | some _ =>
    (false, { s with locks := s.locks.map fun x => if x.1 = l then (l, x.2 ++ [t]) else x })

/-- Gives a lock up: it goes to the one that has waited longest. -/
def release (s : Schedule) (l : Lock) : Schedule :=
  match (s.locks.find? fun x => x.1 = l).map Prod.snd with
  | some (t :: ts) =>
    let locks := s.locks.map fun x => if x.1 = l then (l, ts) else x
    { s with locks }.wake [t]
  | _ => { s with locks := s.locks.filter fun x => x.1 ≠ l }

/-- What comes of a command: the reply at once, or the reply once the program is ready again. -/
inductive Progress (c : Command) where
  | goesOn (reply : c.Reply) (s : Schedule)
  | waits (reply : c.Reply) (s : Schedule)

def perform (s : Schedule) (t : Nat) : (c : Command) → Progress c
  | .step a =>
    let (r, s) := s.doStep a
    .goesOn r s
  | .acquire l =>
    match s.acquire t l with
    | (true, s) => .goesOn () s
    | (false, s) => .waits () s
  | .release l => .goesOn () (s.release l)
  | .await name =>
    let x := s.signal name
    if x.raised then .goesOn () (s.setSignal name { x with raised := false })
    else .waits () (s.setSignal name { x with waiting := x.waiting ++ [t] })
  | .sleepUntil time =>
    if time ≤ s.world.now then .goesOn () s
    else .waits () { s with sleeping := s.sleeping ++ [(time, t)] }
  | .retryAfter delay id =>
    .goesOn () (s.start .single (Round.retry (s.world.now + delay) id)).2

/-- Runs what is left of a round until the program has to wait or the round ends. -/
def runRound (t : Nat) (role : Role) :
    Program RoundResult → Schedule → Option RoundResult × Schedule
  | .done r, s => (some r, s)
  | .ask c next, s =>
    match s.perform t c with
    | .goesOn r s => runRound t role (next r) s
    | .waits r s => (none, { s with tasks := s.tasks.insert t { role, program := next r } })

/-- Runs a program until it has to wait or ends, for at most some rounds. -/
def runTask (t : Nat) : (rounds : Nat) → Schedule → Schedule
  | 0, s => s
  | rounds + 1, s =>
    match s.tasks[t]? with
    | none => s
    | some task =>
      match runRound t task.role task.program s with
      | (none, s) => s
      | (some r, s) =>
        match task.role.nextRound? s.settings with
        | some (role, program) =>
          runTask t rounds { s with tasks := s.tasks.insert t { role, program } }
        | none => { s with tasks := s.tasks.erase t, results := s.results.insert t r }

/-- Enough turns and rounds for any work that lets time pass. -/
def patience : Nat := 1000000

/-- Runs the programs that are ready, in order, until none is, for at most some turns. -/
def runReady : (turns : Nat) → Schedule → Schedule
  | 0, s => s
  | turns + 1, s =>
    match s.ready with
    | [] => s
    | t :: ts => runReady turns (runTask t patience { s with ready := ts })

/-- The next time that a program sleeps until. -/
def nextTime? (s : Schedule) : Option Nat :=
  (s.sleeping.map Prod.fst).min?

/-- Lets time pass, and wakes those that have slept long enough. -/
def passTo (s : Schedule) (time : Nat) : Schedule :=
  let (due, left) := s.sleeping.partition fun x => x.1 ≤ time
  { s with world := { s.world with now := time }, sleeping := left }.wake (due.map Prod.snd)

/-- Runs everything while time passes up to a limit. At the limit itself nothing runs any more. -/
def runUntil (limit : Nat) : (turns : Nat) → Schedule → Schedule
  | 0, s => s
  | turns + 1, s =>
    let s := runReady patience s
    match s.nextTime? with
    | some time => if time < limit then runUntil limit turns (s.passTo time) else s.passTo limit
    | none => s.passTo limit

/-- Lets some milliseconds pass. -/
def advance (s : Schedule) (span : Nat) : Schedule :=
  if span = 0 then s else runUntil (s.world.now + span) patience s

/-- Runs everything, letting time pass as needed, until some programs have ended. -/
def runToEnd (ts : List Nat) : (turns : Nat) → Schedule → Schedule
  | 0, s => s
  | turns + 1, s =>
    let s := runReady patience s
    if ts.all s.results.contains then s
    else
      match s.nextTime? with
      | some time => runToEnd ts turns (s.passTo time)
      | none => s

end Schedule

end MeshLimiter
