import MeshLimiter.Pass
/-!
# Rounds of work

The work that goes on without end is done in rounds: a worker takes a key and makes the pass it asks
for, or waits for a key; the ticker asks for all limiters of interest. A retry is a single round.

A worker for changed limiters (`Round.changes`) takes keys from the spec queue, a worker for metrics
(`Round.metrics`) from the metric queue, on which the ticker (`Round.tick`) puts them.
-/

namespace MeshLimiter

/-- What a program is, and so what it does after its round. -/
inductive Role where
  /-- Takes changed limiters. -/
  | changes
  /-- Takes limiters whose metrics are to be looked at. -/
  | metrics
  /-- Asks for all limiters of interest every `period` milliseconds, at `next` for the next time. -/
  | ticker (period next : Nat)
  /-- Ends after its round. -/
  | single
deriving DecidableEq, Repr

abbrev RoundResult := Except PassError Unit

namespace Round

/-- Makes the pass for a changed limiter; one that is not known any more was deleted. -/
def passFor (s : Settings) (id : ResourceId) : Attempt PassError Unit := do
  let found : Option Limiter ← (Program.step (.findLimiter id) :)
  match found with
  | some l => Pass.reconcile s l
  | none => Pass.delete s id

/-- Takes a changed limiter. A failure is tried again after a delay. -/
def changes (s : Settings) : Program RoundResult := do
  let taken : Option ResourceId ← Program.step (.tryPop .spec)
  match taken with
  | none => Program.command (.await .spec)
  | some id =>
    let result ← (passFor s id).run
    let _ : Bool ← Program.step (.finish .spec id)
    match result with
    | .ok _ => Program.step (.noteSuccess id)
    | .error _ =>
      let delay : Delay ← Program.step (.noteFailure s.backoff id)
      Program.command (.retryAfter delay.inMillis id)
  return .ok ()

/-- Takes a limiter whose metrics are to be looked at. A failure is left to the next look. -/
def metrics (s : Settings) : Program RoundResult := do
  let taken : Option ResourceId ← Program.step (.tryPop .metric)
  match taken with
  | none => Program.command (.await .metric)
  | some id =>
    let found : Option Limiter ← Program.step (.findLimiter id)
    match found with
    | some l => let _ ← (Pass.refresh s l).run
    | none => pure ()
    let _ : Bool ← Program.step (.finish .metric id)
  return .ok ()

/-- Pushes keys on the metric queue, in order. -/
def pushAll : List ResourceId → Program Unit
  | [] => return ()
  | id :: ids => do
    let _ : Queue.PushOutcome ← Program.step (.push .metric id)
    pushAll ids

/-- Asks for all limiters of interest at a time. -/
def tick (time : Nat) : Program RoundResult := do
  Program.command (.sleepUntil time)
  let ids : List ResourceId ← Program.step .allInterested
  pushAll ids
  return .ok ()

/-- Pushes a key on the spec queue at a time. -/
def retry (time : Nat) (id : ResourceId) : Program RoundResult := do
  Program.command (.sleepUntil time)
  let _ : Queue.PushOutcome ← Program.step (.push .spec id)
  return .ok ()

end Round

/-- The next round of a role, and the role after it. A ticker that is late would leave out the times
that it has missed. Here none is ever late: time passes only while every program waits, so the
pushes of one time are over before the next one comes, and the next time is one period after the
last. -/
def Role.nextRound? (s : Settings) : Role → Option (Role × Program RoundResult)
  | changes => some (changes, Round.changes s)
  | metrics => some (metrics, Round.metrics s)
  | ticker period next => some (ticker period (next + period), Round.tick next)
  | single => none

end MeshLimiter
