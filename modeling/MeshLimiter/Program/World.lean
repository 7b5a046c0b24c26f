import MeshLimiter.Cluster.Fault
import MeshLimiter.Index.Basic
import MeshLimiter.Program.Basic
/-!
# The world of programs

All that steps read and change: the cluster with its faults, the metrics backend, the indexes with
their queues, and the memory. Calls are noted with their time before they can fail, and writes that
succeed are noted as they were made. `World.perform` is the meaning of a step, and
`Program.runAlone` that of a program with no other beside it.
-/

namespace MeshLimiter

/-- All that steps read and change. -/
structure World where
  cluster : Cluster := {}
  faults : List Fault := []
  backend : Backend := {}
  /-- Subsets by host, if they do not come from the index of traffic rules. -/
  declared : Option (Std.ExtTreeMap String (List Subset)) := none
  indexes : Indexes
  memory : Memory := {}
  /-- The time in milliseconds. -/
  now : Nat := 0
  /-- The calls with their times, the last first. -/
  calls : List (Nat × String) := []
  /-- The writes, the last first. -/
  writes : List ClusterCall := []

namespace World

def note (w : World) (text : String) : World :=
  { w with calls := (w.now, text) :: w.calls }

def call (w : World) (c : ClusterCall) : c.Reply × World :=
  let w := w.note c.text
  match Fault.check c w.faults with
  | (some code, faults) => (.error (.refused code), { w with faults })
  | (none, faults) =>
    match w.cluster.perform c with
    | (.ok a, cluster) =>
      (.ok a, { w with faults, cluster, writes := if c.isWrite then c :: w.writes else w.writes })
    | (.error e, cluster) => (.error e, { w with faults, cluster })

def subsetsOf (w : World) (host : String) : List Subset :=
  match w.declared with
  | some hosts => hosts.getD host []
  | none => w.indexes.subsets.index.subsets host

def queue (w : World) : QueueName → Queue
  | .spec => w.indexes.specQueue
  | .metric => w.indexes.metricQueue

def setQueue (w : World) (name : QueueName) (q : Queue) : World :=
  match name with
  | .spec => { w with indexes := { w.indexes with specQueue := q } }
  | .metric => { w with indexes := { w.indexes with metricQueue := q } }

def remember (w : World) (f : Memory → Memory) : World :=
  { w with memory := f w.memory }

/-- Sets the entry of a key, or takes it out. -/
def setKey {α : Type} (m : Std.ExtTreeMap ResourceId α) (id : ResourceId) :
    Option α → Std.ExtTreeMap ResourceId α
  | some a => m.insert id a
  | none => m.erase id

/-- What a step gives, and the world after it. -/
def perform (w : World) : (a : Step) → a.Reply × World
  | .isInterested id => (w.indexes.interest.contains id, w)
  | .addInterest id => ((), { w with indexes := (w.indexes.addInterest id).2 })
  | .dropInterest id => ((), { w with indexes := (w.indexes.dropInterest id).2 })
  | .allInterested => (w.indexes.interest.toList, w)
  | .findEntry id => (w.memory.store.find? id, w)
  | .makeEntry id =>
    let (e, store) := w.memory.store.entry id
    (e, w.remember fun m => { m with store })
  | .removeEntry id => ((), w.remember fun m => { m with store := (m.store.remove id).2 })
  | .readEntry e => (w.memory.store.get e, w)
  | .updateEntry e material =>
    let (revision, store) := w.memory.store.update e material
    (revision, w.remember fun m => { m with store })
  | .findApplied id => (w.memory.applied[id]?, w)
  | .setApplied id a => ((), w.remember fun m => { m with applied := setKey m.applied id a })
  | .findWritten id => (w.memory.written.getD id ∅, w)
  | .setWritten id s => ((), w.remember fun m => { m with written := setKey m.written id s })
  | .count e => ((), w.remember fun m => { m with counts := m.counts.inc e })
  | .call c => w.call c
  | .subsetsOf host => (w.subsetsOf host, w)
  | .sendQueries texts =>
    (if texts.isEmpty then w.now else w.now + w.backend.delay,
      texts.foldl (fun w t => w.note ("query " ++ t)) w)
  | .receiveAnswers texts => (texts.map w.backend.answer, w)
  | .tryPop name =>
    let (id, q) := (w.queue name).tryPop
    (id, w.setQueue name q)
  | .push name id =>
    let (outcome, q) := (w.queue name).push id
    (outcome, w.setQueue name q)
  | .finish name id =>
    let (requeued, q) := (w.queue name).done id
    (requeued, w.setQueue name q)
  | .findLimiter id => (w.indexes.limiters.index.get? id, w)
  | .noteFailure backoff id =>
    let failures := w.memory.attempts.getD id 0
    (backoff.delay failures,
      w.remember fun m => { m with attempts := m.attempts.insert id (Backoff.next failures) })
  | .noteSuccess id => ((), w.remember fun m => { m with attempts := m.attempts.erase id })

end World

namespace Program

/-- Runs a program with no other beside it: every lock is free, nothing is waited for but time, and
no other program is started. -/
def runAlone {α : Type} : Program α → World → α × World
  | done a, w => (a, w)
  | ask (.step a) next, w =>
    let (r, w) := w.perform a
    runAlone (next r) w
  | ask (.sleepUntil t) next, w => runAlone (next ()) { w with now := max w.now t }
  | ask (.acquire _) next, w => runAlone (next ()) w
  | ask (.release _) next, w => runAlone (next ()) w
  | ask (.await _) next, w => runAlone (next ()) w
  | ask (.retryAfter _ _) next, w => runAlone (next ()) w

end Program

end MeshLimiter
