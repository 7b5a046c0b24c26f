import MeshLimiter.ResourceId
/-!
# The work queue

A queue of keys that are worked on one at a time each. A key that is pushed while it waits is queued
once; one that is pushed while it is worked on is marked, and queued again when that work is done. A
push is refused only for a new key when the queue is full.
-/

namespace MeshLimiter

/-- A queue of keys. -/
structure Queue where
  capacity : Nat
  /-- The keys that wait, first to last. -/
  pending : List ResourceId := []
  /-- The same keys as a set. -/
  queued : IdSet := ∅
  /-- The keys that are worked on. -/
  active : IdSet := ∅
  /-- The keys to queue again when the work on them is done. -/
  dirty : IdSet := ∅
  /-- The number of waiting keys, as last reported. -/
  depth : Nat := 0

namespace Queue

/-- What became of a push. -/
inductive PushOutcome where
  | enqueued
  | alreadyQueued
  | marked
  | refused
deriving DecidableEq, Repr

/-- Whether the key will be worked on after the push. -/
def PushOutcome.accepted : PushOutcome → Bool
  | refused => false
  | _ => true

/-- An empty queue that holds at least one key. -/
def ofCapacity (capacity : Nat) : Queue := { capacity := max capacity 1 }

/-- Puts a key at the end and reports the length. -/
def enqueue (q : Queue) (id : ResourceId) : Queue :=
  { q with
    pending := q.pending ++ [id]
    queued := q.queued.insert id
    depth := q.pending.length + 1 }

def push (q : Queue) (id : ResourceId) : PushOutcome × Queue :=
  if q.queued.contains id then (.alreadyQueued, q)
  else if q.active.contains id then (.marked, { q with dirty := q.dirty.insert id })
  else if q.capacity ≤ q.pending.length then (.refused, q)
  else (.enqueued, q.enqueue id)

def tryPop (q : Queue) : Option ResourceId × Queue :=
  match q.pending with
  | [] => (none, q)
  | id :: rest =>
    (some id, { q with
      pending := rest
      queued := q.queued.erase id
      active := q.active.insert id
      depth := rest.length })

/-- Ends the work on a key; whether it was queued again. -/
def done (q : Queue) (id : ResourceId) : Bool × Queue :=
  let q' := { q with active := q.active.erase id, dirty := q.dirty.erase id }
  if q.dirty.contains id then (true, q'.enqueue id) else (false, q')

def length (q : Queue) : Nat :=
  q.pending.length

def isEmpty (q : Queue) : Bool :=
  q.pending.isEmpty

def pushAll (q : Queue) (ids : List ResourceId) : Queue :=
  ids.foldl (fun q id => (q.push id).2) q

/-- Takes and finishes every waiting key; the keys in order. A key that is queued again at its end
is taken again, so the rounds are bounded by the waiting and the marked keys. -/
def drain (q : Queue) : List ResourceId × Queue :=
  go (q.pending.length + q.dirty.size) q
where
  /-- At most `rounds` more keys. -/
  go : Nat → Queue → List ResourceId × Queue
    | 0, q => ([], q)
    | rounds + 1, q =>
      match q.tryPop with
      | (none, q) => ([], q)
      | (some id, q) =>
        let (ids, q) := go rounds (q.done id).2
        (id :: ids, q)

end Queue

end MeshLimiter
