import MeshLimiter.Index.Limiters
import MeshLimiter.Index.Slices
import MeshLimiter.Index.Subsets
import MeshLimiter.Metrics.Tally
import MeshLimiter.Queue
/-!
# The indexes together

The three indexes, the limiters of interest and the two queues that the indexes publish on: a
limiter is published for a pass over its specification whether it is of interest or not; a change to
the pods or subsets of a service is published for a pass over its metrics only if its limiter is of
interest. Every operation is counted, and the size of a namespace is measured when an operation
touches it.

`LimiterIndex` publishes on the spec queue, `SubsetIndex` and `SliceIndex` publish on the metric
queue.
-/

namespace MeshLimiter

/-- The kinds of operations on an index. -/
inductive IndexOp where
  | apply
  | delete
  | reset
deriving DecidableEq, Repr

/-- What is measured of one index. -/
structure IndexCounts where
  sizes : Std.ExtTreeMap String Nat := ∅
  updates : Tally IndexOp := .zero

/-- Notes an operation that touched some namespaces, given the sizes after it. -/
def IndexCounts.record (c : IndexCounts) (op : IndexOp) (size : String → Nat)
    (namespaces : List String) : IndexCounts :=
  { sizes := namespaces.foldl (fun m ns => m.insert ns (size ns)) c.sizes
    updates := c.updates.inc op }

/-- An index with the operations that resources take part in. -/
structure IndexOps (ι ρ : Type) where
  apply : ι → ρ → List ResourceId × ι
  delete : ι → ResourceId → List ResourceId × ι
  size : ι → String → Nat
  namespaceOf : ρ → Option String

namespace IndexOps

variable {ι ρ : Type}

/-- Takes in every live resource, then forgets every removed one. -/
def reset (ops : IndexOps ι ρ) (x : ι) (live : List ρ) (removed : List ResourceId) :
    List ResourceId × ι :=
  let step (acc : List ResourceId × ι) (r : List ResourceId × ι) : List ResourceId × ι :=
    (acc.1 ++ r.1, r.2)
  let acc := live.foldl (fun acc r => step acc (ops.apply acc.2 r)) ([], x)
  removed.foldl (fun acc id => step acc (ops.delete acc.2 id)) acc

end IndexOps

/-- The operations of the index of limiters. -/
def LimiterIndex.ops : IndexOps LimiterIndex Limiter :=
  { apply, delete, size, namespaceOf := fun l => l.metadata.ns }

/-- The operations of the index of subsets. -/
def SubsetIndex.ops : IndexOps SubsetIndex TrafficRule :=
  { apply, delete, size, namespaceOf := fun r => r.metadata.ns }

/-- The operations of the index of endpoint slices. -/
def SliceIndex.ops : IndexOps SliceIndex EndpointSlice :=
  { apply, delete, size, namespaceOf := fun s => s.metadata.ns }

/-- The resources that a reset removes: names, by the namespace that they were in. A namespace may
come with no names at all; it is measured again all the same. -/
structure Removed where
  byNamespace : List (String × List String)
deriving DecidableEq, Repr

namespace Removed

/-- The resources, one after another. -/
def ids (r : Removed) : List ResourceId :=
  r.byNamespace.flatMap fun (ns, names) => names.map fun name => { ns, name }

def namespaces (r : Removed) : List String :=
  r.byNamespace.map Prod.fst

/-- Resources that are given one by one, each alone under its namespace. -/
def ofIds (ids : List ResourceId) : Removed where
  byNamespace := ids.map fun id => (id.ns, [id.name])

instance : Coe (List ResourceId) Removed := ⟨ofIds⟩

@[simp] theorem ids_ofIds (ids : List ResourceId) : (ofIds ids).ids = ids := by
  simp [ofIds, Removed.ids, List.flatMap_map]

/-- A resource is removed from a namespace that is named. -/
theorem ns_mem_namespaces {r : Removed} {id : ResourceId} (h : id ∈ r.ids) :
    id.ns ∈ r.namespaces := by
  obtain ⟨⟨ns, names⟩, hentry, hid⟩ := List.mem_flatMap.1 h
  obtain ⟨name, -, rfl⟩ := List.mem_map.1 hid
  exact List.mem_map.2 ⟨(ns, names), hentry, rfl⟩

end Removed

/-- An event on an index. -/
inductive IndexEvent (ρ : Type) where
  | apply (resource : ρ)
  | delete (id : ResourceId)
  | reset (live : List ρ) (removed : Removed)

/-- An index with what is measured of it. -/
structure Measured (ι : Type) where
  index : ι
  counts : IndexCounts := {}

/-- Handles an event; the keys to publish. -/
def Measured.handle {ι ρ : Type} (ops : IndexOps ι ρ) (x : Measured ι) :
    IndexEvent ρ → List ResourceId × Measured ι
  | .apply r =>
    let (ids, index) := ops.apply x.index r
    (ids, { index, counts :=
      x.counts.record .apply (ops.size index) [(ops.namespaceOf r).getD ""] })
  | .delete id =>
    let (ids, index) := ops.delete x.index id
    (ids, { index, counts := x.counts.record .delete (ops.size index) [id.ns] })
  | .reset live removed =>
    let (ids, index) := ops.reset x.index live removed.ids
    let touched := live.filterMap ops.namespaceOf ++ removed.namespaces
    (ids, { index, counts := x.counts.record .reset (ops.size index) touched })

/-- All that the watches feed. -/
structure Indexes where
  limiters : Measured LimiterIndex := { index := {} }
  subsets : Measured SubsetIndex := { index := {} }
  slices : Measured SliceIndex := { index := {} }
  interest : IdSet := ∅
  specQueue : Queue
  metricQueue : Queue

namespace Indexes

/-- Empty indexes for a cluster's domain, with queues of some capacities. -/
def empty (domain : String) (specCapacity metricCapacity : Nat) : Indexes :=
  { subsets := { index := { domain } }
    specQueue := .ofCapacity specCapacity
    metricQueue := .ofCapacity metricCapacity }

/-- An event on one of the indexes. -/
inductive Event where
  | limiters (event : IndexEvent Limiter)
  | subsets (event : IndexEvent TrafficRule)
  | slices (event : IndexEvent EndpointSlice)

/-- The keys that an event asks to push on the spec queue and on the metric queue, and the indexes
after it, with nothing pushed yet. -/
def publish (x : Indexes) : Event → List ResourceId × List ResourceId × Indexes
  | .limiters e =>
    let (ids, limiters) := x.limiters.handle LimiterIndex.ops e
    (ids, [], { x with limiters })
  | .subsets e =>
    let (ids, subsets) := x.subsets.handle SubsetIndex.ops e
    ([], ids.filter x.interest.contains, { x with subsets })
  | .slices e =>
    let (ids, slices) := x.slices.handle SliceIndex.ops e
    ([], ids.filter x.interest.contains, { x with slices })

/-- Handles an event and pushes what it publishes. -/
def handle (x : Indexes) (e : Event) : Indexes :=
  let (spec, metric, y) := x.publish e
  { y with specQueue := y.specQueue.pushAll spec, metricQueue := y.metricQueue.pushAll metric }

/-- Adds a limiter to those of interest; whether it is new. -/
def addInterest (x : Indexes) (id : ResourceId) : Bool × Indexes :=
  (!x.interest.contains id, { x with interest := x.interest.insert id })

/-- Takes a limiter away from those of interest; whether it was one. -/
def dropInterest (x : Indexes) (id : ResourceId) : Bool × Indexes :=
  (x.interest.contains id, { x with interest := x.interest.erase id })

/-- The lines of one index: its sizes by namespace, and the operations on it. -/
def countLines (kind : String) (c : IndexCounts) : List String :=
  c.sizes.toList.map (fun (ns, n) =>
    Exposition.line "limiter_index_size" [("namespace", ns), ("kind", kind)] n)
  ++ Exposition.family "limiter_index_updates"
    (fun op => [("kind", kind), ("op", match op with
      | .apply => "apply"
      | .delete => "delete"
      | .reset => "reset")]) [.apply, .delete, .reset] c.updates

def lines (x : Indexes) : List String :=
  Exposition.sorted (
    [Exposition.line "limiter_spec_queue_depth" [] x.specQueue.depth,
      Exposition.line "limiter_metric_queue_depth" [] x.metricQueue.depth]
    ++ countLines "SmartLimiter" x.limiters.counts
    ++ countLines "DestinationRule" x.subsets.counts
    ++ countLines "EndpointSlice" x.slices.counts)

end Indexes

end MeshLimiter
