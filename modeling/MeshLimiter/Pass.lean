import MeshLimiter.Compile
import MeshLimiter.Pass.Application
import MeshLimiter.Pass.Collection
import MeshLimiter.Pass.Registration
/-!
# Passes over a limiter

A pass collects the metrics of a limiter, compiles it, registers its shared limits, applies the
filter of each subset, and writes its status. It holds the lock of the entry of the limiter all the
while. A pass is started by a change of the limiter (`reconcile`), by a look at its metrics
(`refresh`) or by its deletion (`delete`).

A change that leaves both specification and material as they were last applied is passed over
(`isApplied`); otherwise the pass is made in full (`sync`).
-/

namespace MeshLimiter.Pass

/-- The key of a limiter, which must have a namespace. -/
def keyOf (l : Limiter) : Except PassError ResourceId :=
  match l.metadata.ns with
  | some _ => .ok l.metadata.id
  | none => .error (.invalidLimiter l.metadata.id .noNamespace)

/-- The filters to bring about: those compiled, and none for each subset that had one written and is
not known any more. -/
def desiredFilters (compiled : Std.ExtTreeMap String (Option FilterSpec)) (subsets : List Subset)
    (written : SubsetNames) : Std.ExtTreeMap String (Option FilterSpec) :=
  written.foldl (fun m name =>
    if name != Subset.baseName && subsets.all (·.name != name) then m.insertIfNew name none
    else m) compiled

/-- What has come of the filters so far. -/
structure Applying where
  /-- The subsets that have or may have a filter. -/
  written : SubsetNames := ∅
  /-- The first error. -/
  failure : Option PassError := none

/-- Applies the filter of one subset. A failure does not keep the others from being applied. -/
def applyOne (id : ResourceId) (l : Limiter) (a : Applying) (subset : String)
    (spec : Option FilterSpec) : Program Applying := do
  match ← (ProxyFilter.apply id l subset spec).run with
  | .ok _ =>
    return if spec.isNone then a else { a with written := a.written.insert subset }
  | .error e =>
    return { written := a.written.insert subset, failure := a.failure <|> some e }

/-- Applies the filters of subsets, in order. -/
def applyAll (id : ResourceId) (l : Limiter) :
    Applying → List (String × Option FilterSpec) → Program Applying
  | a, [] => return a
  | a, (subset, spec) :: more => do applyAll id l (← applyOne id l a subset spec) more

/-- The status that a pass comes to. -/
def statusOf (compiled : Compiled) (m : Material) : LimiterStatus :=
  { inForce := compiled.inForce, metrics := m.values }

/-- The part of a pass after the metrics are collected. The filters are applied even if the registry
could not be merged. An error of the status comes before one of the registry, and that before one of
a filter. -/
def bringAbout (s : Settings) (id : ResourceId) (l : Limiter) (c : Collected) :
    Attempt PassError Unit := do
  let compiled := MeshLimiter.compile id l.spec c.material c.subsets c.selector s.compile
  let registered : Except PassError Bool ← ((Registry.merge s id compiled.shared).run :)
  let written : SubsetNames ← (Program.step (.findWritten id) :)
  let desired := desiredFilters compiled.filters c.subsets written
  let applied : Applying ← (applyAll id l {} desired.toList :)
  let _ : Unit ← (Program.step (.setWritten id (some applied.written)) :)
  let status := statusOf compiled c.material
  if l.status ≠ some status then
    let _ : Unit ← Attempt.call .cluster (.patchStatus id status)
  match registered with
  | .error e => throw e
  | .ok _ => pure ()
  match applied.failure with
  | some e => throw e
  | none => pure ()
  let _ : Unit ← (Program.step (.setApplied id (some {
    generation := l.metadata.generation
    spec := l.spec
    revision := c.revision })) :)

/-- A pass. If the limiter was deleted while the pass waited for the lock, or has got another entry,
nothing is done; an entry that was made for nothing is taken out again. -/
def sync (s : Settings) (id : ResourceId) (l : Limiter) : Attempt PassError Unit := do
  let e : EntryId ← (Program.step (.makeEntry id) :)
  Attempt.holding (.entry e) do
    let wanted : Bool ← (Program.step (.isInterested id) :)
    let current : Option EntryId ← (Program.step (.findEntry id) :)
    if !wanted then
      if current = some e then
        let _ : Unit ← (Program.step (.removeEntry id) :)
      return ()
    else if current ≠ some e then return ()
    else
      let collected ← ExceptT.adapt PassError.collection (Collected.refresh s id e)
      bringAbout s id l collected

/-- Takes note of how a pass ended. -/
def recorded (t : Trigger) (p : Attempt PassError Unit) : Attempt PassError Unit :=
  Attempt.noting (fun r => some (.pass t (.ofResult r))) p

/-- Whether a limiter is as it was last applied: the material has the same revision, and the
generation is the same or else the specification. -/
def isApplied (last : Option Applied) (l : Limiter) (revision : Option Nat) : Bool :=
  match last with
  | none => false
  | some a =>
    some a.revision = revision
      && ((a.generation.isSome && a.generation = l.metadata.generation) || a.spec = l.spec)

/-- The pass over a changed limiter. One that is as last applied is passed over. -/
def reconcile (s : Settings) (l : Limiter) : Attempt PassError Unit := do
  let id ← ExceptT.mk (pure (keyOf l))
  if l.spec.sets.isEmpty then
    Program.count (.pass .spec .error)
    throw (.invalidLimiter id .noSets)
  let entry : Option EntryId ← (Program.step (.findEntry id) :)
  let revision : Option Nat ←
    match entry with
    | none => pure none
    | some e => do
      let held : Entry ← (Program.step (.readEntry e) :)
      pure (some held.revision)
  let last : Option Applied ← (Program.step (.findApplied id) :)
  if isApplied last l revision then
    Program.count (.pass .spec .unchanged)
  else
    let _ : Unit ← (Program.step (.addInterest id) :)
    recorded .spec (sync s id l)

/-- The pass over a limiter of interest whose metrics are to be looked at. -/
def refresh (s : Settings) (l : Limiter) : Attempt PassError Unit := do
  let id ← ExceptT.mk (pure (keyOf l))
  let wanted : Bool ← (Program.step (.isInterested id) :)
  if wanted then recorded .metrics (sync s id l)

/-- Forgets a deleted limiter and takes its entries out of the registry. Its filters are owned by
it, so the cluster removes them. -/
def delete (s : Settings) (id : ResourceId) : Attempt PassError Unit := do
  let _ : Unit ← (Program.step (.dropInterest id) :)
  let entry : Option EntryId ← (Program.step (.findEntry id) :)
  match entry with
  | none => pure ()
  | some e =>
    Attempt.holding (.entry e) do
      let _ : Unit ← (Program.step (.removeEntry id) :)
  let _ : Unit ← (Program.step (.setApplied id none) :)
  let _ : Unit ← (Program.step (.setWritten id none) :)
  recorded .delete do
    let _ ← Registry.merge s id []

end MeshLimiter.Pass
