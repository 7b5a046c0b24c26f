import MeshLimiter.Index.Host
import MeshLimiter.Resource.Basic
/-!
# The index of subsets

The subsets that traffic rules declare, by host. Each operation gives the keys of the services whose
subsets it may have changed.

The traffic rules are the objects of the kind `DestinationRule`.
-/

namespace MeshLimiter

/-- The subsets of the rules of one host. -/
abbrev HostRules := Std.ExtTreeMap ResourceId (List Subset)

/-- Traffic rules by host, and the host of each rule. -/
structure SubsetIndex where
  domain : String := defaultClusterDomain
  byHost : Std.ExtTreeMap String HostRules := ∅
  hosts : Std.ExtTreeMap ResourceId String := ∅

namespace SubsetIndex

/-- The subsets of a host: those of its rules in the order of the rules, the first of each name. -/
def subsets (x : SubsetIndex) (host : String) : List Subset :=
  Subset.firstOfEach ((x.byHost.getD host ∅).toList.flatMap fun r => r.2)

/-- Takes a rule away from a host; a host without rules is left out. -/
def dropRule (m : Std.ExtTreeMap String HostRules) (host : String) (rule : ResourceId) :
    Std.ExtTreeMap String HostRules :=
  match m[host]? with
  | none => m
  | some rules =>
    let rest := rules.erase rule
    if rest.isEmpty then m.erase host else m.insert host rest

/-- Forgets a rule; the host it was under. -/
def remove (x : SubsetIndex) (rule : ResourceId) : Option String × SubsetIndex :=
  match x.hosts[rule]? with
  | none => (none, x)
  | some host =>
    (some host, { x with hosts := x.hosts.erase rule, byHost := dropRule x.byHost host rule })

/-- The keys to look at again when the subsets of a host change. -/
def affected (x : SubsetIndex) (host : String) : List ResourceId :=
  (Host.service? host x.domain).toList

/-- Takes in a rule; one without a namespace is passed over, and one that says nothing new changes
nothing. -/
def apply (x : SubsetIndex) (r : TrafficRule) : List ResourceId × SubsetIndex :=
  match r.metadata.ns with
  | none => ([], x)
  | some ns =>
    let id := r.metadata.id
    let host := Host.normalize r.spec.host ns x.domain
    if (x.byHost.getD host ∅)[id]? = some r.spec.subsets then ([], x)
    else
      let (previous, y) := x.remove id
      let left := (previous.filter (· ≠ host)).toList.flatMap x.affected
      let rules := (y.byHost.getD host ∅).insert id r.spec.subsets
      (left ++ x.affected host,
        { y with hosts := y.hosts.insert id host, byHost := y.byHost.insert host rules })

def delete (x : SubsetIndex) (id : ResourceId) : List ResourceId × SubsetIndex :=
  let (previous, y) := x.remove id
  (previous.toList.flatMap x.affected, y)

def size (x : SubsetIndex) (ns : String) : Nat :=
  x.hosts.toList.countP fun (id, _) => id.ns == ns

end SubsetIndex

end MeshLimiter
