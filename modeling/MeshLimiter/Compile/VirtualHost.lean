import MeshLimiter.Decimal.Integer
import MeshLimiter.Filter.Basic
import MeshLimiter.Limiter.Descriptor
/-!
# Virtual hosts

The routes that the rules of a limiter are attached to are found by the virtual host they belong to:
a direction of traffic and a port, or every port.

The name of a virtual host is its direction, `http` and its port, such as `inbound|http|9080`.
-/

namespace MeshLimiter

/-- The virtual hosts of a direction, of one port or of all. -/
structure VirtualHost where
  direction : String
  port : Option UInt16
deriving DecidableEq, Repr

namespace VirtualHost

/-- Virtual hosts in order: by direction, then by port, all ports before any single one. -/
instance : Ord VirtualHost :=
  ⟨compareLex (compareOn VirtualHost.direction) (compareOn VirtualHost.port)⟩

instance : Std.TransOrd VirtualHost :=
  inferInstanceAs
    (Std.TransCmp (compareLex (compareOn VirtualHost.direction) (compareOn VirtualHost.port)))

instance : Std.LawfulEqOrd VirtualHost where
  compare_self := by
    intro a
    change compareLex (compareOn VirtualHost.direction) (compareOn VirtualHost.port) a a = .eq
    rw [compareLex_eq_eq]
    exact ⟨Std.ReflCmp.compare_self, Std.ReflCmp.compare_self⟩
  eq_of_compare := by
    intro a b h
    change compareLex (compareOn VirtualHost.direction) (compareOn VirtualHost.port) a b = .eq at h
    rw [compareLex_eq_eq] at h
    cases a; cases b
    simp only [compareOn, Std.LawfulEqCmp.compare_eq_iff_eq] at h
    simp [h.1, h.2]

/-- The hosts of a target: inbound unless a direction is given, all ports unless one other than zero
is. -/
def ofTarget (t : Option Target) : VirtualHost :=
  let direction := (t.bind (·.direction)).filter fun d => !d.isEmpty
  let port := (t.bind (·.port)).filter (· ≠ 0)
  { direction := direction.getD "inbound", port }

/-- The name of the virtual host of a port. -/
def nameOf (direction : String) (port : String) : String :=
  direction ++ "|http|" ++ port

/-- The name to match; none matches every virtual host. -/
def name? (v : VirtualHost) : Option String :=
  v.port.map fun p => nameOf v.direction (Decimal.natText p.toNat)

def text (v : VirtualHost) : String :=
  v.name?.getD (nameOf v.direction "*")

/-- The direction that a patch for these hosts is for. -/
def context (v : VirtualHost) : PatchContext :=
  if v.direction = "outbound" then .sidecarOutbound else .sidecarInbound

/-- The route to match: the one that the mesh names itself, of these hosts. -/
def place (v : VirtualHost) : ObjectMatch :=
  { context := some v.context
    routeConfiguration := some { vhost := some { name := v.name?, route := some "default" } } }

end VirtualHost

end MeshLimiter
