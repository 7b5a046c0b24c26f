import MeshLimiter.Resource.Basic
/-!
# The index of limiters

The limiters as last seen. A limiter whose specification and generation are as before needs no new
pass: only its status has changed. Each operation gives the keys that need one.

The limiters are the objects of the kind `SmartLimiter`.
-/

namespace MeshLimiter

/-- The limiters by key. -/
structure LimiterIndex where
  limiters : Std.ExtTreeMap ResourceId Limiter := ∅

namespace LimiterIndex

def get? (x : LimiterIndex) (id : ResourceId) : Option Limiter :=
  x.limiters[id]?

/-- Whether a limiter asks for the same as the one seen before. -/
def sameWish (a b : Limiter) : Bool :=
  a.spec = b.spec && a.metadata.generation = b.metadata.generation

/-- Takes in a limiter; one without a namespace is passed over. -/
def apply (x : LimiterIndex) (l : Limiter) : List ResourceId × LimiterIndex :=
  match l.metadata.ns with
  | none => ([], x)
  | some _ =>
    let id := l.metadata.id
    let known := (x.get? id).any fun old => sameWish old l
    (if known then [] else [id], { limiters := x.limiters.insert id l })

/-- Forgets a limiter. Its key without a limiter stands for the deletion. -/
def delete (x : LimiterIndex) (id : ResourceId) : List ResourceId × LimiterIndex :=
  ([id], { limiters := x.limiters.erase id })

/-- The number of limiters in a namespace. -/
def size (x : LimiterIndex) (ns : String) : Nat :=
  x.limiters.toList.countP fun (id, _) => id.ns == ns

end LimiterIndex

end MeshLimiter
