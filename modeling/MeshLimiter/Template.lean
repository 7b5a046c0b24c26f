import MeshLimiter.Template.Evaluation
import MeshLimiter.Template.Rendering
/-!
# Templates

The two uses of a template in a limiter: a condition, which holds or does not, and a quota, which is
a number of requests.
-/

namespace MeshLimiter.Template

/-- The value of a template against a material. -/
def value (template : String) (m : Material) : Except Error Value := do
  let text ← render template m
  (evaluate text.toList).mapError (Fault.inExpression text)

/-- Whether a condition holds. A blank condition does. -/
def condition (template : String) (m : Material) : Except Error Bool :=
  if Text.isAllBlank template then .ok true
  else do
    let text ← render template m
    (evaluate text.toList >>= Value.asTruth).mapError (Fault.inExpression text)

/-- A number of requests: a finite number not below zero, cut to a whole one and to the largest of
64 bits. -/
def quotaOf (x : Float) : Except Error UInt64 :=
  if !Decimal.isFinite x || x < 0.0 then .error (.invalidQuota x) else .ok x.toUInt64

/-- The number of requests that a template gives. -/
def quota (template : String) (m : Material) : Except Error UInt64 := do
  let text ← render template m
  let x ← (evaluate text.toList >>= Value.asNumber).mapError (Fault.inExpression text)
  quotaOf x

end MeshLimiter.Template
