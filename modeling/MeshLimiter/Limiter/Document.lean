import MeshLimiter.Json.Record
import MeshLimiter.Limiter.Descriptor
/-!
# Limiters as documents

The JSON form of a limiter's parts. Fields that are absent, lists of matchers that are empty, flags
that are off and nanoseconds of zero are left out when written; whatever is left out, and a null in
the place of an optional field, reads as absent.

The names of the members are those of the kind `SmartLimiter`.
-/

namespace MeshLimiter

open Json (member? flag? fields?)

def Json.int64? (v : Json) : Option Int64 :=
  (v.intIn? (-Int.pow 2 63) (Int.pow 2 63 - 1)).map Int64.ofInt

def Json.int32? (v : Json) : Option Int32 :=
  (v.intIn? (-Int.pow 2 31) (Int.pow 2 31 - 1)).map Int32.ofInt

def Json.uint16? (v : Json) : Option UInt16 :=
  (v.natOfBits? 16).map UInt16.ofNat

def Json.uint64? (v : Json) : Option UInt64 :=
  (v.natOfBits? 64).map UInt64.ofNat

namespace FillInterval

def toJson (i : FillInterval) : Json :=
  .obj (("seconds", .ofInt i.seconds.toInt) ::
    if i.nanos = 0 then [] else [("nanos", .ofInt i.nanos.toInt)])

def ofJson? (v : Json) : Option FillInterval := do
  let f ← fields? 2 v
  return {
    seconds := ← f.withDefault 0 "seconds" 0 Json.int64?
    nanos := ← f.withDefault 1 "nanos" 0 Json.int32? }

end FillInterval

namespace Strategy

def name : Strategy → String
  | perProxy => "local"
  | shared => "global"

def ofJson? (v : Json) : Option Strategy :=
  match v.name? with
  | some "local" => some perProxy
  | some "global" => some shared
  | _ => none

end Strategy

namespace Action

def toJson (a : Action) : Json :=
  .obj ([("quota", .str a.quota), ("fillInterval", a.fillInterval.toJson),
    ("strategy", .str a.strategy.name)]
    ++ member? "rateLimitService" (a.rateLimitService.map .str))

def ofJson? (v : Json) : Option Action := do
  let f ← fields? 4 v
  return {
    quota := ← f.required 0 "quota" Json.text?
    fillInterval := ← f.required 1 "fillInterval" FillInterval.ofJson?
    strategy := ← f.withDefault 2 "strategy" .perProxy Strategy.ofJson?
    rateLimitService := ← f.optional 3 "rateLimitService" Json.text? }

end Action

namespace HeaderMatcher

def toJson (m : HeaderMatcher) : Json :=
  .obj (("name", .str m.name) ::
    member? "regexMatch" (m.regexMatch.map .str)
    ++ member? "exactMatch" (m.exactMatch.map .str)
    ++ member? "prefixMatch" (m.prefixMatch.map .str)
    ++ member? "suffixMatch" (m.suffixMatch.map .str)
    ++ member? "presentMatch" (m.presentMatch.map .bool)
    ++ flag? "isExactMatchEmpty" m.isExactMatchEmpty
    ++ flag? "invertMatch" m.invertMatch)

def ofJson? (v : Json) : Option HeaderMatcher := do
  let f ← fields? 8 v
  return {
    name := ← f.required 0 "name" Json.text?
    regexMatch := ← f.optional 1 "regexMatch" Json.text?
    exactMatch := ← f.optional 2 "exactMatch" Json.text?
    prefixMatch := ← f.optional 3 "prefixMatch" Json.text?
    suffixMatch := ← f.optional 4 "suffixMatch" Json.text?
    presentMatch := ← f.optional 5 "presentMatch" Json.bool?
    isExactMatchEmpty := ← f.withDefault 6 "isExactMatchEmpty" false Json.bool?
    invertMatch := ← f.withDefault 7 "invertMatch" false Json.bool? }

end HeaderMatcher

namespace Target

def toJson (t : Target) : Json :=
  .obj (member? "direction" (t.direction.map .str)
    ++ member? "port" (t.port.map fun p => .ofNat p.toNat))

def ofJson? (v : Json) : Option Target := do
  let f ← fields? 2 v
  return {
    direction := ← f.optional 0 "direction" Json.text?
    port := ← f.optional 1 "port" Json.uint16? }

end Target

namespace Descriptor

def toJson (d : Descriptor) : Json :=
  .obj (("condition", .str d.condition) ::
    member? "action" (d.action.map Action.toJson)
    ++ (if d.matchers.isEmpty then []
        else [("match", .arr (d.matchers.map HeaderMatcher.toJson))])
    ++ member? "target" (d.target.map Target.toJson)
    ++ member? "customKey" (d.customKey.map .str)
    ++ member? "customValue" (d.customValue.map .str))

def ofJson? (v : Json) : Option Descriptor := do
  let f ← fields? 6 v
  return {
    condition := ← f.withDefault 0 "condition" "" Json.text?
    action := ← f.optional 1 "action" Action.ofJson?
    matchers := ← f.withDefault 2 "match" [] (Json.listOf? HeaderMatcher.ofJson?)
    target := ← f.optional 3 "target" Target.ofJson?
    customKey := ← f.optional 4 "customKey" Json.text?
    customValue := ← f.optional 5 "customValue" Json.text? }

/-- The written form of a descriptor set. -/
def setToJson (ds : List Descriptor) : Json :=
  .obj [("descriptor", .arr (ds.map toJson))]

def setOfJson? (v : Json) : Option (List Descriptor) := do
  let f ← fields? 1 v
  f.withDefault 0 "descriptor" [] (Json.listOf? ofJson?)

end Descriptor

namespace LimiterSpec

def toJson (s : LimiterSpec) : Json :=
  .obj [("sets", .ofMap Descriptor.setToJson s.sets)]

def ofJson? (v : Json) : Option LimiterSpec := do
  let f ← fields? 1 v
  return { sets := ← f.withDefault 0 "sets" ∅ (Json.mapOf? Descriptor.setOfJson?) }

end LimiterSpec

namespace LimiterStatus

def toJson (s : LimiterStatus) : Json :=
  .obj [("ratelimitStatus", .ofMap Descriptor.setToJson s.inForce),
    ("metricStatus", .ofMap .str s.metrics)]

def ofJson? (v : Json) : Option LimiterStatus := do
  let f ← fields? 2 v
  return {
    inForce := ← f.withDefault 0 "ratelimitStatus" ∅ (Json.mapOf? Descriptor.setOfJson?)
    metrics := ← f.withDefault 1 "metricStatus" ∅ (Json.mapOf? Json.text?) }

end LimiterStatus

end MeshLimiter
