import MeshLimiter.Limiter.Document
import MeshLimiter.Proofs.Json.Form
/-!
# Limiters read back

What is written of a limiter, its status and their parts reads as the thing itself, though absent
fields, empty lists and flags that are off are left out. So the text of a descriptor tells the
descriptor.

* **`LimiterSpec.roundTrip`**, **`LimiterStatus.roundTrip`**: what is written is read back, and a
  document is written in its form;
* **`Descriptor.compact_toJson_inj`**: no two descriptors have the same text;
* **`Descriptor.compact_toJson_append_inj`**: not even if something follows.
-/

namespace MeshLimiter

namespace Json

/-! ## Numbers of a given width

A number is read only if it fits, and then it is the number that was written. -/

def int64Form : Json → Option Json :=
  intForm (-Int.pow 2 63) (Int.pow 2 63 - 1)

theorem roundTrip_int64 : RoundTrip (fun i : Int64 => .ofInt i.toInt) int64? int64Form :=
  roundTrip_int Int64.toInt Int64.ofInt (fun i => ⟨i.le_toInt, Int.le_sub_one_of_lt i.toInt_lt⟩)
    Int64.ofInt_toInt fun _ hlo hhi => Int64.toInt_ofInt_of_le hlo (Int.lt_of_le_sub_one hhi)

def int32Form : Json → Option Json :=
  intForm (-Int.pow 2 31) (Int.pow 2 31 - 1)

theorem roundTrip_int32 : RoundTrip (fun i : Int32 => .ofInt i.toInt) int32? int32Form :=
  roundTrip_int Int32.toInt Int32.ofInt (fun i => ⟨i.le_toInt, Int.le_sub_one_of_lt i.toInt_lt⟩)
    Int32.ofInt_toInt fun _ hlo hhi => Int32.toInt_ofInt_of_le hlo (Int.lt_of_le_sub_one hhi)

/-- The form of a whole number that fits a count of bits. -/
def natForm (bits : Nat) : Json → Option Json :=
  intForm 0 (Int.pow 2 bits - 1)

/-- Numbers that a type has up to a count of bits. -/
theorem roundTrip_nat {α : Type} {bits : Nat} (toNat : α → Nat) (ofNat' : Nat → α)
    (hbound : ∀ x, toNat x < Nat.pow 2 bits) (hof : ∀ x, ofNat' (toNat x) = x)
    (hto : ∀ n, n < Nat.pow 2 bits → toNat (ofNat' n) = n) :
    RoundTrip (fun x => Json.ofNat (toNat x)) (fun v : Json => (v.natOfBits? bits).map ofNat')
      (natForm bits) := by
  have hpow : (Nat.pow 2 bits : Int) = Int.pow 2 bits := Int.natCast_pow 2 bits
  have hlast : ∀ x, (toNat x : Int) ≤ Int.pow 2 bits - 1 := by
    intro x
    have hx := hbound x
    omega
  have hint := roundTrip_int (fun x => (toNat x : Int)) (fun i => ofNat' i.toNat)
    (fun x => ⟨Int.natCast_nonneg _, hlast x⟩) hof fun i hlo hhi => by
      rw [hto _ (by omega), Int.toNat_of_nonneg hlo]
  simp only [natOfBits?, Option.map_map]
  exact hint

theorem roundTrip_uint16 : RoundTrip (fun n : UInt16 => .ofNat n.toNat) uint16? (natForm 16) :=
  roundTrip_nat UInt16.toNat UInt16.ofNat UInt16.toNat_lt (fun _ => UInt16.ofNat_toNat)
    fun _ h => UInt16.toNat_ofNat_of_lt' h

theorem roundTrip_uint64 : RoundTrip (fun n : UInt64 => .ofNat n.toNat) uint64? (natForm 64) :=
  roundTrip_nat UInt64.toNat UInt64.ofNat UInt64.toNat_lt (fun _ => UInt64.ofNat_toNat)
    fun _ h => UInt64.toNat_ofNat_of_lt' h

/-- A flag is left out if it is off. -/
theorem roundTrip_flag : RoundTrip (fun b => if b then some (.bool true) else none)
    (orDefault false bool?) (FieldForm.dropped boolForm (.bool false)) :=
  roundTrip_bool.dropped false _ rfl fun b hb => by
    obtain rfl := eq_true_of_ne_false hb
    rfl

end Json

open Json
    (member? membersOf flag?_eq RoundTrip FieldForm textForm boolForm natForm nameForm
  listForm mapForm recordForm roundTrip_text roundTrip_bool)

/-! ## The parts of a descriptor

Each part is a record. Its fields are listed once as they are written, with the form of each, and
both ways follow from the lists. -/

/-- The fields of a fill interval as they are written. -/
def FillInterval.fields (i : FillInterval) : List (String × Option Json) :=
  [("seconds", some (.ofInt i.seconds.toInt)),
    ("nanos", if i.nanos = 0 then none else some (.ofInt i.nanos.toInt))]

/-- An interval is written field by field. -/
theorem FillInterval.toJson_eq (i : FillInterval) : i.toJson = .obj (membersOf i.fields) := by
  simp only [toJson, fields, membersOf]
  split <;> rfl

def FillInterval.forms : List (String × FieldForm) :=
  [("seconds", .filled Json.int64Form (.ofInt 0)), ("nanos", .dropped Json.int32Form (.ofInt 0))]

/-- It is read back, with both numbers. -/
theorem FillInterval.roundTrip : RoundTrip toJson ofJson? (recordForm forms) :=
  .record (.cons (Json.roundTrip_int64.filled 0) (.cons (Json.roundTrip_int32.dropped 0
      (fun n => if n = 0 then none else some (.ofInt n.toInt)) rfl fun _ h => if_neg h) .nil))
    (by decide) (fun (seconds, nanos, _) => { seconds, nanos }) (fun i => (i.seconds, i.nanos, ()))
    (fun _ => rfl) (fun _ => rfl) (fun _ => rfl) toJson_eq

theorem FillInterval.whole_toJson (i : FillInterval) : i.toJson.Whole := by
  rw [toJson_eq]
  refine Json.whole_membersOf fun f hf w hw => ?_
  simp only [fields, List.mem_cons, List.not_mem_nil, or_false] at hf
  obtain rfl | rfl := hf
  · cases hw
    exact .int _
  · simp only [Option.ite_none_left_eq_some, Option.some.injEq] at hw
    exact hw.2 ▸ .int _

def Strategy.form : Json → Option Json :=
  nameForm ["local", "global"]

/-- A strategy is known by its name. -/
theorem Strategy.roundTrip : RoundTrip (fun s : Strategy => .str s.name) ofJson? form := by
  refine Json.roundTrip_name (fun s => by cases s <;> rfl) fun v => ?_
  unfold ofJson?
  cases v.name? with
  | none => rfl
  | some s => rw [Option.filter_some]; split <;> simp_all [name]

/-- The fields of an action as they are written. -/
def Action.fields (a : Action) : List (String × Option Json) :=
  [("quota", some (.str a.quota)), ("fillInterval", some a.fillInterval.toJson),
    ("strategy", some (.str a.strategy.name)), ("rateLimitService", a.rateLimitService.map .str)]

theorem Action.toJson_eq (a : Action) : a.toJson = .obj (membersOf a.fields) := by
  simp [toJson, fields, membersOf, member?]

def Action.forms : List (String × FieldForm) :=
  [("quota", .required textForm), ("fillInterval", .required (recordForm FillInterval.forms)),
    ("strategy", .filled Strategy.form (.str "local")), ("rateLimitService", .optional textForm)]

/-- An action is read back with its interval. -/
theorem Action.roundTrip : RoundTrip toJson ofJson? (recordForm forms) :=
  .record (.cons roundTrip_text.required (.cons FillInterval.roundTrip.required
      (.cons (Strategy.roundTrip.filled .perProxy) (.cons (roundTrip_text.optional nofun) .nil))))
    (by decide)
    (fun (quota, fillInterval, strategy, rateLimitService, _) =>
      { quota, fillInterval, strategy, rateLimitService })
    (fun a => (a.quota, a.fillInterval, a.strategy, a.rateLimitService, ()))
    (fun _ => rfl) (fun _ => rfl) (fun _ => rfl) toJson_eq

theorem Action.whole_toJson (a : Action) : a.toJson.Whole := by
  rw [toJson_eq]
  refine Json.whole_membersOf fun f hf w hw => ?_
  simp only [fields, List.mem_cons, List.not_mem_nil, or_false] at hf
  obtain rfl | rfl | rfl | rfl := hf
  · cases hw
    exact .str _
  · cases hw
    exact a.fillInterval.whole_toJson
  · cases hw
    exact .str _
  · exact Json.whole_of_map hw .str

/-- The fields of a header matcher as they are written. -/
def HeaderMatcher.fields (m : HeaderMatcher) : List (String × Option Json) :=
  [("name", some (.str m.name)), ("regexMatch", m.regexMatch.map .str),
    ("exactMatch", m.exactMatch.map .str), ("prefixMatch", m.prefixMatch.map .str),
    ("suffixMatch", m.suffixMatch.map .str), ("presentMatch", m.presentMatch.map .bool),
    ("isExactMatchEmpty", if m.isExactMatchEmpty then some (.bool true) else none),
    ("invertMatch", if m.invertMatch then some (.bool true) else none)]

theorem HeaderMatcher.toJson_eq (m : HeaderMatcher) : m.toJson = .obj (membersOf m.fields) := by
  simp [toJson, fields, membersOf, flag?_eq, member?]

def HeaderMatcher.forms : List (String × FieldForm) :=
  [("name", .required textForm), ("regexMatch", .optional textForm),
    ("exactMatch", .optional textForm),
    ("prefixMatch", .optional textForm), ("suffixMatch", .optional textForm),
    ("presentMatch", .optional boolForm), ("isExactMatchEmpty", .dropped boolForm (.bool false)),
    ("invertMatch", .dropped boolForm (.bool false))]

/-- A header matcher is read back, with whichever of the matches it has. -/
theorem HeaderMatcher.roundTrip : RoundTrip toJson ofJson? (recordForm forms) :=
  .record (.cons roundTrip_text.required (.cons (roundTrip_text.optional nofun)
      (.cons (roundTrip_text.optional nofun) (.cons (roundTrip_text.optional nofun)
      (.cons (roundTrip_text.optional nofun) (.cons (roundTrip_bool.optional nofun)
      (.cons Json.roundTrip_flag (.cons Json.roundTrip_flag .nil))))))))
    (by decide)
    (fun (name, regexMatch, exactMatch, prefixMatch, suffixMatch, presentMatch, isExactMatchEmpty,
        invertMatch, _) =>
      { name, regexMatch, exactMatch, prefixMatch, suffixMatch, presentMatch, isExactMatchEmpty,
          invertMatch })
    (fun m => (m.name, m.regexMatch, m.exactMatch, m.prefixMatch, m.suffixMatch, m.presentMatch,
      m.isExactMatchEmpty, m.invertMatch, ()))
    (fun _ => rfl) (fun _ => rfl) (fun _ => rfl) toJson_eq

theorem HeaderMatcher.whole_toJson (m : HeaderMatcher) : m.toJson.Whole := by
  rw [toJson_eq]
  refine Json.whole_membersOf fun f hf w hw => ?_
  simp only [fields, List.mem_cons, List.not_mem_nil, or_false] at hf
  obtain rfl | rfl | rfl | rfl | rfl | rfl | rfl | rfl := hf
  · cases hw
    exact .str _
  · exact Json.whole_of_map hw .str
  · exact Json.whole_of_map hw .str
  · exact Json.whole_of_map hw .str
  · exact Json.whole_of_map hw .str
  · exact Json.whole_of_map hw .bool
  · exact Json.whole_of_flag hw
  · exact Json.whole_of_flag hw

/-- The fields of a target as they are written. -/
def Target.fields (t : Target) : List (String × Option Json) :=
  [("direction", t.direction.map .str), ("port", t.port.map fun p => .ofNat p.toNat)]

theorem Target.toJson_eq (t : Target) : t.toJson = .obj (membersOf t.fields) := by
  simp [toJson, fields, membersOf]

def Target.forms : List (String × FieldForm) :=
  [("direction", .optional textForm), ("port", .optional (natForm 16))]

/-- A target is read back with its matchers. -/
theorem Target.roundTrip : RoundTrip toJson ofJson? (recordForm forms) :=
  .record (.cons (roundTrip_text.optional nofun)
    (.cons (Json.roundTrip_uint16.optional nofun) .nil))
    (by decide) (fun (direction, port, _) => { direction, port })
      (fun t => (t.direction, t.port, ()))
    (fun _ => rfl) (fun _ => rfl) (fun _ => rfl) toJson_eq

theorem Target.whole_toJson (t : Target) : t.toJson.Whole := by
  rw [toJson_eq]
  refine Json.whole_membersOf fun f hf w hw => ?_
  simp only [fields, List.mem_cons, List.not_mem_nil, or_false] at hf
  obtain rfl | rfl := hf
  · exact Json.whole_of_map hw .str
  · exact Json.whole_of_map hw fun _ => .int _

/-! ## Descriptors

Sets of them are read back as well, in their order. -/

namespace Descriptor

variable {d d' : Descriptor}

/-- The fields of a descriptor as they are written. -/
def fields (d : Descriptor) : List (String × Option Json) :=
  [("condition", some (.str d.condition)), ("action", d.action.map Action.toJson),
    ("match", if d.matchers.isEmpty then none
      else some (.arr (d.matchers.map HeaderMatcher.toJson))),
    ("target", d.target.map Target.toJson), ("customKey", d.customKey.map .str),
    ("customValue", d.customValue.map .str)]

theorem toJson_eq (d : Descriptor) : d.toJson = .obj (membersOf d.fields) := by
  simp only [toJson, fields, membersOf]
  split <;> simp [member?]

def forms : List (String × FieldForm) :=
  [("condition", .filled textForm (.str "")), ("action", .optional (recordForm Action.forms)),
    ("match", .dropped (listForm (recordForm HeaderMatcher.forms)) (.arr [])),
    ("target", .optional (recordForm Target.forms)), ("customKey", .optional textForm),
    ("customValue", .optional textForm)]

theorem roundTrip : RoundTrip toJson ofJson? (recordForm forms) :=
  .record (.cons (roundTrip_text.filled "") (.cons (Action.roundTrip.optional nofun)
      (.cons (HeaderMatcher.roundTrip.list.dropped []
        (fun ms => if ms.isEmpty then none else some (.arr (ms.map HeaderMatcher.toJson))) rfl
        fun _ h => if_neg (mt List.isEmpty_iff.1 h))
      (.cons (Target.roundTrip.optional nofun)
      (.cons (roundTrip_text.optional nofun) (.cons (roundTrip_text.optional nofun) .nil))))))
    (by decide)
    (fun (condition, action, matchers, target, customKey, customValue, _) =>
      { condition, action, matchers, target, customKey, customValue })
    (fun d => (d.condition, d.action, d.matchers, d.target, d.customKey, d.customValue, ()))
    (fun _ => rfl) (fun _ => rfl) (fun _ => rfl) toJson_eq

example : recordForm forms
      (.obj [("match", .arr []), ("customKey", .null),
        ("action", .obj [("fillInterval", .obj [("nanos", .ofInt 0)]), ("quota", .str "7")])])
    = some (.obj [("condition", .str ""),
        ("action", .obj [("quota", .str "7"), ("fillInterval", .obj [("seconds", .ofInt 0)]),
          ("strategy", .str "local")])]) := by
  decide

/-- It has no fraction anywhere, so its text tells it. -/
theorem whole_toJson (d : Descriptor) : d.toJson.Whole := by
  rw [toJson_eq]
  refine Json.whole_membersOf fun f hf w hw => ?_
  simp only [fields, List.mem_cons, List.not_mem_nil, or_false] at hf
  obtain rfl | rfl | rfl | rfl | rfl | rfl := hf
  · cases hw
    exact .str _
  · exact Json.whole_of_map hw Action.whole_toJson
  · rw [Option.ite_none_left_eq_some, Option.some.injEq] at hw
    refine hw.2 ▸ .arr fun v hv => ?_
    obtain ⟨m, -, rfl⟩ := List.mem_map.1 hv
    exact m.whole_toJson
  · exact Json.whole_of_map hw Target.whole_toJson
  · exact Json.whole_of_map hw .str
  · exact Json.whole_of_map hw .str

/-- **Descriptors with the same text are the same.** -/
theorem compact_toJson_inj (h : d.toJson.compact = d'.toJson.compact) : d = d' :=
  roundTrip.write_inj (Json.compact_inj d.whole_toJson d'.whole_toJson h)

/-- **The text of a descriptor tells it and where it ends**, whatever follows. -/
theorem compact_toJson_append_inj {s t : String}
    (h : d.toJson.compact ++ s = d'.toJson.compact ++ t) : d = d' ∧ s = t := by
  have hd := d.whole_toJson
  have hd' := d'.whole_toJson
  rw [toJson_eq] at hd hd'
  rw [toJson_eq, toJson_eq] at h
  obtain ⟨hmembers, hst⟩ := Json.compact_obj_append_inj hd hd' h
  exact ⟨roundTrip.write_inj (by rw [toJson_eq, toJson_eq, hmembers]), hst⟩

def setForms : List (String × FieldForm) :=
  [("descriptor", .filled (listForm (recordForm forms)) (.arr []))]

theorem roundTrip_set : RoundTrip setToJson setOfJson? (recordForm setForms) :=
  .record (.cons (roundTrip.list.filled []) .nil) (by decide) (fun (ds, _) => ds)
    (fun ds => (ds, ()))
    (fun _ => rfl) (fun _ => rfl) (fun v => Option.bind_congr fun _ _ =>
      (Option.bind_fun_some _).symm)
    fun _ => rfl

end Descriptor

/-! ## Limiters

What was asked of a limiter is read back, and so is what was made of it. -/

def LimiterSpec.forms : List (String × FieldForm) :=
  [("sets", .filled (mapForm (recordForm Descriptor.setForms)) (.obj []))]

theorem LimiterSpec.roundTrip : RoundTrip toJson ofJson? (recordForm forms) :=
  .record (.cons (Descriptor.roundTrip_set.map.filled ∅) .nil) (by decide)
    (fun (sets, _) => { sets })
    (fun s => (s.sets, ())) (fun _ => rfl) (fun _ => rfl) (fun _ => rfl) fun _ => rfl

def LimiterStatus.forms : List (String × FieldForm) :=
  [("ratelimitStatus", .filled (mapForm (recordForm Descriptor.setForms)) (.obj [])),
    ("metricStatus", .filled (mapForm textForm) (.obj []))]

theorem LimiterStatus.roundTrip : RoundTrip toJson ofJson? (recordForm forms) :=
  .record (.cons (Descriptor.roundTrip_set.map.filled ∅) (.cons (roundTrip_text.map.filled ∅) .nil))
    (by decide) (fun (inForce, metrics, _) => { inForce, metrics })
      (fun s => (s.inForce, s.metrics, ()))
    (fun _ => rfl) (fun _ => rfl) (fun _ => rfl) fun _ => rfl

end MeshLimiter
