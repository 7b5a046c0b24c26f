import MeshLimiter.Proofs.Json.Texts
import MeshLimiter.Proofs.Query.Keeping
import MeshLimiter.Proofs.Query.Reference
/-!
# A group is stored twice

The values of a group stand each under a key of its own, where templates find them, and all together
in one text, an object with the values by signature. Labels with different values have different
signatures, so neither of the two loses a value, and both say the same.

* **`Sample.SetApart`**: a vector no two of whose values have the same labels;
* **`Sample.Members`**, **`Sample.SetApart.members_of_store?`**: what stands in a material after it
  is stored;
* **`Sample.group_kept_whole`**: the object and the entries agree with the vector, and with each
  other.
-/

namespace MeshLimiter.Sample

variable {q : Query} {m m' : Material} {points : List (Labels × Float)} {p p' : Labels × Float}
  {labels : Labels} {key sig v : String}

/-! ## Vectors

Values that are told apart by their labels are told apart by their signatures. -/

/-- The labels are named as labels are, and no two values have the same. -/
structure SetApart (points : List (Labels × Float)) : Prop where
  named : ∀ labels ∈ points.map Prod.fst, labels.Named
  distinct : (points.map Prod.fst).Nodup

/-- The members of the text of a group. -/
def members (points : List (Labels × Float)) : List (String × Json) :=
  points.map fun p => (signature p.1, .str (Decimal.floatText p.2))

theorem SetApart.eq_of_signature_eq (h : SetApart points) (hp : p ∈ points) (hp' : p' ∈ points)
    (hsame : signature p.1 = signature p'.1) : p = p' :=
  List.inj_on_of_nodup_map h.distinct hp hp' (signature_inj (h.named _ (List.mem_map_of_mem hp))
    (h.named _ (List.mem_map_of_mem hp')) hsame)

/-- Each member has a name of its own. -/
theorem SetApart.nodup_names (h : SetApart points) : ((members points).map Prod.fst).Nodup := by
  have hpoints : points.Nodup := h.distinct.of_map
  rw [members, List.map_map]
  exact hpoints.map_on fun p hp p' hp' hsame => h.eq_of_signature_eq hp hp' hsame

theorem SetApart.nodup_of_perm (h : SetApart points) {object : List (String × Json)}
    (hperm : object.Perm (members points)) : (object.map Prod.fst).Nodup :=
  (hperm.map _).nodup_iff.2 h.nodup_names

/-- The value with given labels is the last one with their signature. -/
theorem SetApart.lastValue?_eq (h : SetApart points) (hp : p ∈ points) :
    lastValue? points p.1 = some p.2 := by
  obtain ⟨x, hx⟩ := exists_lastValue? (List.mem_map_of_mem (f := Prod.fst) hp)
  obtain ⟨p', hlast, rfl⟩ := Option.map_eq_some_iff.1 hx
  obtain ⟨hp', hsame⟩ := List.mem_filter.1 (List.mem_of_getLast? hlast)
  obtain rfl := h.eq_of_signature_eq hp' hp (of_decide_eq_true hsame)
  exact hx

/-- The text of a group is read as an object with a member for each value. -/
theorem SetApart.groupText_read (h : SetApart points) :
    ∃ object, Json.parse? (groupText points) = some (.obj object) ∧
      object.Perm (members points) := by
  let texts := points.map fun p => (signature p.1, Decimal.floatText p.2)
  have hmembers : texts.map Json.textMember = members points := by
    rw [List.map_map]
    rfl
  have hnames : (texts.map Prod.fst).Nodup := by
    have hnodup := h.nodup_names
    rwa [← hmembers, List.map_map] at hnodup
  have hmap : groupText points = (Json.ofTexts
      (texts.foldl (fun m p => m.insert p.1 p.2)
        (∅ : Std.ExtTreeMap String String)).toList).compact := by
    rw [List.foldl_map]
    rfl
  refine ⟨_, by rw [hmap, Json.parse?_ofTexts]; rfl, ?_⟩
  rw [← hmembers]
  exact (Json.perm_toList_foldl_insert hnames).map _

/-! ## What stands in the material

The object of a group and its single entries say the same. -/

/-- An object and a material give the same value for a signature. -/
def Agree (metric : String) (object : Json) (m : Material) (sig : String) : Prop :=
  ∀ v, object.field? sig = some (.str v) ↔ m.Has (metric ++ "." ++ sig) v false

/-- A vector is stored for a group: each value under its signature, marked as a value; and under the
name the object of all of them, marked as a group. The two agree, and nothing else has changed. -/
structure Members (q : Query) (points : List (Labels × Float)) (m m' : Material) : Prop where
  value : ∀ p ∈ points, m'.Has (memberKey q.name p.1) (Decimal.floatText p.2) false
  object : ∃ text object, m'.Has q.name text true ∧ Json.parse? text = some (.obj object) ∧
    object.Perm (members points) ∧ (object.map Prod.fst).Nodup ∧
    (∀ p ∈ points, Agree q.name (.obj object) m' (signature p.1)) ∧
    ∀ sig, Agree q.name (.obj object) (entries q (.vector points)) sig
  others : ∀ key, key ≠ q.name → (∀ labels ∈ points.map Prod.fst, key ≠ memberKey q.name labels) →
    m'.slot key = m.slot key

theorem below_eq_memberKey_iff {metric : String} : metric ++ "." ++ sig = memberKey metric labels ↔
    sig = signature labels := by
  simp [memberKey, ← String.toList_inj]

/-- A group without values is not stored. -/
theorem store?_empty (hgroup : q.kind = .group) (m : Material) :
    store? m q (.vector []) = none := by
  unfold store?
  rw [hgroup]
  rfl

/-- A group with values is. -/
theorem store?_group (hgroup : q.kind = .group) (hne : points ≠ []) (m : Material) :
    store? m q (.vector points) = some ((points.foldl (fun (m : Material) (l, x) =>
      m.insert (memberKey q.name l) (Decimal.floatText x)) m).insertGroup q.name
      (groupText points)) := by
  unfold store?
  rw [hgroup]
  exact if_neg (by simpa [Sample.points] using hne)

/-- What an object with the members of the group has under a signature is what a sample stored. -/
theorem SetApart.agree (h : SetApart points) (hgroup : q.kind = .group)
    (hstore : store? m q (.vector points) = some m') {object : List (String × Json)}
    (hperm : object.Perm (members points)) (hp : p ∈ points) :
    Agree q.name (.obj object) m' (signature p.1) := by
  have hmember : (Json.obj object).field? (signature p.1) = some (.str (Decimal.floatText p.2)) :=
    (Json.field?_obj_eq_some_iff (h.nodup_of_perm hperm)).2
      (hperm.mem_iff.2 (List.mem_map_of_mem hp))
  have hvalue : m'.Has (memberKey q.name p.1) (Decimal.floatText p.2) false :=
    slot_of_store? hgroup hstore (h.lastValue?_eq hp)
  intro v
  rw [hmember, Option.some.injEq, Json.str.injEq]
  constructor
  · rintro rfl
    exact hvalue
  · intro hv
    exact (hvalue.eq hv).1

/-- The entries of a sample agree with the object for every signature, be it one of the sample or
not. -/
theorem SetApart.agree_entries (h : SetApart points) (hgroup : q.kind = .group) (hne : points ≠ [])
    {object : List (String × Json)} (hperm : object.Perm (members points)) (sig : String) :
    Agree q.name (.obj object) (entries q (.vector points)) sig := by
  by_cases hsig : ∃ p ∈ points, sig = signature p.1
  · obtain ⟨p, hp, rfl⟩ := hsig
    have hstore := store?_group hgroup hne {}
    rw [entries, hstore]
    exact h.agree hgroup hstore hperm hp
  · -- neither of the two has anything there
    intro v
    rw [Json.field?_obj_eq_some_iff (h.nodup_of_perm hperm), hperm.mem_iff]
    constructor
    · intro hmem
      obtain ⟨p, hp, heq⟩ := List.mem_map.1 hmem
      exact absurd ⟨p, hp, (Prod.mk.inj heq).1.symm⟩ hsig
    · intro hhas
      rcases key_of_has_entries hhas with hname | ⟨-, labels, hmem, hkey⟩
      · exact absurd hname (below_ne _ _)
      · obtain ⟨p, hp, rfl⟩ := List.mem_map.1 hmem
        exact absurd ⟨p, hp, below_eq_memberKey_iff.1 hkey⟩ hsig

/-- A sample leaves what is under the keys it does not store. -/
theorem slot_of_store?_of_not {s : Sample} (hstore : store? m q s = some m')
    (h : ∀ v group, ¬ (entries q s).Has key v group) : m'.slot key = m.slot key := by
  have htake : (Collected.takeIn {} m q (.ok s)).1.slot key = m.slot key :=
    Collected.slot_takeIn_of_not h
  rw [Collected.takeIn_ok_eq, hstore] at htake
  exact htake

theorem SetApart.members_of_store? (h : SetApart points) (hgroup : q.kind = .group)
    (hne : points ≠ [])
    (hstore : store? m q (.vector points) = some m') : Members q points m m' where
  value p hp := slot_of_store? hgroup hstore (h.lastValue?_eq hp)
  object := by
    obtain ⟨object, hread, hperm⟩ := h.groupText_read
    refine ⟨groupText points, object, ?_, hread, hperm, h.nodup_of_perm hperm,
      fun p => h.agree hgroup hstore hperm, h.agree_entries hgroup hne hperm⟩
    rw [store?_group hgroup hne] at hstore
    rw [← Option.some.inj hstore, Material.Has, Material.slot_insertGroup, if_pos rfl]
  others key hname hmember := by
    refine slot_of_store?_of_not hstore fun v group hhas => ?_
    rcases key_of_has_entries hhas with heq | ⟨-, labels, hmem, heq⟩
    · exact hname heq
    · exact hmember labels hmem heq

/-- **A group is kept whole.** Labels that are named as labels are have signatures of their own,
whatever their values are. So of a vector with different labels for different values, each value is
found under its signature; the text under the name is an object with one member for each of them;
and the two agree for every signature. A vector without values is not stored at all. -/
theorem group_kept_whole :
    (∀ labels labels' : Labels, labels.Named → labels'.Named →
      signature labels = signature labels' → labels = labels') ∧
    ∀ (q : Query) (points : List (Labels × Float)), q.kind = .group → SetApart points →
      ∀ m : Material, (points = [] → store? m q (.vector points) = none) ∧
      (points ≠ [] → ∃ m', store? m q (.vector points) = some m' ∧ Members q points m m') := by
  refine ⟨fun labels labels' => signature_inj, fun q points hgroup hapart m => ⟨?_, fun hne => ?_⟩⟩
  · rintro rfl
    exact store?_empty hgroup m
  · exact ⟨_, store?_group hgroup hne m,
      hapart.members_of_store? hgroup hne (store?_group hgroup hne m)⟩

/-- Values whose labels differ by what is quoted in them. -/
def lookalikes : List (Labels × Float) :=
  [({("source", "a\",zone=\"b")}, 1), ({("source", "a"), ("zone", "b")}, 2),
    ({("source", "a\\")}, 3)]

theorem setApart_lookalikes : SetApart lookalikes where
  named := by
    have hnames : ∀ labels ∈ lookalikes.map Prod.fst, ∀ label ∈ labels.toList, isLabelName label.1
        = true := by
      decide +kernel
    exact fun labels hmem name value h =>
      hnames labels hmem _ (Std.ExtTreeMap.mem_toList_iff_getElem?_eq_some.2 h)
  distinct := by decide +kernel

/-- They are stored under three signatures, and the object has three members. -/
theorem lookalikes_kept_whole :
    bySource.kind = .group ∧ SetApart lookalikes ∧ lookalikes ≠ [] ∧
      lookalikes.map (fun p => signature p.1) = ["\x7bsource=\"a\\\",zone=\\\"b\"\x7d",
        "\x7bsource=\"a\",zone=\"b\"\x7d", "\x7bsource=\"a\\\\\"\x7d"] ∧
      ∃ m', store? {} bySource (.vector lookalikes) = some m' ∧ Members bySource lookalikes {} m' :=
  ⟨rfl, setApart_lookalikes, nofun, by decide +kernel,
    (group_kept_whole.2 bySource lookalikes rfl setApart_lookalikes {}).2 nofun⟩

/-- Where the answer has no values at all, the name of the group has none either. -/
theorem exists_group_not_stored :
    bySource.kind = .group ∧ SetApart [] ∧
      Collected.takeIn {} {} bySource (.ok (.vector [])) = ({}, .empty) ∧
      ¬ ∃ text, (Collected.takeIn {} {} bySource (.ok (.vector []))).1.Has bySource.name
        text true := by
  refine ⟨rfl, ⟨List.forall_mem_nil _, List.nodup_nil⟩, rfl, ?_⟩
  rintro ⟨text, hhas⟩
  exact Material.not_has_empty hhas

end MeshLimiter.Sample
