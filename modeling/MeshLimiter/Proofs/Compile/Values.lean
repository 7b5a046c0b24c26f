import Mathlib.Data.List.Forall2
import Mathlib.Data.List.Nodup
import MeshLimiter.Proofs.Compile.Rules
import MeshLimiter.Proofs.Limiter.Document
/-!
# What the values of shared entries tell apart

The value of a shared entry is a checksum of the descriptor in force and of the limiter's name. So
it tells descriptors apart and not the places where they stand: a descriptor that is in force for
two subsets, or twice for one, brings the same entry twice.

* **`sharingRules`**: the rules that bring an entry, each with its place;
* **`forall₂_sharingRules`**: the shared entries are theirs, one for each;
* **`shared_values_tell_descriptors`**: as long as the checksums do not collide, two of the entries
  have the same value exactly if they are for the same descriptor, and then they are the same
  throughout.
-/

namespace MeshLimiter

/-! ## Rules and where they stand

The rules of a subset come in the order of their descriptors, so each has a place. A rule brings an
entry if the mesh shares its count. -/

/-- A rule in force with the place of its descriptor. -/
structure PlacedRule where
  subset : String
  position : Nat
  rule : Rule
deriving DecidableEq

/-- The subset, and the position in the list that is given for it. -/
def PlacedRule.place (p : PlacedRule) : String × Nat :=
  (p.subset, p.position)

/-- The rule that a descriptor becomes, if it is in force. -/
def Descriptor.rule? (id : ResourceId) (m : Material) (d : Descriptor) : Option Rule :=
  (d.resolve? m).bind (Rule.ofResolved? id)

/-- The rules in force for a subset with their places. -/
def placedRulesIn (id : ResourceId) (spec : LimiterSpec) (m : Material) (n : String) :
    List PlacedRule :=
  (spec.sets.getD n []).zipIdx.filterMap fun (d, position) =>
    (d.rule? id m).map fun rule => { subset := n, position, rule }

/-- The rules of all subsets that bring an entry to the registry. -/
def sharingRules (id : ResourceId) (spec : LimiterSpec) (m : Material) (subsets : List Subset) :
    List PlacedRule :=
  (Subset.withBase subsets).flatMap fun s =>
    (placedRulesIn id spec m s.name).filter (·.rule.sharedEntry?.isSome)

variable {id : ResourceId} {spec : LimiterSpec} {m : Material} {subsets : List Subset}
  {selector : Labels} {config : CompileConfig} {n : String} {p q : PlacedRule}

/-- Without their places they are the rules in force. -/
theorem map_rule_placedRulesIn (id : ResourceId) (spec : LimiterSpec) (m : Material) (n : String) :
    (placedRulesIn id spec m n).map (·.rule) = rulesIn id spec m n := by
  have hrules : rulesIn id spec m n = (spec.sets.getD n []).filterMap (Descriptor.rule? id m) :=
    List.filterMap_filterMap
  rw [hrules, placedRulesIn, List.map_filterMap]
  nth_rewrite 2 [← List.zipIdx_map_fst 0 (spec.sets.getD n [])]
  rw [List.filterMap_map]
  refine List.filterMap_congr fun x _ => ?_
  simp [Function.comp_def]

/-- A placed rule is a rule. -/
theorem rule_mem_rulesIn (h : p ∈ placedRulesIn id spec m n) : p.rule ∈ rulesIn id spec m n :=
  map_rule_placedRulesIn id spec m n ▸ List.mem_map_of_mem h

/-- Its place is in its subset. -/
theorem subset_of_mem_placedRulesIn (h : p ∈ placedRulesIn id spec m n) : p.subset = n := by
  obtain ⟨⟨d, i⟩, -, hp⟩ := List.mem_filterMap.1 h
  obtain ⟨rule, -, rfl⟩ := Option.map_eq_some_iff.1 hp
  rfl

/-- Within a subset no two rules stand at one position. -/
theorem nodup_position_placedRulesIn (id : ResourceId) (spec : LimiterSpec) (m : Material)
    (n : String) : ((placedRulesIn id spec m n).map (·.position)).Nodup := by
  have hsub : ((placedRulesIn id spec m n).map (·.position)).Sublist
      ((spec.sets.getD n []).zipIdx.map Prod.snd) := by
    rw [placedRulesIn, List.map_filterMap]
    induction (spec.sets.getD n []).zipIdx with
    | nil => exact .slnil
    | cons x xs ih =>
      obtain ⟨d, i⟩ := x
      cases hx : d.rule? id m with
      | none => simpa [List.filterMap_cons, hx] using ih.cons i
      | some r => simpa [List.filterMap_cons, hx] using ih
  refine hsub.nodup ?_
  rw [List.zipIdx_map_snd]
  exact List.nodup_range'

theorem mem_sharingRules_iff : p ∈ sharingRules id spec m subsets ↔
    (∃ s ∈ Subset.withBase subsets, p ∈ placedRulesIn id spec m s.name) ∧
    p.rule.sharedEntry?.isSome := by
  simp [sharingRules, ← exists_and_right, and_assoc]

/-- **No two rules stand at one place.** -/
theorem nodup_place_sharingRules (id : ResourceId) (spec : LimiterSpec) (m : Material)
    (subsets : List Subset) : ((sharingRules id spec m subsets).map PlacedRule.place).Nodup := by
  rw [sharingRules, List.map_flatMap, List.nodup_flatMap]
  refine ⟨fun s _ => ?_, ?_⟩
  · have hnodup := nodup_position_placedRulesIn id spec m s.name
    have hplaces : ((placedRulesIn id spec m s.name).map PlacedRule.place).Nodup :=
      List.Nodup.of_map Prod.snd (by simpa [PlacedRule.place, Function.comp_def] using hnodup)
    exact hplaces.sublist ((List.filter_sublist).map _)
  · -- different subsets have different names, and each is compiled once
    refine (List.pairwise_map.1 (Subset.nodup_names_withBase subsets)).imp ?_
    intro s t hst
    refine List.disjoint_left.2 fun a hs ht => hst ?_
    obtain ⟨p, hp, rfl⟩ := List.mem_map.1 hs
    obtain ⟨q, hq, hpq⟩ := List.mem_map.1 ht
    rw [← subset_of_mem_placedRulesIn (List.mem_filter.1 hp).1,
      ← subset_of_mem_placedRulesIn (List.mem_filter.1 hq).1]
    exact (congrArg Prod.fst hpq).symm

/-- **The shared entries are those of the sharing rules**, one for each and in order. -/
theorem forall₂_sharingRules (id : ResourceId) (spec : LimiterSpec) (m : Material)
    (subsets : List Subset) (selector : Labels) (config : CompileConfig) :
    List.Forall₂ (fun p e => p.rule.sharedEntry? = some e) (sharingRules id spec m subsets)
      (compile id spec m subsets selector config).shared := by
  -- the entries are those of the rules that have one, in order
  have hshared : (compile id spec m subsets selector config).shared
      = (sharingRules id spec m subsets).filterMap (·.rule.sharedEntry?) := by
    rw [shared_compile, sharingRules, List.filterMap_flatMap]
    refine List.flatMap_congr fun s _ => ?_
    rw [← map_rule_placedRulesIn, List.filterMap_map, List.filterMap_filter]
    refine List.filterMap_congr fun p _ => ?_
    cases h : p.rule.sharedEntry? <;> simp [h]
  -- where each has one, none is passed over
  have hall : ∀ ps : List PlacedRule, (∀ p ∈ ps, p.rule.sharedEntry?.isSome) →
      List.Forall₂ (fun p e => p.rule.sharedEntry? = some e) ps
        (ps.filterMap (·.rule.sharedEntry?)) := by
    intro ps
    induction ps with
    | nil => exact fun _ => .nil
    | cons p ps ih =>
      intro h
      obtain ⟨e, he⟩ := Option.isSome_iff_exists.1 (h p List.mem_cons_self)
      rw [List.filterMap_cons_some (f := fun p : PlacedRule => p.rule.sharedEntry?) he]
      exact .cons he (ih fun q hq => h q (List.mem_cons_of_mem p hq))
  rw [hshared]
  exact hall _ fun p hp => (mem_sharingRules_iff.1 hp).2

/-! ## Texts

A message tells the descriptor and the name that it was made of. -/

/-- The bytes of an array in order, from a position on. -/
theorem toList_loop_eq (bytes : ByteArray) (i : Nat) (read : List UInt8) :
    ByteArray.toList.loop bytes i read = read.reverse ++ bytes.data.toList.drop i := by
  fun_induction ByteArray.toList.loop bytes i read with
  | case1 i read hi ih =>
    have hlt : i < bytes.data.toList.length := hi
    have hget : bytes.get! i = bytes.data.toList[i] := getElem!_pos bytes.data i hi
    rw [ih, List.reverse_cons, List.append_assoc, hget, List.drop_eq_getElem_cons hlt]
    rfl
  | case2 i read hi =>
    have hle : bytes.data.toList.length ≤ i := Nat.le_of_not_lt hi
    rw [List.drop_eq_nil_of_le hle, List.append_nil]

theorem toList_byteArray_inj {a b : ByteArray} (h : a.toList = b.toList) : a = b := by
  have hdata : ∀ bytes : ByteArray, bytes.toList = bytes.data.toList :=
    fun bytes => toList_loop_eq bytes 0 []
  rw [hdata, hdata] at h
  exact ByteArray.ext (Array.toList_inj.1 h)

/-- Numbers are told by their digits. -/
theorem Decimal.natText_inj {a b : Nat} (h : natText a = natText b) : a = b := by
  have hends : EndsNumber [] := nofun
  have hdigits : natDigits a = natDigits b := String.ofList_injective h
  exact (natDigits_append_inj hends hends (congrArg (· ++ []) hdigits)).1

/-! ## Rules and their descriptors

A rule keeps all of its descriptor but the conditions, which are evaluated. -/

/-- The quota of a rule in force is written in its descriptor. -/
theorem action_of_mem_rulesIn {r : Rule} (h : r ∈ rulesIn id spec m n) :
    r.descriptor.action = some r.action ∧ r.action.quota = Decimal.natText r.quota.toNat := by
  obtain ⟨x, hx, hr⟩ := List.mem_filterMap.1 h
  obtain ⟨action, haction, rfl⟩ := Option.map_eq_some_iff.1 hr
  refine ⟨haction, ?_⟩
  obtain ⟨d, -, hd⟩ := List.mem_filterMap.1 hx
  obtain ⟨written, -, hwritten, -, hdescriptor⟩ := Descriptor.resolve?_eq_some_iff.1 hd
  rw [hdescriptor, Descriptor.withQuota, hwritten] at haction
  obtain rfl := Option.some.inj haction
  rfl

/-- **A rule in force is determined by its descriptor.** -/
theorem Rule.eq_of_descriptor_eq {r r' : Rule} {n' : String} (h : r ∈ rulesIn id spec m n)
    (h' : r' ∈ rulesIn id spec m n') (heq : r.descriptor = r'.descriptor) : r = r' := by
  obtain ⟨haction, hquota⟩ := action_of_mem_rulesIn h
  obtain ⟨haction', hquota'⟩ := action_of_mem_rulesIn h'
  have hact : r.action = r'.action := by
    rw [heq, haction'] at haction
    exact (Option.some.inj haction).symm
  have hnum : r.quota = r'.quota := by
    rw [hact, hquota'] at hquota
    exact UInt64.toNat_inj.1 (Decimal.natText_inj hquota.symm)
  have hvalue : r.value = r'.value := by rw [value_of_mem_rulesIn h, value_of_mem_rulesIn h', heq]
  have hvhost : r.vhost = r'.vhost := by rw [vhost_of_mem_rulesIn h, vhost_of_mem_rulesIn h', heq]
  cases r
  cases r'
  simp_all

/-! ## Values

The value has the checksum in it, so equal values have equal checksums. Without collisions they are
of equal messages. -/

/-- Of the given messages no two have the same checksum. -/
def Digest.CollisionFree (messages : List (List UInt8)) : Prop :=
  ∀ a ∈ messages, ∀ b ∈ messages, checksum a = checksum b → a = b

/-- What the checksum of a descriptor is taken of. -/
def checksumMessage (id : ResourceId) (d : Descriptor) : List UInt8 :=
  (checksumInput id d).toUTF8.toList

/-- The last part of a value is the checksum. -/
theorem checksum_eq_of_descriptorValue_eq {d e : Descriptor}
    (h : descriptorValue id d = descriptorValue id e) :
    Digest.checksum (checksumMessage id d) = Digest.checksum (checksumMessage id e) := by
  simp only [descriptorValue, String.append_left_inj, String.append_right_inj] at h
  exact UInt64.toNat_inj.1 (Decimal.natText_inj h)

/-- A message begins with the descriptor, whose text is not the beginning of another one's. -/
theorem checksumMessage_inj {d e : Descriptor} (h : checksumMessage id d = checksumMessage id e) :
    d = e := by
  have htext : checksumInput id d = checksumInput id e :=
    String.toByteArray_inj.1 (toList_byteArray_inj h)
  exact Descriptor.compact_toJson_inj ((String.append_left_inj id.path).1 htext)

/-- **Without collisions a value tells the descriptor.** -/
theorem descriptorValue_eq_iff {d e : Descriptor} {messages : List (List UInt8)}
    (hdigest : Digest.CollisionFree messages) (hd : checksumMessage id d ∈ messages)
    (he : checksumMessage id e ∈ messages) :
    descriptorValue id d = descriptorValue id e ↔ d = e := by
  refine ⟨fun h => ?_, congrArg (descriptorValue id)⟩
  exact checksumMessage_inj (hdigest _ hd _ he (checksum_eq_of_descriptorValue_eq h))

/-- An entry has the key and the value of its rule. -/
theorem Rule.value_of_sharedEntry? {r : Rule} {x : GlobalDescriptor} (h : r.sharedEntry? = some x) :
    x.key = r.entryKey ∧ x.value = r.value := by
  obtain ⟨-, unit, -, rfl⟩ := sharedEntry?_eq_some_iff.1 h
  exact ⟨rfl, rfl⟩

/-- The key and value that a descriptor is counted by. -/
def sharedKeyValue (id : ResourceId) (d : Descriptor) : String × String :=
  (if d.matchers.isEmpty then genericKey else headerMatchKey, descriptorValue id d)

/-- Both depend on the descriptor alone. -/
theorem key_value_of_mem_sharingRules (hp : p ∈ sharingRules id spec m subsets) :
    (p.rule.entryKey, p.rule.value) = sharedKeyValue id p.rule.descriptor := by
  obtain ⟨⟨s, -, hps⟩, -⟩ := mem_sharingRules_iff.1 hp
  rw [value_of_mem_rulesIn (rule_mem_rulesIn hps)]
  rfl

/-- The keys and values of the shared entries are those of the descriptors that share. -/
theorem map_key_value_shared (id : ResourceId) (spec : LimiterSpec) (m : Material)
    (subsets : List Subset) (selector : Labels) (config : CompileConfig) :
    (compile id spec m subsets selector config).shared.map (fun e => (e.key, e.value))
      = ((sharingRules id spec m subsets).map (·.rule.descriptor)).map (sharedKeyValue id) := by
  have hentries : ∀ (ps : List PlacedRule) (es : List GlobalDescriptor),
      List.Forall₂ (fun p e => p.rule.sharedEntry? = some e) ps es →
      es.map (fun e => (e.key, e.value)) = ps.map fun p => (p.rule.entryKey, p.rule.value) := by
    intro ps es h
    induction h with
    | nil => rfl
    | cons he _ ih =>
      obtain ⟨hkey, hvalue⟩ := Rule.value_of_sharedEntry? he
      rw [List.map_cons, List.map_cons, ih, hkey, hvalue]
  rw [hentries _ _ (forall₂_sharingRules id spec m subsets selector config), List.map_map]
  exact List.map_congr_left fun p hp => key_value_of_mem_sharingRules hp

/-- **The shared entries of a limiter have the same value exactly if they are for the same
descriptor**, if the checksums of its descriptors do not collide. They come from the sharing rules
one for one, each at a place of its own; two with the same value are the same entry; and the
registry is brought a key with a value twice only by rules with the same descriptor. -/
theorem shared_values_tell_descriptors (id : ResourceId) (spec : LimiterSpec) (m : Material)
    (subsets : List Subset) (selector : Labels) (config : CompileConfig)
    (hdigest : Digest.CollisionFree
      ((sharingRules id spec m subsets).map fun p => checksumMessage id p.rule.descriptor)) :
    ((sharingRules id spec m subsets).map PlacedRule.place).Nodup ∧
    List.Forall₂ (fun p e => p.rule.sharedEntry? = some e) (sharingRules id spec m subsets)
      (compile id spec m subsets selector config).shared ∧
    (∀ p ∈ sharingRules id spec m subsets, ∀ q ∈ sharingRules id spec m subsets, ∀ x y,
      p.rule.sharedEntry? = some x → q.rule.sharedEntry? = some y →
      (x.value = y.value ↔ p.rule.descriptor = q.rule.descriptor) ∧ (x.value = y.value → x = y)) ∧
    (((compile id spec m subsets selector config).shared.map fun e => (e.key, e.value)).Nodup ↔
      ((sharingRules id spec m subsets).map (·.rule.descriptor)).Nodup) := by
  have hmessage : ∀ p ∈ sharingRules id spec m subsets, checksumMessage id p.rule.descriptor
      ∈ (sharingRules id spec m subsets).map fun p => checksumMessage id p.rule.descriptor :=
    fun p hp => List.mem_map_of_mem hp
  refine ⟨nodup_place_sharingRules id spec m subsets,
    forall₂_sharingRules id spec m subsets selector config, ?_, ?_⟩
  · intro p hp q hq x y hx hy
    obtain ⟨⟨s, -, hps⟩, -⟩ := mem_sharingRules_iff.1 hp
    obtain ⟨⟨t, -, hqt⟩, -⟩ := mem_sharingRules_iff.1 hq
    have htell : x.value = y.value ↔ p.rule.descriptor = q.rule.descriptor := by
      rw [(Rule.value_of_sharedEntry? hx).2, (Rule.value_of_sharedEntry? hy).2,
        value_of_mem_rulesIn (rule_mem_rulesIn hps), value_of_mem_rulesIn (rule_mem_rulesIn hqt)]
      exact descriptorValue_eq_iff hdigest (hmessage p hp) (hmessage q hq)
    refine ⟨htell, fun h => ?_⟩
    rw [Rule.eq_of_descriptor_eq (rule_mem_rulesIn hps) (rule_mem_rulesIn hqt)
      (htell.1 h), hy] at hx
    exact (Option.some.inj hx).symm
  · rw [map_key_value_shared]
    -- keys and values are made from the descriptors, injectively for want of collisions
    refine ⟨.of_map _, fun h => h.map_on ?_⟩
    intro d hd e he heq
    obtain ⟨p, hp, rfl⟩ := List.mem_map.1 hd
    obtain ⟨q, hq, rfl⟩ := List.mem_map.1 he
    exact (descriptorValue_eq_iff hdigest (hmessage p hp) (hmessage q hq)).1 (Prod.mk.inj heq).2

/-- A shared descriptor. -/
def commonDescriptor : Descriptor :=
  { action := some { quota := "7", fillInterval := { seconds := 60 }, strategy := .shared } }

/-- Another with a lower quota. -/
def strictDescriptor : Descriptor :=
  { action := some { quota := "1", fillInterval := { seconds := 60 }, strategy := .shared } }

/-- Two subsets with a descriptor in common. -/
def commonSpec : LimiterSpec :=
  { sets := ((∅ : Std.ExtTreeMap String (List Descriptor)).insert "v1"
        [{ action := some { quota := "5", fillInterval := { seconds := 1 } } },
          commonDescriptor]).insert "v2"
        [strictDescriptor, commonDescriptor] }

/-- The rules of both subsets that share. -/
def commonRules : List PlacedRule :=
  sharingRules reviewsId commonSpec {} [{ name := "v1" }, { name := "v2" }]

/-- The second subset has the first descriptor again. -/
theorem map_descriptor_commonRules :
    commonRules.map (·.rule.descriptor)
      = [commonDescriptor, strictDescriptor, commonDescriptor] := by
  decide +kernel

/-- The checksum of the one. -/
theorem checksum_commonDescriptor :
    Digest.checksum (checksumMessage reviewsId commonDescriptor) = 9426605446700680600 := by
    decide +kernel

/-- The checksum of the other. -/
theorem checksum_strictDescriptor :
    Digest.checksum (checksumMessage reviewsId strictDescriptor) = 7167835462891665849 := by
    decide +kernel

/-- The two do not collide. -/
theorem collisionFree_commonRules :
    Digest.CollisionFree (commonRules.map fun p =>
      checksumMessage reviewsId p.rule.descriptor) := by
  have hmessages : commonRules.map (fun p => checksumMessage reviewsId p.rule.descriptor)
      = (commonRules.map (·.rule.descriptor)).map (checksumMessage reviewsId) := by
    rw [List.map_map]
    rfl
  have hapart : Digest.checksum (checksumMessage reviewsId commonDescriptor)
      ≠ Digest.checksum (checksumMessage reviewsId strictDescriptor) := by
    rw [checksum_commonDescriptor, checksum_strictDescriptor]
    decide
  rw [hmessages, map_descriptor_commonRules, List.map_cons, List.map_cons, List.map_cons,
    List.map_nil]
  -- the messages are made opaque before the cases are tried, so that none is digested again
  generalize checksumMessage reviewsId commonDescriptor = common at *
  generalize checksumMessage reviewsId strictDescriptor = strict at *
  intro a ha b hb heq
  grind

/-- Three of the rules share. Two of them have different values, and two the same. -/
theorem shared_values_tell_descriptors_common :
    commonRules.map PlacedRule.place = [("v1", 1), ("v2", 0), ("v2", 1)] ∧
    (∃ p ∈ commonRules, ∃ q ∈ commonRules, ∃ x y,
      p.rule.sharedEntry? = some x ∧ q.rule.sharedEntry? = some y ∧ x.value ≠ y.value) ∧
    ¬ ((compile reviewsId commonSpec {} [{ name := "v1" }, { name := "v2" }] ∅ {}).shared.map
      fun e => (e.key, e.value)).Nodup := by
  obtain ⟨-, -, htell, hnodup⟩ := shared_values_tell_descriptors reviewsId commonSpec {}
    [{ name := "v1" }, { name := "v2" }] ∅ {} collisionFree_commonRules
  refine ⟨by decide +kernel, ?_, ?_⟩
  · have hdiffer : ∃ p ∈ commonRules, ∃ q ∈ commonRules, p.rule.descriptor ≠ q.rule.descriptor := by
      decide +kernel
    obtain ⟨p, hp, q, hq, hne⟩ := hdiffer
    obtain ⟨x, hx⟩ := Option.isSome_iff_exists.1 (mem_sharingRules_iff.1 hp).2
    obtain ⟨y, hy⟩ := Option.isSome_iff_exists.1 (mem_sharingRules_iff.1 hq).2
    exact ⟨p, hp, q, hq, x, y, hx, hy, fun h => hne ((htell p hp q hq x y hx hy).1.1 h)⟩
  · rw [hnodup, ← commonRules, map_descriptor_commonRules]
    simp

/-- **A descriptor that two subsets have in common brings its entry twice**, from rules at different
places, though no checksums collide. -/
theorem shared_values_repeated :
    Digest.CollisionFree (commonRules.map fun p => checksumMessage reviewsId p.rule.descriptor) ∧
    (∃ p ∈ commonRules, ∃ q ∈ commonRules, p.place ≠ q.place ∧ ∃ x y,
      p.rule.sharedEntry? = some x ∧ q.rule.sharedEntry? = some y ∧ x.value = y.value) ∧
    ¬ ((compile reviewsId commonSpec {} [{ name := "v1" }, { name := "v2" }] ∅ {}).shared.map
      fun e => (e.key, e.value)).Nodup := by
  refine ⟨collisionFree_commonRules, ?_, fun h => ?_⟩
  · have hsame : ∃ p ∈ commonRules, ∃ q ∈ commonRules,
        p.place ≠ q.place ∧ p.rule.descriptor = q.rule.descriptor := by decide +kernel
    obtain ⟨p, hp, q, hq, hplace, hdescriptor⟩ := hsame
    obtain ⟨⟨s, -, hps⟩, hsome⟩ := mem_sharingRules_iff.1 hp
    obtain ⟨⟨t, -, hqt⟩, -⟩ := mem_sharingRules_iff.1 hq
    have hrule := Rule.eq_of_descriptor_eq (rule_mem_rulesIn hps) (rule_mem_rulesIn hqt) hdescriptor
    obtain ⟨x, hx⟩ := Option.isSome_iff_exists.1 hsome
    exact ⟨p, hp, q, hq, hplace, x, x, hx, hrule ▸ hx, rfl⟩
  · rw [map_key_value_shared, ← commonRules, map_descriptor_commonRules] at h
    exact absurd h.of_map (by simp)

end MeshLimiter
