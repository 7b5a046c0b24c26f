import Mathlib.Data.List.Induction
import MeshLimiter.Proofs.Registry.Marker
/-!
# Runs of merges

Services merge their entries into the registry one after another, in any order and any number of
times. What is left in the end:

* **`filter_belongsTo_merged_self`**, **`filter_belongsTo_merged_of_ne`**: what one merge does to
  the entries of the service that merges, and to the generated entries of another one;
* **`mergedAll_entries`**: after a run of merges each service has the entries of its last merge, and
  the entries that belong to none of the services are those from before.
-/

namespace MeshLimiter.Registry

/-- What one merge brings: all entries that a service is to have. -/
structure Replacement where
  service : ResourceId
  descriptors : List GlobalDescriptor
deriving DecidableEq, Repr

/-- A merge as the controller makes it: the service has names that the cluster allows, and all
entries were generated for it. -/
structure Replacement.WellFormed (m : Replacement) : Prop where
  service : m.service.WellNamed
  descriptors : ∀ d ∈ m.descriptors, d.GeneratedFor m.service

/-- A run of merges. -/
def mergedAll (domain : String) (r : Registry) (ms : List Replacement) : Registry :=
  ms.foldl (fun r m => r.merged domain m.service m.descriptors) r

@[simp] theorem mergedAll_snoc (domain : String) (r : Registry) (ms : List Replacement)
    (m : Replacement) : mergedAll domain r (ms ++ [m])
      = (mergedAll domain r ms).merged domain m.service m.descriptors := by
  simp [mergedAll]

/-! ## One merge

What a merge does not look at it does not touch: if the entries that one selects are neither among
the entries of the merged service nor among the new ones, then the selection is the same before and
after. -/

/-- The entries selected by `p` are left alone if the merge neither takes one out nor puts one
in. -/
theorem filter_merged_of_disjoint (domain : String) (r : Registry) (m : Replacement)
    {p : GlobalDescriptor → Bool}
    (hold : ∀ d ∈ r.descriptors, p d = true → d.belongsTo m.service = false)
    (hnew : ∀ d ∈ m.descriptors, p d = false) :
    (r.merged domain m.service m.descriptors).descriptors.filter p = r.descriptors.filter p := by
  -- what `p` picks is neither removed with the old entries nor among the new
  have hkept : (r.descriptors.filter (fun d => !d.belongsTo m.service)).filter p
      = r.descriptors.filter p := by
    rw [List.filter_filter]
    refine List.filter_congr fun d hd => ?_
    cases hp : p d with
    | false => rfl
    | true => simp [hold d hd hp]
  have hput : m.descriptors.filter p = [] := by
    rw [List.filter_eq_nil_iff]
    intro d hd
    simp [hnew d hd]
  rw [merged, List.filter_append, hkept, hput, List.append_nil]

theorem filter_belongsTo_merged_self {m : Replacement} (hm : m.WellFormed) (domain : String)
    (r : Registry) : (r.merged domain m.service m.descriptors).descriptors.filter
      (·.belongsTo m.service) = m.descriptors := by
  have hold : (r.descriptors.filter (fun d => !d.belongsTo m.service)).filter
      (·.belongsTo m.service) = [] := by
    simp [List.filter_filter]
  have hnew : m.descriptors.filter (·.belongsTo m.service) = m.descriptors := by
    rw [List.filter_eq_self]
    exact fun d hd => (hm.descriptors d hd).belongsTo
  rw [merged, List.filter_append, hold, hnew, List.nil_append]

theorem belongsTo_eq_false_of_generatedFor {d : GlobalDescriptor} {s t : ResourceId}
    (hs : s.WellNamed) (ht : t.WellNamed) (hne : s ≠ t) (hd : d.GeneratedFor t) :
    d.belongsTo s = false := by
  rw [← Bool.not_eq_true, belongsTo_iff_of_generatedFor hs ht hd]
  exact hne

/-- Generated entries of another service stay as they are, whichever of them one looks at. -/
theorem filter_generated_merged {m : Replacement} (hm : m.WellFormed) (domain : String)
    (r : Registry)
    {t : ResourceId} (ht : t.WellNamed) (hne : m.service ≠ t) {p : GlobalDescriptor → Bool}
    (hp : ∀ d, p d = true → d.GeneratedFor t) :
    (r.merged domain m.service m.descriptors).descriptors.filter p = r.descriptors.filter p := by
  have hfree : ∀ d, p d = true → d.belongsTo m.service = false := fun d hd =>
    belongsTo_eq_false_of_generatedFor hm.service ht hne (hp d hd)
  refine filter_merged_of_disjoint domain r m (fun d _ => hfree d) fun d hd => ?_
  cases hpd : p d with
  | false => rfl
  | true =>
    have hown := (hm.descriptors d hd).belongsTo
    rw [hfree d hpd] at hown
    exact absurd hown (by decide)

/-- Another service whose entries are generated ones has the same entries after a merge. -/
theorem filter_belongsTo_merged_of_ne {m : Replacement} (hm : m.WellFormed) (domain : String)
    (r : Registry) {t : ResourceId} (ht : t.WellNamed) (hne : m.service ≠ t)
    (hr : ∀ d ∈ r.descriptors, d.belongsTo t = true → d.GeneratedFor t) :
    (r.merged domain m.service m.descriptors).descriptors.filter (·.belongsTo t)
      = r.descriptors.filter (·.belongsTo t) :=
  filter_merged_of_disjoint domain r m
    (fun d hd hb => belongsTo_eq_false_of_generatedFor hm.service ht hne (hr d hd hb))
    (fun d hd => belongsTo_eq_false_of_generatedFor ht hm.service hne.symm (hm.descriptors d hd))

/-- Entries that do not carry the marker of the merged service stay, in their order. -/
theorem filter_merged_of_not_belongsTo {m : Replacement} (hm : m.WellFormed) (domain : String)
    (r : Registry) {p : GlobalDescriptor → Bool}
    (hp : ∀ d, p d = true → d.belongsTo m.service = false) :
    (r.merged domain m.service m.descriptors).descriptors.filter p = r.descriptors.filter p := by
  refine filter_merged_of_disjoint domain r m (fun d _ => hp d) fun d hd => ?_
  cases hpd : p d with
  | false => rfl
  | true =>
    have hown := (hm.descriptors d hd).belongsTo
    rw [hp d hpd] at hown
    exact absurd hown (by decide)

/-! ## Runs

Of each service the last merge decides, and entries of no service stay where they are. -/

/-- After a run, a service has the entries of its last merge. The merges behind that one are all for
other services, and leave generated entries alone. -/
theorem filter_belongsTo_mergedAll (domain : String) (r : Registry) (before : List Replacement)
    {m : Replacement} (hm : m.WellFormed) {after : List Replacement}
    (hafter : ∀ n ∈ after, n.WellFormed) (hlast : ∀ n ∈ after, n.service ≠ m.service) :
    (mergedAll domain r (before ++ m :: after)).descriptors.filter (·.belongsTo m.service)
      = m.descriptors := by
  induction after using List.reverseRecOn with
  | nil =>
    rw [mergedAll_snoc]
    exact filter_belongsTo_merged_self hm domain _
  | append_singleton after n ih =>
    have ih := ih (fun k hk => hafter k (by simp [hk])) (fun k hk => hlast k (by simp [hk]))
    -- what the service has by now are the entries of its last merge, so they are generated ones
    have hgen : ∀ d ∈ (mergedAll domain r (before ++ m :: after)).descriptors,
        d.belongsTo m.service = true → d.GeneratedFor m.service := by
      intro d hd hb
      refine hm.descriptors d ?_
      rw [← ih]
      exact List.mem_filter.2 ⟨hd, hb⟩
    rw [← List.cons_append, ← List.append_assoc, mergedAll_snoc,
      filter_belongsTo_merged_of_ne (hafter n (by simp)) domain _ hm.service
        (hlast n (by simp)) hgen]
    exact ih

/-- After a run, the entries that carry the marker of no merged service are those from before. -/
theorem filter_foreign_mergedAll (domain : String) (r : Registry) {ms : List Replacement}
    (hms : ∀ m ∈ ms, m.WellFormed) {p : GlobalDescriptor → Bool}
    (hp : ∀ d, p d = true → ∀ m ∈ ms, d.belongsTo m.service = false) :
    (mergedAll domain r ms).descriptors.filter p = r.descriptors.filter p := by
  induction ms using List.reverseRecOn with
  | nil => rfl
  | append_singleton ms n ih =>
    rw [mergedAll_snoc, filter_merged_of_not_belongsTo (hms n (by simp)) domain _
      (fun d hd => hp d hd n (by simp))]
    exact ih (fun m h => hms m (by simp [h])) (fun d hd m h => hp d hd m (by simp [h]))

/-- **Merges replace, and only replace.** Let any services merge generated entries into any
registry, in any order. In the end, each of them has exactly the entries of its last merge, as they
came, and the entries that carry the marker of none of them are the former ones, in their order. No
merge on the way takes out or changes a generated entry of another service. -/
theorem mergedAll_entries (domain : String) (r : Registry) (ms : List Replacement)
    (hms : ∀ m ∈ ms, m.WellFormed) :
    (∀ before m after, ms = before ++ m :: after → (∀ n ∈ after, n.service ≠ m.service) →
      (mergedAll domain r ms).descriptors.filter (·.belongsTo m.service) = m.descriptors) ∧
    (mergedAll domain r ms).descriptors.filter (fun d => ms.all (!d.belongsTo ·.service))
      = r.descriptors.filter (fun d => ms.all (!d.belongsTo ·.service)) ∧
    (∀ before m after, ms = before ++ m :: after → ∀ t : ResourceId, t.WellNamed → m.service ≠ t →
      ∀ p : GlobalDescriptor → Bool, (∀ d, p d = true → d.GeneratedFor t) →
        (mergedAll domain r (before ++ [m])).descriptors.filter p
          = (mergedAll domain r before).descriptors.filter p) := by
  refine ⟨?_, ?_, ?_⟩
  · rintro before m after rfl hlast
    -- the service's last merge put its entries, and the later ones spare them
    exact filter_belongsTo_mergedAll domain r before (hms m (by simp))
      (fun n hn => hms n (by simp [hn])) hlast
  · refine filter_foreign_mergedAll domain r hms fun d hd m hm => ?_
    have hd := List.all_eq_true.1 hd m hm
    simpa using hd
  · rintro before m after rfl t ht hne p hp
    rw [mergedAll_snoc]
    exact filter_generated_merged (hms m (by simp)) domain _ ht hne hp

/-- Entries for some rules of a service, told apart by their conditions. -/
def Replacement.ofConditions (service : ResourceId) (conditions : List String) : Replacement :=
  { service
    descriptors := conditions.map fun condition =>
      { key := genericKey
        value := descriptorValue service { condition }
        rateLimit := { requestsPerUnit := 5, unit := .minute } } }

theorem Replacement.wellFormed_ofConditions {service : ResourceId} (h : service.WellNamed)
    (conditions : List String) : (ofConditions service conditions).WellFormed := by
  refine ⟨h, fun d hd => ?_⟩
  obtain ⟨condition, -, rfl⟩ := List.mem_map.1 hd
  exact ⟨_, rfl⟩

/-- Three services, two of which have a name or a namespace that begins with that of the first. The
first one merges again in the end. -/
def prefixRun : List Replacement :=
  [.ofConditions { ns := "shop", name := "reviews" } ["a", "b"],
   .ofConditions { ns := "shop", name := "reviews-v2" } ["a"],
   .ofConditions { ns := "shopping", name := "reviews" } ["a", "a"],
   .ofConditions { ns := "shop", name := "reviews" } ["c"]]

theorem mergedAll_entries_prefixRun :
    (mergedAll "mesh" { domain := "" } prefixRun).descriptors.filter
        (·.belongsTo { ns := "shop", name := "reviews" })
      = (Replacement.ofConditions { ns := "shop", name := "reviews" } ["c"]).descriptors ∧
    (mergedAll "mesh" { domain := "" } prefixRun).descriptors.filter
        (·.belongsTo { ns := "shopping", name := "reviews" })
      = (Replacement.ofConditions { ns := "shopping", name := "reviews" }
        ["a", "a"]).descriptors := by
  have hwf : ∀ m ∈ prefixRun, m.WellFormed := by
    intro m hm
    simp only [prefixRun, List.mem_cons, List.not_mem_nil, or_false] at hm
    rcases hm with rfl | rfl | rfl | rfl <;>
      exact Replacement.wellFormed_ofConditions
        ⟨by decide, by decide, by decide, by decide, by decide⟩ _
  have h := (mergedAll_entries "mesh" { domain := "" } prefixRun hwf).1
  refine ⟨?_, ?_⟩
  · exact h (prefixRun.take 3) (.ofConditions { ns := "shop", name := "reviews" } ["c"])
      [] rfl (by simp)
  · exact h (prefixRun.take 2) (.ofConditions { ns := "shopping", name := "reviews" } ["a", "a"])
      (prefixRun.drop 3) rfl (by simp [prefixRun, Replacement.ofConditions])

end MeshLimiter.Registry
