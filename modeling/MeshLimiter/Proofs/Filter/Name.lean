import MeshLimiter.Filter.Name
import MeshLimiter.Proofs.Text.Search
/-!
# Filters of different subsets

The filters of a service stand side by side in its namespace. Their names tell the subsets apart,
also when a subset is called like the base subset or has dots in its name. They tell the services of
a namespace apart as well, if these have no dot in their names: then the name of the service ends at
the first dot, and since the namespace is known, so is where the subset begins.

* **`filterPlace_injective`**: two subsets of one service never share a filter;
* **`filterName_inj`**, **`filterPlace_inj`**: neither do two services with dotless names.
-/

namespace MeshLimiter

/-- The place of the filter of a subset. -/
def filterPlace (id : ResourceId) (subset : String) : ResourceId :=
  { ns := id.ns, name := filterName id subset }

/-- The part of the name of a filter that tells the subset. -/
def subsetPart (subset : String) : String :=
  if subset = Subset.baseName then "" else "." ++ subset

theorem filterName_eq (id : ResourceId) (subset : String) :
    filterName id subset = id.name ++ "." ++ id.ns ++ subsetPart subset ++ ".ratelimit" := by
  unfold filterName subsetPart
  split
  · rw [String.append_empty]
  · simp [String.append_assoc]

/-- The base subset is the only one without a part of its own, and the others are told by theirs. -/
theorem subsetPart_injective {s t : String} (h : subsetPart s = subsetPart t) : s = t := by
  have hdot : ∀ u : String, "." ++ u ≠ "" := by
    intro u hu
    have hlen : ("." ++ u).length = 0 := by rw [hu]; rfl
    rw [String.length_append, show ".".length = 1 from rfl] at hlen
    omega
  unfold subsetPart at h
  split at h
  · next hs =>
    split at h
    · next ht => rw [hs, ht]
    · exact absurd h.symm (hdot t)
  · split at h
    · exact absurd h (hdot s)
    · exact (String.append_right_inj ".").1 h

/-- **Two subsets of a service have different filters.** -/
theorem filterPlace_injective {id : ResourceId} {s t : String}
    (h : filterPlace id s = filterPlace id t) : s = t := by
  have hname : filterName id s = filterName id t := congrArg ResourceId.name h
  rw [filterName_eq, filterName_eq, String.append_left_inj, String.append_right_inj] at hname
  exact subsetPart_injective hname

variable {id id' : ResourceId} {s t : String}

/-- **In one namespace, the name of a filter tells the service and the subset**, if the service has
no dot in its name. -/
theorem filterName_inj (hname : '.' ∉ id.name.toList) (hname' : '.' ∉ id'.name.toList)
    (hns : id.ns = id'.ns) : filterName id s = filterName id' t ↔ id = id' ∧ s = t := by
  constructor
  · intro h
    have hcut : id.name.toList ++ '.' :: (id.ns ++ subsetPart s ++ ".ratelimit").toList
        = id'.name.toList ++ '.' :: (id'.ns ++ subsetPart t ++ ".ratelimit").toList := by
      have htexts := congrArg String.toList h
      rw [filterName_eq, filterName_eq] at htexts
      simpa [String.toList_append] using htexts
    obtain ⟨hnames, hrest⟩ := Text.append_cons_inj_of_first hname hname' hcut
    -- the namespace is the same, so what follows it is the same
    rw [String.toList_inj, hns, String.append_left_inj, String.append_right_inj] at hrest
    obtain ⟨ns, name⟩ := id
    obtain ⟨ns', name'⟩ := id'
    obtain rfl : ns = ns' := hns
    obtain rfl : name = name' := String.toList_inj.1 hnames
    exact ⟨rfl, subsetPart_injective hrest⟩
  · rintro ⟨rfl, rfl⟩
    rfl

/-- A name with a dot may be taken for a name and a namespace. -/
example : filterName ⟨"web", "a"⟩ "web" = filterName ⟨"web", "a.web"⟩ Subset.baseName := by decide

/-- The filters of all services with dotless names stand apart. -/
theorem filterPlace_inj (hname : '.' ∉ id.name.toList) (hname' : '.' ∉ id'.name.toList) :
    filterPlace id s = filterPlace id' t ↔ id = id' ∧ s = t := by
  constructor
  · intro h
    obtain ⟨hns, hfilter⟩ := ResourceId.mk.inj h
    exact (filterName_inj hname hname' hns).1 hfilter
  · rintro ⟨rfl, rfl⟩
    rfl

end MeshLimiter
