import MeshLimiter.Proofs.Index.Notice
/-!
# Spellings of a host

A traffic rule may name the host of a service in four ways, each with any number of points behind
it. All of them are completed to the one host that the subsets of the service are asked for under. A
host that is in full stays as it is, so nothing is completed twice. Forms are told by the number of
their labels, and an empty label counts like any other.

* **`Host.Spells`**: the ways to name the host of a service;
* **`Host.normalize_spelling`**: they all come to that host;
* **`Host.normalize_normalize`**: completing a host again changes nothing;
* **`Host.normalize_eq_trimmed_iff`**: which hosts are completed at all.
-/

namespace MeshLimiter

namespace Host

/-- One label: not empty, and without a point. -/
def IsLabel (s : String) : Prop :=
  s ≠ "" ∧ '.' ∉ s.toList

instance (s : String) : Decidable (IsLabel s) :=
  inferInstanceAs (Decidable (_ ∧ _))

/-- The domain of a cluster has two labels or more, and does not end with a point. -/
structure IsDomain (domain : String) : Prop where
  labels : 2 ≤ labelCount domain.toList
  last : domain.toList.getLast? ≠ some '.'

/-- The ways in which a rule of namespace `m` may name the host of a service: by the name alone in
its own namespace, in the other forms in any. -/
inductive Spells (domain : String) (id : ResourceId) : (m host : String) → Prop where
  | name : Spells domain id id.ns id.name
  | qualified (m : String) : Spells domain id m (id.name ++ "." ++ id.ns)
  | service (m : String) : Spells domain id m (id.name ++ "." ++ id.ns ++ ".svc")
  | full (m : String) : Spells domain id m (id.name ++ "." ++ id.ns ++ ".svc." ++ domain)

/-- A host without the points behind it. -/
def trimmed (host : String) : String :=
  String.ofList (trimPoints host.toList)

/-- A host in a short form, which may be one of empty labels. -/
def IsShort (host : String) : Prop :=
  ∃ name ns : String, '.' ∉ name.toList ∧ '.' ∉ ns.toList ∧
    (trimmed host = name ∨ trimmed host = name ++ "." ++ ns ∨
      trimmed host = name ++ "." ++ ns ++ ".svc")

variable {domain host m : String} {id : ResourceId} {cs : List Char}

/-! ## Points at the end

They are taken off before anything else, so their number does not matter. -/

theorem trimPoints_eq_rdropWhile (cs : List Char) : trimPoints cs = cs.rdropWhile (· = '.') := rfl

/-- What stands before them is left. -/
theorem trimPoints_append {points : List Char} (hlast : cs.getLast? ≠ some '.')
    (h : ∀ c ∈ points, c = '.') : trimPoints (cs ++ points) = cs := by
  rw [trimPoints_eq_rdropWhile, Text.rdropWhile_append_of_pos fun c hc => decide_eq_true (h c hc)]
  exact Text.rdropWhile_eq_self fun c hc => decide_eq_false fun heq =>
    hlast (by rw [← heq]; exact hc)

/-- Without any nothing is taken off. -/
theorem trimPoints_eq_self (hlast : cs.getLast? ≠ some '.') : trimPoints cs = cs := by
  simpa using trimPoints_append hlast (List.forall_mem_nil _)

/-- There are none left. -/
theorem trimPoints_trimPoints (cs : List Char) : trimPoints (trimPoints cs) = trimPoints cs :=
  List.rdropWhile_idempotent _ _

/-! ## Counting labels

There is one label more than there are points. -/

/-- A point between two texts adds up their labels. -/
theorem labelCount_append_cons (xs ys : List Char) :
    labelCount (xs ++ '.' :: ys) = labelCount xs + labelCount ys := by
  simp [labelCount]
  omega

/-- One label is a text without a point. -/
theorem labelCount_eq_one_iff : labelCount cs = 1 ↔ '.' ∉ cs := by
  simp [labelCount, List.count_eq_zero]

/-- Two labels are two texts with a point between them. -/
theorem labelCount_eq_two_iff :
    labelCount cs = 2 ↔ ∃ name ns, '.' ∉ name ∧ '.' ∉ ns ∧ cs = name ++ '.' :: ns := by
  constructor
  · intro h
    have hmem : '.' ∈ cs := by
      by_contra hnot
      rw [labelCount_eq_one_iff.2 hnot] at h
      cases h
    obtain ⟨name, ns, rfl, hname⟩ := List.eq_append_cons_of_mem hmem
    rw [labelCount_append_cons, labelCount_eq_one_iff.2 hname] at h
    exact ⟨name, ns, hname, labelCount_eq_one_iff.1 (by omega), rfl⟩
  · rintro ⟨name, ns, hname, hns, rfl⟩
    rw [labelCount_append_cons, labelCount_eq_one_iff.2 hname, labelCount_eq_one_iff.2 hns]

/-- What ends as the hosts of the cluster do has more labels than any short form. -/
theorem IsDomain.three_lt_labelCount (hdomain : IsDomain domain) (h : clusterSuffix domain <:+ cs) :
    3 < labelCount cs := by
  obtain ⟨lead, rfl⟩ := h
  have hsplit : lead ++ clusterSuffix domain = lead
      ++ '.' :: ("svc".toList ++ '.' :: domain.toList) := rfl
  have hlead : 1 ≤ labelCount lead := Nat.le_add_left ..
  have hservice : labelCount "svc".toList = 1 := rfl
  rw [hsplit, labelCount_append_cons, labelCount_append_cons, hservice]
  have hlabels := hdomain.labels
  omega

/-- The domain ends with no point, and so does a host in it. -/
theorem IsDomain.getLast?_append (hdomain : IsDomain domain) (cs : List Char) :
    (cs ++ clusterSuffix domain).getLast? ≠ some '.' := by
  have hne : domain.toList ≠ [] := by
    intro hnil
    have hlabels := hdomain.labels
    rw [hnil] at hlabels
    exact absurd hlabels (by decide)
  rw [clusterSuffix, ← List.append_assoc, List.getLast?_append_of_ne_nil _ hne]
  exact hdomain.last

/-! ## Completing

By the number of labels: one is a name, two a name and a namespace, three with the third known a
service. All else stays. -/

/-- A host in the domain is in full. -/
theorem normalize_full (h : clusterSuffix domain <:+ trimPoints host.toList) :
    normalize host m domain = trimmed host := by
  unfold normalize
  dsimp only
  rw [if_pos (List.isSuffixOf_iff_suffix.2 h), trimmed]

/-- A name is completed by namespace and domain. -/
theorem normalize_name (hdomain : IsDomain domain) (h : '.' ∉ trimPoints host.toList) :
    normalize host m domain
      = String.ofList (trimPoints host.toList ++ '.' :: m.toList ++ clusterSuffix domain) := by
  have hcount := labelCount_eq_one_iff.2 h
  have hopen : ¬ clusterSuffix domain <:+ trimPoints host.toList := fun hs =>
    absurd (hdomain.three_lt_labelCount hs) (by omega)
  unfold normalize
  dsimp only
  rw [if_neg (by rwa [List.isSuffixOf_iff_suffix]), if_pos hcount]

/-- So is a name with its namespace, by the domain. -/
theorem normalize_qualified (hdomain : IsDomain domain)
    (h : labelCount (trimPoints host.toList) = 2) :
    normalize host m domain = String.ofList (trimPoints host.toList ++ clusterSuffix domain) := by
  have hopen : ¬ clusterSuffix domain <:+ trimPoints host.toList := fun hs =>
    absurd (hdomain.three_lt_labelCount hs) (by omega)
  unfold normalize
  dsimp only
  rw [if_neg (by rwa [List.isSuffixOf_iff_suffix]), if_neg (by omega), if_pos h]

/-- One that says that it is a service lacks only the domain. -/
theorem normalize_service (hdomain : IsDomain domain) {lead : List Char} (h : labelCount lead = 2)
    (hhost : trimPoints host.toList = lead ++ ".svc".toList) :
    normalize host m domain = String.ofList (lead ++ clusterSuffix domain) := by
  have hcount : labelCount (trimPoints host.toList) = 3 := by
    rw [hhost, show lead ++ ".svc".toList = lead ++ '.' :: "svc".toList from rfl,
      labelCount_append_cons, h]
    rfl
  -- three labels are fewer than any host within the domain has
  have hopen : ¬ clusterSuffix domain <:+ trimPoints host.toList := fun hs =>
    absurd (hdomain.three_lt_labelCount hs) (by omega)
  have hservice : (labelCount (trimPoints host.toList) = 3 &&
      ".svc".toList.isSuffixOf (trimPoints host.toList)) = true := by
    rw [Bool.and_eq_true, decide_eq_true_iff, List.isSuffixOf_iff_suffix, hhost]
    exact ⟨by rw [← hhost]; exact hcount, List.suffix_append _ _⟩
  unfold normalize
  dsimp only
  rw [if_neg (by rwa [List.isSuffixOf_iff_suffix]), if_neg (by omega), if_neg (by omega),
    if_pos hservice, hhost]
  simp [clusterSuffix]

/-- All other hosts stay. -/
theorem normalize_other (hfull : ¬ clusterSuffix domain <:+ trimPoints host.toList)
    (hlabels : 2 < labelCount (trimPoints host.toList))
    (hservice : labelCount (trimPoints host.toList) = 3 →
      ¬ ".svc".toList <:+ trimPoints host.toList) :
    normalize host m domain = trimmed host := by
  have hopen : ¬ (labelCount (trimPoints host.toList) = 3 &&
      ".svc".toList.isSuffixOf (trimPoints host.toList)) = true := by
    rw [Bool.and_eq_true, decide_eq_true_iff, List.isSuffixOf_iff_suffix]
    exact fun h => hservice h.1 h.2
  unfold normalize
  dsimp only
  rw [if_neg (by rwa [List.isSuffixOf_iff_suffix]), if_neg (by omega), if_neg (by omega),
    if_neg hopen, trimmed]

/-- The short forms, told by the number of labels. -/
theorem isShort_iff : IsShort host ↔ '.' ∉ trimPoints host.toList ∨
    labelCount (trimPoints host.toList) = 2 ∨
    ∃ lead, labelCount lead = 2 ∧ trimPoints host.toList = lead ++ ".svc".toList := by
  have hchars : ∀ s : String, trimmed host = s ↔ trimPoints host.toList = s.toList := fun s => by
    rw [trimmed, ← String.toList_inj, String.toList_ofList]
  simp only [IsShort, hchars, String.toList_append, labelCount_eq_two_iff]
  constructor
  · -- a spelling gives its characters, one case for each form
    rintro ⟨name, ns, hname, hns, h | h | h⟩
    · exact .inl (by rwa [h])
    · exact .inr (.inl ⟨_, _, hname, hns, by simpa using h⟩)
    · exact .inr (.inr ⟨_, ⟨_, _, hname, hns, rfl⟩, by simpa using h⟩)
  · -- the characters, cut at the points, give a spelling back
    rintro (h | ⟨name, ns, hname, hns, h⟩ | ⟨lead, ⟨name, ns, hname, hns, rfl⟩, h⟩)
    · exact ⟨trimmed host, "", by rwa [trimmed, String.toList_ofList], by simp,
        .inl (by simp [trimmed])⟩
    · exact ⟨.ofList name, .ofList ns, by simpa using hname, by simpa using hns,
        .inr (.inl (by simpa using h))⟩
    · exact ⟨.ofList name, .ofList ns, by simpa using hname, by simpa using hns,
        .inr (.inr (by simpa using h))⟩

/-- A short form has three labels at most. -/
theorem labelCount_of_isShort (h : IsShort host) : labelCount (trimPoints host.toList) ≤ 3 := by
  rcases isShort_iff.1 h with h | h | ⟨lead, hlead, h⟩
  · rw [labelCount_eq_one_iff.2 h]
    decide
  · omega
  · rw [h, show lead ++ ".svc".toList = lead ++ '.' :: "svc".toList from rfl,
      labelCount_append_cons, hlead]
    decide

/-- **A host in a short form is completed to one of the cluster; any other stays as it is**, but for
the points behind it. -/
theorem normalize_cases (hdomain : IsDomain domain) (host m : String) :
    (IsShort host ∧ ∃ lead, normalize host m domain = String.ofList
      (lead ++ clusterSuffix domain)) ∨
      ¬ IsShort host ∧ normalize host m domain = trimmed host := by
  by_cases hshort : IsShort host
  · refine .inl ⟨hshort, ?_⟩
    rcases isShort_iff.1 hshort with h | h | ⟨lead, hlead, h⟩
    · exact ⟨_, normalize_name hdomain h⟩
    · exact ⟨_, normalize_qualified hdomain h⟩
    · exact ⟨_, normalize_service hdomain hlead h⟩
  · refine .inr ⟨hshort, ?_⟩
    have hforms := mt isShort_iff.2 hshort
    rw [not_or, not_or] at hforms
    obtain ⟨hname, hqualified, hservice⟩ := hforms
    by_cases hfull : clusterSuffix domain <:+ trimPoints host.toList
    · exact normalize_full hfull
    · refine normalize_other hfull ?_ fun hcount hsuffix => hservice ?_
      · have hone := mt labelCount_eq_one_iff.1 hname
        have hpos : 1 ≤ labelCount (trimPoints host.toList) := Nat.le_add_left ..
        omega
      · -- what is left in front of the last of three labels are two
        obtain ⟨lead, hlead⟩ := hsuffix
        refine ⟨lead, ?_, hlead.symm⟩
        rw [← hlead, show lead ++ ".svc".toList = lead ++ '.' :: "svc".toList from rfl,
          labelCount_append_cons] at hcount
        exact Nat.add_right_cancel hcount

/-- **Completing a host again changes nothing.** -/
theorem normalize_normalize (hdomain : IsDomain domain) (host m : String) :
    normalize (normalize host m domain) m domain = normalize host m domain := by
  rcases normalize_cases hdomain host m with ⟨-, lead, hcompleted⟩ | ⟨-, hkept⟩
  · rw [hcompleted]
    have hends : trimPoints (String.ofList (lead ++ clusterSuffix domain)).toList
        = lead ++ clusterSuffix domain := by
      rw [String.toList_ofList]
      exact trimPoints_eq_self (hdomain.getLast?_append lead)
    rw [normalize_full (by rw [hends]; exact List.suffix_append _ _), trimmed, hends]
  · have hsame : normalize (trimmed host) m domain = normalize host m domain := by
      unfold normalize
      rw [trimmed, String.toList_ofList, trimPoints_trimPoints]
    rw [hkept, hsame, hkept]

theorem normalize_eq_trimmed_iff (hdomain : IsDomain domain) (host m : String) :
    normalize host m domain = trimmed host ↔ ¬ IsShort host := by
  rcases normalize_cases hdomain host m with ⟨hshort, lead, hcompleted⟩ | ⟨hshort, hkept⟩
  · refine iff_of_false (fun hsame => ?_) (not_not_intro hshort)
    -- the completed host has too many labels
    have hchars := congrArg String.toList (hcompleted.symm.trans hsame)
    rw [trimmed, String.toList_ofList, String.toList_ofList] at hchars
    have hmany := hdomain.three_lt_labelCount (List.suffix_append lead _)
    rw [hchars] at hmany
    exact absurd (labelCount_of_isShort hshort) (by omega)
  · exact iff_of_true hkept hshort

/-! ## Spellings

None of the four ways to name a host ends with a point, so points behind it can be told apart from
it. -/

/-- A label ends with a character that is no point. -/
theorem IsLabel.getLast? {s : String} (h : IsLabel s) :
    ∃ c, s.toList.getLast? = some c ∧ c ≠ '.' := by
  have hne : s.toList ≠ [] := fun hnil => h.1 (by rw [← String.toList_inj, hnil]; rfl)
  refine ⟨_, List.getLast?_eq_some_getLast hne, fun hdot => h.2 ?_⟩
  rw [← hdot]
  exact List.getLast_mem hne

/-- No spelling ends with a point. -/
theorem Spells.getLast? (hdomain : IsDomain domain) (hname : IsLabel id.name) (hns : IsLabel id.ns)
    (h : Spells domain id m host) : host.toList.getLast? ≠ some '.' := by
  cases h with
  | name =>
    obtain ⟨c, hlast, hc⟩ := hname.getLast?
    rw [hlast]
    exact fun heq => hc (Option.some.inj heq)
  | qualified =>
    obtain ⟨c, hlast, hc⟩ := hns.getLast?
    rw [String.toList_append, List.getLast?_append, hlast]
    exact fun heq => hc (Option.some.inj heq)
  | service =>
    rw [String.toList_append, List.getLast?_append_of_ne_nil _ (by decide)]
    decide
  | full =>
    have hends : (id.name ++ "." ++ id.ns ++ ".svc." ++ domain).toList
        = (id.name ++ "." ++ id.ns).toList ++ clusterSuffix domain := by
      simp [clusterSuffix]
    rw [hends]
    exact hdomain.getLast?_append _

/-- **However the host of a service is spelled, it is completed to the one that is asked for.** -/
theorem normalize_spelling (hdomain : IsDomain domain) (hname : IsLabel id.name)
    (hns : IsLabel id.ns)
    (h : Spells domain id m host) {points : String} (hpoints : ∀ c ∈ points.toList, c = '.') :
    normalize (host ++ points) m domain = id.serviceHost domain := by
  have htrim : trimPoints (host ++ points).toList = host.toList := by
    rw [String.toList_append]
    exact trimPoints_append (h.getLast? hdomain hname hns) hpoints
  -- a name and a namespace have two labels
  have htwo : labelCount (id.name.toList ++ '.' :: id.ns.toList) = 2 :=
    labelCount_eq_two_iff.2 ⟨_, _, hname.2, hns.2, rfl⟩
  cases h with
  | name =>
    rw [normalize_name hdomain (by rw [htrim]; exact hname.2), htrim, ← String.toList_inj]
    simp [ResourceId.serviceHost, clusterSuffix]
  | qualified =>
    rw [normalize_qualified hdomain (by rw [htrim]; simpa using htwo), htrim, ← String.toList_inj]
    simp [ResourceId.serviceHost, clusterSuffix]
  | service =>
    rw [normalize_service hdomain htwo (by rw [htrim]; simp), ← String.toList_inj]
    simp [ResourceId.serviceHost, clusterSuffix]
  | full =>
    have hsuffix : clusterSuffix domain <:+
        trimPoints (id.name ++ "." ++ id.ns ++ ".svc." ++ domain ++ points).toList := by
      rw [htrim]
      exact ⟨(id.name ++ "." ++ id.ns).toList, by simp [clusterSuffix]⟩
    rw [normalize_full hsuffix, trimmed, htrim, String.ofList_toList]
    rfl

/-- **All spellings of a service's host meet** in the host that its subsets are asked for under,
which leads back to the service. No host is completed twice, and none but the short ones is
completed. -/
theorem spellings_meet (hdomain : IsDomain domain) :
    (∀ (id : ResourceId) (m host points : String), IsLabel id.name → IsLabel id.ns →
      Spells domain id m host → (∀ c ∈ points.toList, c = '.') →
        normalize (host ++ points) m domain = id.serviceHost domain ∧
          ∀ x : SubsetIndex, x.domain = domain → x.affected (id.serviceHost domain) = [id]) ∧
    (∀ host m : String, normalize (normalize host m domain) m domain = normalize host m domain) ∧
    ∀ host m : String, normalize host m domain = trimmed host ↔ ¬ IsShort host := by
  refine ⟨fun id m host points hname hns hspells hpoints => ⟨?_, fun x hx => ?_⟩,
    normalize_normalize hdomain, normalize_eq_trimmed_iff hdomain⟩
  · exact normalize_spelling hdomain hname hns hspells hpoints
  · rw [SubsetIndex.affected, hx, service?_serviceHost hname.2]
    rfl

/-- The usual domain is one. -/
theorem isDomain_clusterLocal : IsDomain "cluster.local" where
  labels := by decide
  last := by decide

/-- A host with points behind it, and one that is no host of the cluster. -/
theorem spellings_meet_clusterLocal :
    let id : ResourceId := { ns := "prod", name := "reviews" }
    IsDomain "cluster.local" ∧ IsLabel id.name ∧ IsLabel id.ns ∧
      normalize ("reviews.prod.svc" ++ "..") "default" "cluster.local" =
        id.serviceHost "cluster.local" ∧
      ¬ IsShort "api.example.com." ∧
      normalize "api.example.com." "default" "cluster.local" = trimmed "api.example.com." := by
  intro id
  obtain ⟨hmeet, -, hkept⟩ := spellings_meet isDomain_clusterLocal
  have hname : IsLabel id.name := by decide
  have hns : IsLabel id.ns := by decide
  have hforeign : ¬ IsShort "api.example.com." := by
    have htrim : trimPoints "api.example.com.".toList = "api.example.com".toList := by decide
    rw [isShort_iff, htrim]
    rintro (h | h | ⟨lead, -, h⟩)
    · exact absurd h (by decide)
    · exact absurd h (by decide)
    · have hsuffix : ".svc".toList <:+ "api.example.com".toList := ⟨lead, h.symm⟩
      exact absurd hsuffix (by decide)
  exact ⟨isDomain_clusterLocal, hname, hns,
    (hmeet id "default" "reviews.prod.svc" ".." hname hns (.service "default") (by simp)).1,
    hforeign,
    (hkept "api.example.com." "default").2 hforeign⟩

/-- Nothing is spelled by nothing. -/
theorem Spells.ne_empty (hname : IsLabel id.name) (h : Spells domain id m host) : host ≠ "" := by
  cases h with
  | name => exact hname.1
  | qualified | service | full =>
    intro hempty
    have hchars := congrArg String.toList hempty
    simp at hchars

/-- No service is spelled by the empty host, which a rule has that names none, and yet it is
completed. -/
theorem exists_empty_completed :
    (∀ (id : ResourceId) (m : String), IsLabel id.name → IsLabel id.ns →
      ¬ Spells "cluster.local" id m (trimmed "")) ∧
      normalize "" "default" "cluster.local" = ".default.svc.cluster.local" ∧
      normalize "" "default" "cluster.local" ≠ trimmed "" :=
  ⟨fun _ _ hname _ h => h.ne_empty hname (by decide), by decide, by decide⟩

end Host

end MeshLimiter
