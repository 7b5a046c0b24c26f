import MeshLimiter.Proofs.Registry.Replacement
/-!
# When a merge changes nothing

A merge puts the entries of its service behind all others. So it changes nothing only if they stand
there already; that they are all in the document, in their order, is not enough.

* **`Registry.merged_eq_self_iff`**: the documents that a merge leaves as they are;
* **`Registry.eq_of_ownLast`**: of the services with entries, only one has them last;
* **`Registry.mergedAll_ownLast_iff`**: after a run of merges all further ones change nothing
  exactly if no two services have entries.
-/

namespace MeshLimiter.Registry

/-- The entries of a service stand behind all others. -/
def OwnLast (r : Registry) (service : ResourceId) : Prop :=
  r.descriptors.Pairwise fun d e => d.belongsTo service = true → e.belongsTo service = true

instance (r : Registry) (service : ResourceId) : Decidable (r.OwnLast service) :=
  inferInstanceAs (Decidable (List.Pairwise _ _))

/-- What is not selected stands before what is, if and only if nothing else stands behind it. -/
theorem filter_not_append_filter_iff {α : Type} (p : α → Bool) (l : List α) :
    l.filter (fun x => !p x) ++ l.filter p = l ↔ l.Pairwise fun a b => p a = true → p b = true := by
  induction l with
  | nil => simp
  | cons a l ih =>
    rw [List.pairwise_cons]
    by_cases ha : p a = true
    · rw [List.filter_cons_of_neg (by simp [ha]), List.filter_cons_of_pos ha]
      constructor
      · intro h
        -- with `a` in front of the list, nothing can stand before the selected ones
        have hnone : l.filter (fun x => !p x) = [] := by
          cases hfirst : l.filter (fun x => !p x) with
          | nil => rfl
          | cons b more =>
            rw [hfirst, List.cons_append] at h
            obtain rfl := (List.cons.inj h).1
            have hb : b ∈ l.filter (fun x => !p x) := by
              rw [hfirst]
              exact List.mem_cons_self
            simp [ha] at hb
        have hall : ∀ b ∈ l, p b = true := by simpa using hnone
        exact ⟨fun b hb _ => hall b hb,
          List.pairwise_of_forall_mem_list fun b _ d hd _ => hall d hd⟩
      · rintro ⟨hl, -⟩
        have hnone : l.filter (fun x => !p x) = [] := by
          rw [List.filter_eq_nil_iff]
          intro b hb
          simp [hl b hb ha]
        have hself : l.filter p = l := List.filter_eq_self.2 fun b hb => hl b hb ha
        rw [hnone, hself, List.nil_append]
    · rw [List.filter_cons_of_pos (by simp [ha]), List.filter_cons_of_neg ha, List.cons_append,
        List.cons_inj_right, ih]
      exact ⟨fun h => ⟨fun b _ hpa => absurd hpa ha, h⟩, fun h => h.2⟩

variable {r : Registry} {domain : String} {service : ResourceId}

/-- **A merge that brings what is there changes nothing exactly if it stands last.** -/
theorem merged_eq_self_iff {descriptors : List GlobalDescriptor} (hdomain : r.domain = domain)
    (hown : r.descriptors.filter (·.belongsTo service) = descriptors) :
    r.merged domain service descriptors = r ↔ r.OwnLast service := by
  subst hdomain
  rw [OwnLast, ← filter_not_append_filter_iff, hown]
  constructor
  · intro h
    exact congrArg Registry.descriptors h
  · intro h
    unfold merged
    rw [h]

theorem ownLast_of_filter_eq_nil (h : r.descriptors.filter (·.belongsTo service) = []) :
    r.OwnLast service := by
  rw [List.filter_eq_nil_iff] at h
  exact List.pairwise_of_forall_mem_list fun d hd _ _ hb => absurd hb (h d hd)

/-- Where entries are only taken out, those of a service stay last. -/
theorem OwnLast.merged_nil (h : r.OwnLast service) (domain : String) (other : ResourceId) :
    (r.merged domain other []).OwnLast service := by
  unfold OwnLast merged
  rw [List.append_nil]
  exact h.filter _

theorem ownLast_merged {m : Replacement} (hm : m.WellFormed) (domain : String) (r : Registry) :
    (r.merged domain m.service m.descriptors).OwnLast m.service := by
  unfold OwnLast merged
  rw [List.pairwise_append]
  refine ⟨List.pairwise_of_forall_mem_list fun d hd _ _ hb => ?_,
    List.pairwise_of_forall_mem_list fun _ _ e he _ => (hm.descriptors e he).belongsTo,
    fun d _ e he _ => (hm.descriptors e he).belongsTo⟩
  simp [hb] at hd

/-- Where a service has entries and they stand last, the last entry is one of them. -/
theorem OwnLast.belongsTo_getLast (h : r.OwnLast service) {d : GlobalDescriptor}
    (hd : d ∈ r.descriptors) (hb : d.belongsTo service = true) :
    (r.descriptors.getLast (List.ne_nil_of_mem hd)).belongsTo service = true := by
  obtain ⟨front, back, hsplit⟩ := List.append_of_mem hd
  have hpair := h
  unfold OwnLast at hpair
  rw [hsplit, List.pairwise_append, List.pairwise_cons] at hpair
  have hlast : r.descriptors.getLast (List.ne_nil_of_mem hd) ∈ d :: back := by
    have hne : d :: back ≠ [] := List.cons_ne_nil _ _
    simp only [hsplit]
    rw [List.getLast_append_of_ne_nil _ hne]
    exact List.getLast_mem hne
  rcases List.mem_cons.1 hlast with heq | hmem
  · rw [heq]
    exact hb
  · exact hpair.2.1.1 _ hmem hb

/-- **Only one service can have its entries last.** -/
theorem eq_of_ownLast {m n : Replacement} (hm : m.WellFormed) (hn : n.WellFormed)
    (hownm : r.descriptors.filter (·.belongsTo m.service) = m.descriptors)
    (hownn : r.descriptors.filter (·.belongsTo n.service) = n.descriptors)
    (hm₀ : m.descriptors ≠ []) (hn₀ : n.descriptors ≠ []) (hlastm : r.OwnLast m.service)
    (hlastn : r.OwnLast n.service) : m.service = n.service := by
  obtain ⟨d, hd⟩ := List.exists_mem_of_ne_nil _ hm₀
  obtain ⟨e, he⟩ := List.exists_mem_of_ne_nil _ hn₀
  rw [← hownm, List.mem_filter] at hd
  rw [← hownn, List.mem_filter] at he
  have hbm := hlastm.belongsTo_getLast hd.1 hd.2
  have hbn := hlastn.belongsTo_getLast he.1 he.2
  -- the last entry was generated for one of them, and carries the marker of the other
  have hgen : (r.descriptors.getLast (List.ne_nil_of_mem hd.1)).GeneratedFor n.service := by
    refine hn.descriptors _ ?_
    rw [← hownn]
    exact List.mem_filter.2 ⟨List.getLast_mem _, hbn⟩
  exact (belongsTo_iff_of_generatedFor hm.service hn.service hgen).1 hbm

/-! ## Runs of merges

A service whose entries do not change changes nothing once they stand last. -/

/-- Every service brings the same entries whenever it merges. -/
def Steady (ms : List Replacement) : Prop :=
  ∀ m ∈ ms, ∀ n ∈ ms, m.service = n.service → m.descriptors = n.descriptors

theorem exists_last_merge {ms : List Replacement} {m : Replacement} (hm : m ∈ ms) :
    ∃ before m' after, ms = before ++ m' :: after ∧ m'.service = m.service ∧
      ∀ n ∈ after, n.service ≠ m.service := by
  induction ms using List.reverseRecOn with
  | nil => cases hm
  | append_singleton ms n ih =>
    by_cases hn : n.service = m.service
    · exact ⟨ms, n, [], rfl, hn, nofun⟩
    · have hmem : m ∈ ms := by
        rcases List.mem_append.1 hm with h | h
        · exact h
        · exact absurd (congrArg Replacement.service (List.mem_singleton.1 h).symm) hn
      obtain ⟨before, m', after, rfl, hservice, hafter⟩ := ih hmem
      refine ⟨before, m', after ++ [n], by simp, hservice, ?_⟩
      exact List.forall_mem_append.2 ⟨hafter, List.forall_mem_singleton.2 hn⟩

/-- What stands last stays there, if the later merges bring nothing. -/
theorem ownLast_mergedAll (domain : String) (r : Registry) (before : List Replacement)
    {m : Replacement} (hm : m.WellFormed) {after : List Replacement}
    (hafter : ∀ n ∈ after, n.descriptors = []) :
    (mergedAll domain r (before ++ m :: after)).OwnLast m.service := by
  induction after using List.reverseRecOn with
  | nil =>
    rw [mergedAll_snoc]
    exact ownLast_merged hm domain _
  | append_singleton after n ih =>
    have hn : n.descriptors = [] := hafter n (by simp)
    rw [← List.cons_append, ← List.append_assoc, mergedAll_snoc, hn]
    exact (ih fun k hk => hafter k (by simp [hk])).merged_nil domain n.service

/-- **A run comes to rest exactly if no two services have entries.** Otherwise the entries of one of
them do not stand last, and its next merge writes again. -/
theorem mergedAll_ownLast_iff (domain : String) (r : Registry) {ms : List Replacement}
    (hms : ∀ m ∈ ms, m.WellFormed) (hsteady : Steady ms) :
    (∀ m ∈ ms, (mergedAll domain r ms).OwnLast m.service) ↔
      ∀ m ∈ ms, ∀ n ∈ ms, m.descriptors ≠ [] → n.descriptors ≠ [] → m.service = n.service := by
  -- a service that brings the same every time has that in the end
  have hentries : ∀ m ∈ ms,
      (mergedAll domain r ms).descriptors.filter (·.belongsTo m.service) = m.descriptors := by
    intro m hm
    obtain ⟨before, m', after, rfl, hservice, hafter⟩ := exists_last_merge hm
    have hm' : m' ∈ before ++ m' :: after := by simp
    rw [← hservice, ← hsteady m' hm' m hm hservice]
    exact filter_belongsTo_mergedAll domain r before (hms m' hm')
      (fun n hn => hms n (by simp [hn])) (fun n hn => by rw [hservice]; exact hafter n hn)
  constructor
  · intro h m hm n hn hm₀ hn₀
    exact eq_of_ownLast (hms m hm) (hms n hn) (hentries m hm) (hentries n hn) hm₀ hn₀
      (h m hm) (h n hn)
  · intro h m hm
    by_cases hm₀ : m.descriptors = []
    · exact ownLast_of_filter_eq_nil (by rw [hentries m hm, hm₀])
    · -- all merges behind its last one are for services without entries
      obtain ⟨before, m', after, rfl, hservice, hafter⟩ := exists_last_merge hm
      have hm' : m' ∈ before ++ m' :: after := by simp
      rw [← hservice]
      refine ownLast_mergedAll domain r before (hms m' hm') fun n hn => ?_
      have hn' : n ∈ before ++ m' :: after := by simp [hn]
      exact Classical.byContradiction fun hn₀ => hafter n hn (h n hn' m hm hn₀ hm₀)

end MeshLimiter.Registry
