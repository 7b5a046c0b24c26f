import MeshLimiter.Proofs.Pass.Registration
import MeshLimiter.Proofs.Registry.Replacement
/-!
# What merges make of the registry

The registry as a value that merges change one after another. There may be no text yet, or one that
is not a registry, which merges leave alone.

* **`Registry.Contents`**: what the text of a registry tells;
* **`Registry.Contents.merge`**: what a merge makes of it;
* **`Registry.Contents.merge_of_settled`**, **`Registry.Contents.merge_of_write`**: a merge that
  does not write would change nothing, and one that writes stores what is to come of it.
-/

namespace MeshLimiter.Registry

/-- A merge that is to be made, with the settings of whoever makes it. -/
structure Merging extends Replacement where
  settings : Settings

/-- What the text of a registry tells. -/
inductive Contents where
  /-- There is no text, or a blank one. -/
  | blank
  /-- The text is none of a registry. -/
  | unreadable
  | holds (r : Registry)
deriving DecidableEq

namespace Contents

def ofText (text : String) : Contents :=
  if Text.isAllBlank text then blank
  else
    match ofYaml? text with
    | some r => holds r
    | none => unreadable

/-- What named texts tell, if they exist. -/
def of (found : Option ConfigMap) : Contents :=
  match found.bind fun c => c.data.bind fun d => d[textName]? with
  | some text => ofText text
  | none => blank

def entries : Contents → List GlobalDescriptor
  | holds r => r.descriptors
  | _ => []

/-- The registry as it is read for a domain; none if it cannot be read. -/
def readFor (domain : String) : Contents → Option Registry
  | blank => some { domain }
  | unreadable => none
  | holds r => some r

/-- What a merge makes of it. A registry is begun only with an entry. -/
def merge (d : Contents) (m : Merging) : Contents :=
  match d with
  | blank =>
    if m.descriptors.isEmpty then blank
    else holds { domain := m.settings.registryDomain, descriptors := m.descriptors }
  | unreadable => unreadable
  | holds r => holds (r.merged m.settings.registryDomain m.service m.descriptors)

/-- What merges make of it, one after another. -/
def mergeAll (d : Contents) (ms : List Merging) : Contents :=
  ms.foldl merge d

@[simp] theorem mergeAll_nil (d : Contents) : d.mergeAll [] = d := rfl

theorem mergeAll_snoc (d : Contents) (ms : List Merging) (m : Merging) :
    d.mergeAll (ms ++ [m]) = (d.mergeAll ms).merge m := by
  simp [mergeAll]

/-! ## Texts that are read and written

A text is looked for under its name in the object, and a blank one stands for a registry without
entries. -/

variable {s : Settings} {c : ConfigMap} {r : Registry} {m : Merging} {found : Option ConfigMap}

theorem ofConfigMap?_eq (s : Settings) (c : ConfigMap) :
    ofConfigMap? s c = (of (some c)).readFor s.registryDomain := by
  unfold ofConfigMap? of
  dsimp only [Option.bind_some]
  cases c.data.bind fun d => d[textName]? with
  | none => rfl
  | some text =>
    dsimp only [ofText]
    by_cases hblank : Text.isAllBlank text = true
    · rw [if_pos hblank, if_pos hblank]
      rfl
    · rw [if_neg hblank, if_neg hblank]
      cases ofYaml? text <;> rfl

/-- What was written is found again, if its document is read back. -/
theorem of_writtenInto (hback : ofYaml? r.toYaml = some r) (c : ConfigMap) (version : String) :
    of (some ((r.writtenInto c).atVersion version)) = holds r := by
  unfold of
  rw [Option.bind_some, text_writtenInto]
  dsimp only [ofText]
  rw [isAllBlank_toYaml, if_neg (by decide), hback]

theorem merge_of_readFor {d : Contents} (hr : d.readFor m.settings.registryDomain = some r)
    (hchanges : r.merged m.settings.registryDomain m.service m.descriptors ≠ r) :
    d.merge m = holds (r.merged m.settings.registryDomain m.service m.descriptors) := by
  cases d with
  | blank =>
    obtain rfl := Option.some.inj hr
    have hsome : ¬ m.descriptors.isEmpty = true := fun hempty => hchanges (by
      rw [merged, List.isEmpty_iff.1 hempty]
      rfl)
    rw [merge, if_neg hsome]
    rfl
  | unreadable => cases hr
  | holds current =>
    obtain rfl := Option.some.inj hr
    rfl

/-- **A merge that would not write changes nothing.** -/
theorem merge_of_settled (h : Settled m.settings m.service m.descriptors found) :
    (of found).merge m = of found := by
  cases found with
  | none =>
    have hempty : m.descriptors = [] := h
    show (if m.descriptors.isEmpty then blank else _) = blank
    rw [hempty]
    rfl
  | some c =>
    obtain ⟨r, hr, hsame⟩ := h
    rw [ofConfigMap?_eq] at hr
    cases hd : of (some c) with
    | blank =>
      rw [hd] at hr
      obtain rfl := Option.some.inj hr
      -- nothing was put in, or the registry would not be the same
      have hempty : m.descriptors = [] := congrArg Registry.descriptors hsame
      rw [merge, hempty]
      rfl
    | unreadable => rfl
    | holds current =>
      rw [hd] at hr
      obtain rfl := Option.some.inj hr
      rw [merge, hsame]


/-- **A merge that writes stores what comes of it.** It writes into the text that it was given, or
begins one. -/
theorem merge_of_write {call : ClusterCall}
    (hunsettled : ¬ Settled m.settings m.service m.descriptors found)
    (hwrite : mergeWrite? m.settings m.service m.descriptors found = some call) :
    ∃ (r : Registry) (c : ConfigMap), (of found).merge m = holds r ∧
      ((found = none ∧ call = .createConfigMap (r.writtenInto c) ∧
          c.metadata.id = m.settings.registry) ∨
        (found = some c ∧ call = .replaceConfigMap (r.writtenInto c))) := by
  cases found with
  | none =>
    have hsome : ¬ m.descriptors.isEmpty = true :=
      fun hempty => hunsettled (List.isEmpty_iff.1 hempty)
    refine ⟨_, { metadata := (firstOf m.settings m.descriptors).metadata }, if_neg hsome,
      .inl ⟨rfl, ?_, rfl⟩⟩
    exact (Option.some.inj hwrite).symm
  | some c =>
    obtain ⟨current, hcurrent, rfl⟩ := Option.map_eq_some_iff.1 hwrite
    have hchanges : current.merged m.settings.registryDomain m.service m.descriptors ≠ current :=
      fun hsame => hunsettled ⟨current, hcurrent, hsame⟩
    rw [ofConfigMap?_eq] at hcurrent
    exact ⟨_, c, merge_of_readFor hcurrent hchanges, .inr ⟨rfl, rfl⟩⟩

/-! ## Entries after a run of merges

A registry that could be read at first can be read after each merge. -/

theorem mergeAll_unreadable (ms : List Merging) : unreadable.mergeAll ms = unreadable := by
  induction ms with
  | nil => rfl
  | cons m ms ih => exact ih

theorem merge_ne_unreadable {d : Contents} (hd : d ≠ unreadable) (m : Merging) :
    d.merge m ≠ unreadable := by
  cases d with
  | blank =>
    rw [merge]
    split <;> exact nofun
  | unreadable => exact absurd rfl hd
  | holds r => exact nofun

theorem entries_merge {d : Contents} (hd : d ≠ unreadable) (m : Merging) :
    (d.merge m).entries = d.entries.filter (fun e => !e.belongsTo m.service) ++ m.descriptors := by
  cases d with
  | blank =>
    rw [merge]
    split
    · next hempty =>
      rw [List.isEmpty_iff.1 hempty]
      rfl
    · rfl
  | unreadable => exact absurd rfl hd
  | holds r => rfl

/-- What domain each merge was for has no bearing on the entries. -/
theorem entries_mergeAll {d : Contents} (hd : d ≠ unreadable) (domain : String)
    (ms : List Merging) : (d.mergeAll ms).entries
      = (mergedAll domain { domain, descriptors := d.entries }
        (ms.map (·.toReplacement))).descriptors := by
  induction ms generalizing d with
  | nil => rfl
  | cons m ms ih =>
    show ((d.merge m).mergeAll ms).entries = _
    rw [ih (merge_ne_unreadable hd m), entries_merge hd]
    rfl

end Contents

end MeshLimiter.Registry
