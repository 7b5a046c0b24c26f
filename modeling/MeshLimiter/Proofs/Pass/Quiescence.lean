import MeshLimiter.Proofs.Pass.History
import MeshLimiter.Proofs.Registry.Quiescence
/-!
# When passes leave the registry alone

Limiters that have been applied, and whose specifications and metrics do not change, bring the same
entries again and again. Their passes leave the registry alone only if the entries of each of them
stand behind all others, and that can be so for one of them at most.

* **`Pass.settled_iff`**: a merge would change nothing exactly if its entries stand last;
* **`Pass.registry_rests_iff`**: what follows for merges, for passes, and for histories of passes.
-/

namespace MeshLimiter.Pass

open Program (Runs)

/-- The registry can be read as a document of the configured domain. Of each service it has exactly
the entries that the service brings, wherever they stand. -/
structure Registered (s : Settings) (brought : List Registry.Replacement) (h : Held)
    (r : Registry) : Prop where
  found : ∃ m, h.configMaps[s.registry]? = some m ∧ Registry.ofConfigMap? s m = some r
  domain : r.domain = s.registryDomain
  entries : ∀ a ∈ brought, r.descriptors.filter (·.belongsTo a.service) = a.descriptors

/-- A pass over a limiter that brings the same entries as ever, if it gets so far. -/
def Taken.Repeats (s : Settings) (a : Registry.Replacement) (t : Taken) : Prop :=
  keyOf t.limiter = .ok a.service ∧
    ∀ c, t.Collects s a.service c → (compiledOf s a.service t.limiter c).shared = a.descriptors

variable {R : Answering} {s : Settings} {brought : List Registry.Replacement} {r : Registry}
  {a : Registry.Replacement} {h : Held} {w w' : World}

/-- A merge would change nothing exactly if its entries stand last. -/
theorem settled_iff (hreg : Registered s brought h r) (ha : a ∈ brought) :
    Registry.Settled s a.service a.descriptors h.configMaps[s.registry]? ↔ r.OwnLast a.service := by
  obtain ⟨m, hm, hread⟩ := hreg.found
  rw [hm, ← Registry.merged_eq_self_iff hreg.domain (hreg.entries a ha)]
  constructor
  · rintro ⟨r', hr', hs⟩
    rw [hread] at hr'
    obtain rfl := Option.some.inj hr'
    exact hs
  · exact fun hs => ⟨r, hread, hs⟩

/-- Where its entries stand last, a pass leaves the registry alone. -/
theorem Taken.quiet (hR : R.Sound) {t : Taken} (hreg : Registered s brought t.before.held r)
    (ha : a ∈ brought) (hlast : r.OwnLast a.service) (ht : t.Ran R s) (hrep : t.Repeats s a) :
    (∀ k ∈ t.trace.calls, k.writesTexts = false) ∧
      t.after.held.configMaps = t.before.held.configMaps := by
  obtain ⟨hkey, hshared⟩ := hrep
  cases ht.course hR hkey with
  | idle held calls _ => exact ⟨by simp [calls], by rw [held]⟩
  | blind _ _ aside held =>
    exact ⟨fun k hk => ClusterCall.writesTexts_of_writesMesh (aside k hk).2, by rw [held]; rfl⟩
  | seen service subsets pods replies collects effects =>
    have hsettled := (settled_iff hreg ha).2 hlast
    rw [← hshared _ collects] at hsettled
    exact effects.quiet hsettled

/-- Where its entries do not stand last, a pass that succeeds writes the registry. -/
theorem Taken.exists_write (hR : R.Sound) {t : Taken} (hreg : Registered s brought t.before.held r)
    (ha : a ∈ brought) (hlast : ¬ r.OwnLast a.service) (ht : t.Ran R s) (hrep : t.Repeats s a)
    (hc : ∃ c, t.Collects s a.service c) (hok : t.result = .ok ()) :
    ∃ k ∈ t.trace.calls, k.writesTexts = true := by
  obtain ⟨hkey, hshared⟩ := hrep
  obtain ⟨c, hc⟩ := hc
  cases ht.course hR hkey with
  | idle _ _ observed => exact absurd observed hc.observed_ne_nil
  | blind collects _ _ _ => exact absurd hc (collects c)
  | seen service subsets pods replies collects effects =>
    rcases effects.registry hok with ⟨hsettled, -⟩ | ⟨k, version, hk, hcall, -⟩
    · rw [hshared _ collects] at hsettled
      exact absurd ((settled_iff hreg ha).1 hsettled) hlast
    · exact ⟨k, hcall, Registry.writesTexts_of_mergeWrite? hk⟩

/-- No pass of a history writes the registry, since each finds its entries where they stand last. -/
theorem History.quiet (hR : R.Sound) (hreg : Registered s brought w.held r)
    (hlast : ∀ a ∈ brought, r.OwnLast a.service) {ts : List Taken} (hist : History R s w ts w')
    (hrep : ∀ t ∈ ts, ∃ a ∈ brought, t.Repeats s a) :
    (∀ t ∈ ts, ∀ k ∈ t.trace.calls, k.writesTexts = false) ∧
      w'.held.configMaps = w.held.configMaps := by
  induction hist with
  | start => exact ⟨List.forall_mem_nil _, rfl⟩
  | @snoc ts t prior ran ih =>
    obtain ⟨hquiet, hsame⟩ := ih fun t' ht' => hrep t' (List.mem_append_left _ ht')
    obtain ⟨a, ha, hrepeats⟩ := hrep t (by simp)
    -- no pass so far has written the registry, so it is still the one of the start
    have hreg' : Registered s brought t.before.held r :=
      { found := by rw [hsame]; exact hreg.found
        domain := hreg.domain
        entries := hreg.entries }
    obtain ⟨hcalls, hafter⟩ := t.quiet hR hreg' ha (hlast a ha) ran hrepeats
    refine ⟨?_, hafter.trans hsame⟩
    exact List.forall_mem_append.2 ⟨hquiet, List.forall_mem_singleton.2 hcalls⟩

/-- **The registry comes to rest exactly where the entries of each service stand last.** Let the
registry have exactly the entries that some services bring. A merge for one of them writes nothing
if its entries stand last, and otherwise does not end without a write unless a call fails. If the
entries of each of them stand last, no history of passes that bring them again writes the registry;
but a pass over one whose entries do not writes it, if it succeeds. And of two services with entries
at least one is of that kind. -/
theorem registry_rests_iff (hR : R.Sound) (hreg : Registered s brought w.held r)
    (hwf : ∀ a ∈ brought, a.WellFormed) :
    (∀ a ∈ brought, ∀ tr y w',
      Runs R (Registry.merge s a.service a.descriptors).run w tr y w' →
      (r.OwnLast a.service →
        (∀ k ∈ tr.calls, k.writesTexts = false) ∧ ∀ b, y = .ok b → b = false) ∧
      (¬ r.OwnLast a.service → ∀ b, y = .ok b →
        b = true ∧ ∃ k ∈ tr.calls, k.writesTexts = true)) ∧
    ((∀ a ∈ brought, r.OwnLast a.service) → ∀ ts w', History R s w ts w' →
      (∀ t ∈ ts, ∃ a ∈ brought, t.Repeats s a) →
      ∀ t ∈ ts, ∀ k ∈ t.trace.calls, k.writesTexts = false) ∧
    (∀ a ∈ brought, ¬ r.OwnLast a.service → ∀ t : Taken, t.before = w → t.Ran R s →
      t.Repeats s a → (∃ c, t.Collects s a.service c) → t.result = .ok () →
      ∃ k ∈ t.trace.calls, k.writesTexts = true) ∧
    ∀ a ∈ brought, ∀ b ∈ brought, a.descriptors ≠ [] → b.descriptors ≠ [] → a.service ≠ b.service →
      ¬ (r.OwnLast a.service ∧ r.OwnLast b.service) := by
  refine ⟨?_, ?_, ?_, ?_⟩
  · -- one merge: its reply tells whether it found its entries last
    intro a ha tr y w' hrun
    have hmerged := Registry.mergedTo_of_runs hR hrun
    constructor
    · intro hlast
      obtain ⟨-, hcalls, hy⟩ := hmerged.settled ((settled_iff hreg ha).2 hlast)
      refine ⟨fun k hk => ClusterCall.writesTexts_of_writesMesh (hcalls k hk), ?_⟩
      rintro b rfl
      cases b with
      | false => rfl
      | true => exact absurd rfl hy
    · rintro hlast b rfl
      cases b with
      | false => exact absurd ((settled_iff hreg ha).1 (hmerged.unchanged rfl)) hlast
      | true =>
        obtain ⟨k, version, hk, hcall, -⟩ := hmerged.written rfl
        exact ⟨rfl, k, hcall, Registry.writesTexts_of_mergeWrite? hk⟩
  · exact fun hlast ts w' hist hrep => (hist.quiet hR hreg hlast hrep).1
  · rintro a ha hlast t rfl ht hrep hc hok
    exact t.exists_write hR hreg ha hlast ht hrep hc hok
  · -- only one entry can be the last one of the registry
    rintro a ha b hb ha₀ hb₀ hne ⟨hlasta, hlastb⟩
    exact hne (Registry.eq_of_ownLast (hwf a ha) (hwf b hb) (hreg.entries a ha) (hreg.entries b hb)
      ha₀ hb₀ hlasta hlastb)

/-- Another service beside the reviews. -/
def ratings : ResourceId := { ns := "default", name := "ratings" }

/-- What the two services bring: an entry each. -/
def oneEach : List Registry.Replacement :=
  [.ofConditions reviews ["a"], .ofConditions ratings ["a"]]

/-- The registry after each of them has brought its entry once. -/
def registryOfTwo : Registry :=
  { domain := noMetrics.registryDomain
    descriptors := oneEach.flatMap (·.descriptors) }

/-- That registry as it is kept. -/
def textsOfTwo : ConfigMap :=
  { metadata := { ns := some noMetrics.registry.ns, name := some noMetrics.registry.name }
    data :=
      some ((∅ : Std.ExtTreeMap String String).insert Registry.textName ("domain: default\n" ++
      "descriptors:\n" ++
      "- key: generic_key\n" ++
      "  value: Service[reviews.default]-User[none]-Id[12492558756893413848]\n" ++
      "  rate_limit:\n" ++
      "    requests_per_unit: 5\n" ++
      "    unit: MINUTE\n" ++
      "- key: generic_key\n" ++
      "  value: Service[ratings.default]-User[none]-Id[6582390128138244709]\n" ++
      "  rate_limit:\n" ++
      "    requests_per_unit: 5\n" ++
      "    unit: MINUTE\n")) }

/-- A world with that registry. -/
def worldOfTwo : World :=
  { reviewsWorld [] with
    cluster :=
      { configMaps := (∅ : Std.ExtTreeMap ResourceId ConfigMap).insert noMetrics.registry
          textsOfTwo } }

theorem read_textsOfTwo : Registry.ofConfigMap? noMetrics textsOfTwo = some registryOfTwo := by
  have htext : textsOfTwo.data.bind (fun d => d[Registry.textName]?) = _ :=
    Std.ExtTreeMap.getElem?_insert_self
  unfold Registry.ofConfigMap?
  rw [htext]
  -- the characters are given to the reader one by one, since it takes long to find them in the text
  simp only [Text.isAllBlank, Registry.ofYaml?, Yaml.Node.ofText?, Yaml.Token.ofText?,
    String.toList_append, String.reduceToList]
  decide +kernel

/-- What a merge for the reviews does there. -/
theorem merge_worldOfTwo :
    ((Registry.merge noMetrics reviews
      (Registry.Replacement.ofConditions reviews ["a"]).descriptors).run.runAlone worldOfTwo).1.isOk
        = true ∧
    ∃ k ∈ Trace.calls ((Registry.merge noMetrics reviews
      (Registry.Replacement.ofConditions reviews ["a"]).descriptors).run.traceAlone worldOfTwo),
      k.writesTexts = true := by
  rw [Registry.merge, Registry.ofConfigMap?_eq_of_read read_textsOfTwo]
  decide +kernel

/-- The registry of two has what each brings, and the ratings last. -/
theorem registered_oneEach : Registered noMetrics oneEach worldOfTwo.held registryOfTwo :=
  { found := ⟨textsOfTwo, Std.ExtTreeMap.getElem?_insert_self, read_textsOfTwo⟩
    domain := rfl
    entries := by decide +kernel }

theorem wellFormed_oneEach : ∀ a ∈ oneEach, a.WellFormed := by
  unfold oneEach
  simp only [List.forall_mem_cons]
  exact ⟨Registry.Replacement.wellFormed_ofConditions
      ⟨by decide, by decide, by decide, by decide, by decide⟩ _,
    Registry.Replacement.wellFormed_ofConditions
      ⟨by decide, by decide, by decide, by decide, by decide⟩ _, nofun⟩

/-- Where both services have brought their entry, the next merge of the first one writes, that of
the second one does not. -/
theorem registry_rests_iff_oneEach :
    (∃ k ∈ Trace.calls ((Registry.merge noMetrics reviews
        (Registry.Replacement.ofConditions reviews ["a"]).descriptors).run.traceAlone worldOfTwo),
      k.writesTexts = true) ∧
    ∀ k ∈ Trace.calls ((Registry.merge noMetrics ratings
        (Registry.Replacement.ofConditions ratings ["a"]).descriptors).run.traceAlone worldOfTwo),
      k.writesTexts = false := by
  obtain ⟨hmerge, -⟩ := registry_rests_iff sound_answers registered_oneEach wellFormed_oneEach
  have hrun : ∀ a : Registry.Replacement, Runs World.Answers
      (Registry.merge noMetrics a.service a.descriptors).run worldOfTwo _ _ _ :=
    fun a => Program.runs_answers_runAlone _ worldOfTwo
  refine ⟨?_, ?_⟩
  · obtain ⟨b, hb⟩ := exists_eq_ok_of_isOk merge_worldOfTwo.1
    exact ((hmerge _ List.mem_cons_self _ _ _ (hrun (.ofConditions reviews ["a"]))).2
      (by decide +kernel) b hb).2
  · exact ((hmerge _ (List.mem_cons_of_mem _ List.mem_cons_self) _ _ _
      (hrun (.ofConditions ratings ["a"]))).1
      (by decide +kernel)).1

/-- A registry that has exactly the entries that a service brings may be written by the next merge
for the service all the same. -/
theorem exists_write_of_registered : ¬ ∀ (s : Settings) (a : Registry.Replacement) (r : Registry)
    (w w' : World) (tr : Trace) (y : Except PassError Bool), a.WellFormed →
    Registered s [a] w.held r →
    Runs World.Answers (Registry.merge s a.service a.descriptors).run w tr y w' →
    ∀ k ∈ tr.calls, k.writesTexts = false := by
  intro h
  have hnone := h noMetrics (.ofConditions reviews ["a"]) registryOfTwo worldOfTwo _ _ _
    (wellFormed_oneEach _ List.mem_cons_self)
    { registered_oneEach with
      entries := List.forall_mem_singleton.2 (registered_oneEach.entries _ List.mem_cons_self) }
    (Program.runs_answers_runAlone _ worldOfTwo)
  obtain ⟨k, hk, hwrites⟩ := merge_worldOfTwo.2
  rw [hnone k hk] at hwrites
  cases hwrites

end MeshLimiter.Pass
