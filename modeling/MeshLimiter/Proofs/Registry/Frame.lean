import MeshLimiter.Proofs.Program.Alone
import MeshLimiter.Proofs.Pass.Registration
/-!
# What a merge leaves alone

Others keep texts beside the registry, and put labels on the object that holds them. A merge that
writes puts back what it has read, with the merged document in its place, so that all else is as it
was and a change in between is found out by the version. It writes at most once, and only what is
not there already.

* **`ConfigMap.Puts`**: an object in which one text is replaced and nothing else;
* **`Registry.ofConfigMap?_eq_none_iff`**: a text that is no registry;
* **`Registry.Course`**, **`Registry.merge_changes_only_document`**: what a merge makes of each
  answer to its first question.
-/

namespace MeshLimiter

/-- The same object with one of its texts replaced. -/
structure ConfigMap.Puts (c : ConfigMap) (name text : String) (c' : ConfigMap) : Prop where
  /-- Its version, its labels and all else but the texts are kept. -/
  kept : { c' with data := c.data } = c
  put : (c'.data.bind fun d => d[name]?) = some text
  others : ∀ other, other ≠ name → (c'.data.bind fun d => d[other]?)
    = c.data.bind fun d => d[other]?

namespace Registry

open Program (Runs)

variable {R : Answering} {s : Settings} {service : ResourceId} {descriptors : List GlobalDescriptor}
  {w w' : World} {tr : Trace} {y : Except PassError Bool} {c : ConfigMap} {r : Registry}

/-! ## What is read and written

A merge replaces one text of the object and leaves all else in it as it is. -/

/-- The text in which a registry is looked for. -/
def text? (c : ConfigMap) : Option String :=
  c.data.bind fun d => d[textName]?

/-- There is no text, or a blank one. -/
def IsBlank (c : ConfigMap) : Prop :=
  ∀ text, text? c = some text → Text.isAllBlank text = true

theorem ofConfigMap?_of_isBlank (h : IsBlank c) :
    ofConfigMap? s c = some { domain := s.registryDomain } := by
  unfold ofConfigMap?
  cases htext : c.data.bind fun d => d[textName]? with
  | none => rfl
  | some text => exact if_pos (h text htext)

theorem ofConfigMap?_of_text {text : String} (htext : text? c = some text)
    (hblank : Text.isAllBlank text = false) : ofConfigMap? s c = ofYaml? text := by
  have htext : (c.data.bind fun d => d[textName]?) = some text := htext
  unfold ofConfigMap?
  rw [htext]
  exact if_neg (by rw [hblank]; exact Bool.false_ne_true)

/-- Only a text that is neither blank nor a registry cannot be read. -/
theorem ofConfigMap?_eq_none_iff : ofConfigMap? s c = none ↔
    ∃ text, text? c = some text ∧ Text.isAllBlank text = false ∧ ofYaml? text = none := by
  constructor
  · intro h
    by_cases hblank : IsBlank c
    · rw [ofConfigMap?_of_isBlank hblank] at h
      cases h
    · obtain ⟨text, htext, hnot⟩ : ∃ text, text? c = some text ∧ Text.isAllBlank text = false := by
        simpa [IsBlank] using hblank
      exact ⟨text, htext, hnot, (ofConfigMap?_of_text htext hnot).symm.trans h⟩
  · rintro ⟨text, htext, hblank, hyaml⟩
    rw [ofConfigMap?_of_text htext hblank, hyaml]

theorem puts_writtenInto (r : Registry) (c : ConfigMap) :
    c.Puts textName r.toYaml (r.writtenInto c) where
  kept := rfl
  put := Std.ExtTreeMap.getElem?_insert_self
  others other hother := by
    show ((c.data.getD ∅).insert textName r.toYaml)[other]? = _
    rw [Std.ExtTreeMap.getElem?_insert, if_neg fun heq =>
      hother (Std.LawfulEqOrd.eq_of_compare heq).symm]
    cases c.data with
    | none => exact Std.ExtTreeMap.getElem?_empty
    | some d => rfl

theorem isWrite_of_mergeWrite? {found : Option ConfigMap} {call : ClusterCall}
    (h : mergeWrite? s service descriptors found = some call) : call.isWrite = true := by
  have htexts := writesTexts_of_mergeWrite? h
  cases call with
  | createConfigMap | replaceConfigMap => rfl
  | _ => cases htexts

/-! ## The course of a merge

The registry is read first, and what is found decides which call follows, if any. -/

/-- What a merge writes, counts and says once it is answered what the registry is. -/
structure Course (s : Settings) (service : ResourceId) (descriptors : List GlobalDescriptor)
    (found : Except ClusterError (Option ConfigMap)) (tr : Trace) (y : Except PassError Bool) :
    Prop where
  /-- A registry that is read is left alone if a merge gives the same. Else the object is replaced
  once, with the merged document put into it. -/
  read : ∀ c r, found = .ok (some c) → ofConfigMap? s c = some r →
    r.merged s.registryDomain service descriptors = r ∧ tr.writes = [] ∧ y = .ok false ∨
      r.merged s.registryDomain service descriptors ≠ r ∧ ∃ c', tr.writes = [.replaceConfigMap c'] ∧
        c.Puts textName (r.merged s.registryDomain service descriptors).toYaml c'
  /-- A text that is none of a registry is left alone. -/
  unreadable : ∀ c, found = .ok (some c) → ofConfigMap? s c = none →
    tr.writes = [] ∧ y = .error .registryUnreadable
  unread : ∀ e, found = .error e → tr.writes = [] ∧ y = .error (.cluster e)
  /-- A registry is begun only with an entry. -/
  missing : found = .ok none →
    descriptors = [] ∧ tr.writes = [] ∧ y = .ok false ∨
      descriptors ≠ [] ∧ tr.writes = [.createConfigMap (firstOf s descriptors)]
  /-- The merge says that it wrote exactly if a write was answered well. -/
  wrote : y = .ok true ↔ ∃ (call : ClusterCall) (a : call.Answer), call.isWrite = true ∧
    (⟨.call call, .ok a⟩ : Event) ∈ tr
  refused : ∀ (call : ClusterCall) (e : ClusterError), call.isWrite = true →
    (⟨.call call, .error e⟩ : Event) ∈ tr → y = .error (.cluster e)
  /-- It counts one write then, and nothing else ever. -/
  counted : y = .ok true ∧ (∃ kind, tr.counted = [.registryWrite kind]) ∨
    y ≠ .ok true ∧ tr.counted = []

variable {found : Except ClusterError (Option ConfigMap)}

/-- An event of a trace that reads the registry and makes one more call at most. -/
theorem call_of_mem {call call' : ClusterCall} {q : call.Reply} {q' : call'.Reply} {rest : Trace}
    {id : ResourceId} {found : Except ClusterError (Option ConfigMap)}
    (hwrite : call'.isWrite = true)
    (hrest : rest.calls = [])
    (hmem : (⟨.call call', q'⟩ : Event) ∈ ⟨.call (.configMap id), found⟩ ::
      ⟨.call call, q⟩ :: rest) :
    (⟨.call call', q'⟩ : Event) = ⟨.call call, q⟩ := by
  rcases List.mem_cons.1 hmem with heq | hmem
  · cases heq
    cases hwrite
  · rcases List.mem_cons.1 hmem with heq | hmem
    · exact heq
    · have hcall : call' ∈ rest.calls := List.mem_filterMap.2 ⟨_, hmem, rfl⟩
      rw [hrest] at hcall
      cases hcall

/-- A merge that has only read writes and counts nothing. -/
theorem not_write_of_mem {id : ResourceId} {call : ClusterCall} {q : call.Reply}
    (hwrite : call.isWrite = true) :
    (⟨.call call, q⟩ : Event) ∉ [(⟨.call (.configMap id), found⟩ : Event)] := by
  intro hmem
  cases List.mem_singleton.1 hmem
  cases hwrite

theorem course_of_read
    (hsettled : ∀ found', found = .ok found' →
      Settled s service descriptors found' ∧ y = .ok false ∨
      (∃ c, found' = some c ∧ ofConfigMap? s c = none) ∧ y = .error .registryUnreadable)
    (hunread : ∀ e, found = .error e → y = .error (.cluster e)) :
    Course s service descriptors found [⟨.call (.configMap s.registry), found⟩] y := by
  -- the only event is the read, so nothing is written and nothing refused
  have hwrites : Trace.writes [⟨.call (.configMap s.registry), found⟩] = [] := rfl
  have hnot : y ≠ .ok true := by
    cases found with
    | ok found' => rcases hsettled found' rfl with ⟨-, rfl⟩ | ⟨-, rfl⟩ <;> exact nofun
    | error e => rw [hunread e rfl]; exact nofun
  exact
    { read := by
        rintro c r rfl hr
        rcases hsettled _ rfl with ⟨⟨r', hr', hsame⟩, hy⟩ | ⟨⟨c', hc', hnone⟩, -⟩
        · obtain rfl := Option.some.inj (hr.symm.trans hr')
          exact .inl ⟨hsame, hwrites, hy⟩
        · obtain rfl := Option.some.inj hc'
          cases hr.symm.trans hnone
      unreadable := by
        rintro c rfl hnone
        rcases hsettled _ rfl with ⟨⟨r', hr', -⟩, -⟩ | ⟨-, hy⟩
        · cases hr'.symm.trans hnone
        · exact ⟨hwrites, hy⟩
      unread := fun e he => ⟨hwrites, hunread e he⟩
      missing := by
        rintro rfl
        rcases hsettled _ rfl with ⟨hempty, hy⟩ | ⟨⟨c, hc, -⟩, -⟩
        · exact .inl ⟨hempty, hwrites, hy⟩
        · cases hc
      wrote :=
        ⟨fun hy => absurd hy hnot, fun ⟨_, _, hwrite, hmem⟩ =>
        absurd hmem (not_write_of_mem hwrite)⟩
      refused := fun _ _ hwrite hmem => absurd hmem (not_write_of_mem hwrite)
      counted := .inr ⟨hnot, rfl⟩ }

theorem course_of_write {found : Option ConfigMap} {call : ClusterCall} {q : call.Reply}
    {counts : Trace} (hunsettled : ¬ Settled s service descriptors found)
    (hwrite : mergeWrite? s service descriptors found = some call)
    (hq : (∃ e, q = .error e ∧ y = .error (.cluster e) ∧ counts = []) ∨
      (∃ a, q = .ok a) ∧ y = .ok true ∧ ∃ kind, counts = [⟨.count (.registryWrite kind), ()⟩]) :
    Course s service descriptors (.ok found)
      (⟨.call (.configMap s.registry), .ok found⟩ :: ⟨.call call, q⟩ :: counts) y := by
  have hcalls : counts.calls = [] := by
    rcases hq with ⟨e, -, -, rfl⟩ | ⟨-, -, kind, rfl⟩ <;> rfl
  -- between the read and the counts there is one write
  have hwrites : Trace.writes
      (⟨.call (.configMap s.registry), .ok found⟩ :: ⟨.call call, q⟩ :: counts) = [call] := by
    rw [Trace.writes, Trace.calls_cons_call, Trace.calls_cons_call, hcalls,
      List.filter_cons_of_neg Bool.false_ne_true,
      List.filter_cons_of_pos (isWrite_of_mergeWrite? hwrite)]
    rfl
  exact
    { read := by
        intro c r hfound hr
        obtain rfl := Except.ok.inj hfound
        obtain ⟨r', hr', rfl⟩ := Option.map_eq_some_iff.1 hwrite
        obtain rfl := Option.some.inj (hr.symm.trans hr')
        exact .inr ⟨fun hsame => hunsettled ⟨r, hr, hsame⟩, _, hwrites, puts_writtenInto _ c⟩
      unreadable := by
        intro c hfound hnone
        obtain rfl := Except.ok.inj hfound
        obtain ⟨r', hr', -⟩ := Option.map_eq_some_iff.1 hwrite
        cases hr'.symm.trans hnone
      unread := nofun
      missing := by
        intro hfound
        obtain rfl := Except.ok.inj hfound
        obtain rfl := Option.some.inj hwrite
        exact .inr ⟨hunsettled, hwrites⟩
      wrote := by
        constructor
        · intro hy
          rcases hq with ⟨e, -, hy', -⟩ | ⟨⟨a, rfl⟩, -⟩
          · cases hy.symm.trans hy'
          · exact ⟨call, a, isWrite_of_mergeWrite? hwrite,
              List.mem_cons_of_mem _ List.mem_cons_self⟩
        · rintro ⟨call', a, hwrite', hmem⟩
          have heq := call_of_mem hwrite' hcalls hmem
          rcases hq with ⟨e, rfl, -⟩ | ⟨-, hy, -⟩
          · cases heq
          · exact hy
      refused := by
        intro call' e hwrite' hmem
        have heq := call_of_mem hwrite' hcalls hmem
        rcases hq with ⟨e', rfl, hy, -⟩ | ⟨⟨a, rfl⟩, -⟩
        · cases heq
          exact hy
        · cases heq
      counted := by
        rcases hq with ⟨e, -, rfl, rfl⟩ | ⟨-, rfl, kind, rfl⟩
        · exact .inr ⟨nofun, rfl⟩
        · exact .inl ⟨rfl, kind, rfl⟩ }

/-- **A merge changes nothing but the merged document.** It asks for the object that holds the
registry. What is not there or blank is read as a registry without entries, and what is no registry
is not read at all. Then the merge writes at most once: it puts the merged document into the object
as it was read, if that changes the document, or begins an object if there is an entry for it. It
says that it wrote, and counts that, exactly if the write was answered well. -/
theorem merge_changes_only_document (R : Answering) (s : Settings) (service : ResourceId)
    (descriptors : List GlobalDescriptor) :
    (∀ c, IsBlank c → ofConfigMap? s c = some { domain := s.registryDomain, descriptors := [] }) ∧
    (∀ c, ofConfigMap? s c = none ↔
      ∃ text, text? c = some text ∧ Text.isAllBlank text = false ∧ ofYaml? text = none) ∧
    ∀ w tr y w', Runs R (merge s service descriptors).run w tr y w' →
      ∃ found rest, tr = ⟨.call (.configMap s.registry), found⟩ :: rest ∧
        Course s service descriptors found tr y := by
  refine ⟨fun c => ofConfigMap?_of_isBlank, fun c => ofConfigMap?_eq_none_iff,
    fun w tr y w' h => ?_⟩
  obtain ⟨_, found, _, rest, _, _, rfl, hcourse⟩ := runs_merge h
  refine ⟨found, rest, rfl, ?_⟩
  rcases hcourse with ⟨e, rfl, rfl, rfl, -⟩ | ⟨found, rfl, hsettled, rfl, rfl, -⟩ |
    ⟨c, rfl, hnone, rfl, rfl, -⟩ | ⟨found, call, rfl, hunsettled, hwrite, q, _, counts, _, rfl, hq⟩
  · -- the registry could not be got
    exact course_of_read nofun fun e' he => by rw [Except.error.inj he]
  · -- it is right already
    exact course_of_read (fun found' hfound => .inl ⟨Except.ok.inj hfound ▸ hsettled, rfl⟩) nofun
  · -- it could not be read
    exact course_of_read (fun found' hfound => .inr ⟨⟨c, (Except.ok.inj hfound).symm, hnone⟩, rfl⟩)
      nofun
  · -- it is written
    refine course_of_write hunsettled hwrite (hq.imp ?_ ?_)
    · rintro ⟨e, hq, hy, hcounts, -⟩
      exact ⟨e, hq, hy, hcounts⟩
    · rintro ⟨ha, hy, kind, _, _, hcounts, -⟩
      exact ⟨ha, hy, kind, hcounts⟩

/-- An object that others have put a label and a text on, without a registry so far. -/
def shared : ConfigMap :=
  { metadata :=
      { ns := some "istio-system"
        name := some "rate-limit-config"
        resourceVersion := some "7"
        labels := some ((∅ : Labels).insert "team" "edge") }
    data := some ((∅ : Std.ExtTreeMap String String).insert "notes" "kept") }

/-- A cluster with that object. -/
def sharedWorld : World :=
  { cluster :=
      { configMaps :=
          (∅ : Std.ExtTreeMap ResourceId ConfigMap).insert ({} : Settings).registry shared }
    indexes := .empty defaultClusterDomain 64 64 }

/-- The first entry of a service. -/
def firstEntry : GlobalDescriptor :=
  { key := "generic_key"
    value := "Service[default/reviews]"
    rateLimit := { requestsPerUnit := 5, unit := .second } }

/-- The registry is put beside the text of others, and their label and the version are kept. -/
theorem merge_changes_only_document_shared :
    let p := (merge {} { ns := "default", name := "reviews" } [firstEntry]).run
    IsBlank shared ∧ ofConfigMap? {} shared = some { domain := "default" } ∧
      (p.runAlone sharedWorld).1 = .ok true ∧
      ∃ c', Trace.writes (p.traceAlone sharedWorld) = [.replaceConfigMap c'] ∧
        c'.metadata = shared.metadata ∧ (c'.data.bind fun d => d["notes"]?) = some "kept" ∧
        text? c' = some (({ domain := "default", descriptors := [firstEntry] } : Registry).toYaml) ∧
        ∃ kind, Trace.counted (p.traceAlone sharedWorld) = [.registryWrite kind] := by
  intro p
  have hnone : text? shared = none := by decide +kernel
  have hblank : IsBlank shared := fun text h => by
    rw [hnone] at h
    cases h
  obtain ⟨hread, -, hruns⟩ := merge_changes_only_document World.Answers {}
    { ns := "default", name := "reviews" } [firstEntry]
  have hok : (p.runAlone sharedWorld).1 = .ok true := by rfl
  obtain ⟨found, rest, htrace, hcourse⟩ :=
    hruns _ _ _ _ (Program.runs_answers_runAlone p sharedWorld)
  -- what the course has read is the first event of the run
  have hfound : found = .ok (some shared) := by
    have hfirst : (p.traceAlone sharedWorld).head?
        = some ⟨.call (.configMap ({} : Settings).registry), .ok (some shared)⟩ := by rfl
    rw [htrace] at hfirst
    exact Event.reply_eq (Option.some.inj hfirst)
  rcases hcourse.read shared _ hfound (hread shared hblank) with ⟨-, -, hy⟩ |
    ⟨-, c', hwrites, hputs⟩
  · cases hok.symm.trans hy
  · rcases hcourse.counted with ⟨-, hcounted⟩ | ⟨hnot, -⟩
    · have hmetadata : ({ c' with data := shared.data } : ConfigMap).metadata
        = shared.metadata := by
        rw [hputs.kept]
      refine ⟨hblank, hread shared hblank, hok, c', hwrites, hmetadata, ?_, hputs.put, hcounted⟩
      rw [hputs.others "notes" (by decide)]
      decide +kernel
    · exact absurd hok hnot

end Registry

end MeshLimiter
