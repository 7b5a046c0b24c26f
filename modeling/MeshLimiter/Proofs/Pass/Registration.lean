import MeshLimiter.Pass.Registration
import MeshLimiter.Proofs.Program.Answers
import MeshLimiter.Proofs.Program.Protocol
/-!
# What a merge into the registry does

A merge reads the registry, and writes it only if that would change it.

* **`Registry.Settled`**: the registry as it is read has just the entries that a service is to have,
  where a merge would put them;
* **`Registry.runs_merge`**: all runs of a merge;
* **`Registry.Route.follows`**: its commands, under any protocol that has a way for them;
* **`Registry.MergedTo`**: what can be said of every run of it, and `mergedTo_of_runs` that it can.
-/

namespace MeshLimiter.Registry

open Program (Runs runs_done runs_step)

/-- A merge would change nothing. A registry that does not exist is to have no entry. -/
def Settled (s : Settings) (service : ResourceId) (descriptors : List GlobalDescriptor) :
    Option ConfigMap → Prop
  | none => descriptors = []
  | some c => ∃ r, ofConfigMap? s c = some r ∧ r.merged s.registryDomain service descriptors = r

/-- The write of a merge; none if the registry cannot be read. -/
def mergeWrite? (s : Settings) (service : ResourceId) (descriptors : List GlobalDescriptor) :
    Option ConfigMap → Option ClusterCall
  | none => some (.createConfigMap (firstOf s descriptors))
  | some c => (ofConfigMap? s c).map fun r =>
    .replaceConfigMap ((r.merged s.registryDomain service descriptors).writtenInto c)

variable {R : Answering} {s : Settings} {service : ResourceId} {descriptors : List GlobalDescriptor}
  {w w' : World} {tr : Trace} {y : Except PassError Bool}

/-- The write of a merge writes named texts. -/
theorem writesTexts_of_mergeWrite? {found : Option ConfigMap} {c : ClusterCall}
    (h : mergeWrite? s service descriptors found = some c) : c.writesTexts = true := by
  cases found with
  | none =>
    obtain rfl := Option.some.inj h
    rfl
  | some m =>
    obtain ⟨r, -, rfl⟩ := Option.map_eq_some_iff.1 h
    rfl

/-- It is about the registry, and no look at it. -/
theorem concern_of_mergeWrite? {found : Option ConfigMap} {c : ClusterCall}
    (h : mergeWrite? s service descriptors found = some c) :
    c.concern = .registry ∧ ∀ p, c ≠ .configMap p := by
  cases found with
  | none =>
    obtain rfl := Option.some.inj h
    exact ⟨rfl, nofun⟩
  | some m =>
    obtain ⟨r, -, rfl⟩ := Option.map_eq_some_iff.1 h
    exact ⟨rfl, nofun⟩

/-- What one text is read as, once known, need not be read from it again. -/
theorem ofConfigMap?_eq_of_read {c : ConfigMap} {r : Registry} (h : ofConfigMap? s c = some r) :
    ofConfigMap? s = fun c' => if c' = c then some r else ofConfigMap? s c' := by
  funext c'
  split
  · next heq => rw [heq, h]
  · rfl

/-! ## The text of a registry

What was written is read back, and is no blank text. -/

/-- A registry that was written is not taken for a blank text. -/
theorem isAllBlank_toYaml (r : Registry) : Text.isAllBlank r.toYaml = false := by
  -- the text begins with the name of a field
  have hfirst : r.toYaml.toList.head? = some 'd' := by
    unfold toYaml
    rw [String.append_assoc, String.toList_append]
    rfl
  unfold Text.isAllBlank
  cases hlist : r.toYaml.toList with
  | nil =>
    rw [hlist] at hfirst
    cases hfirst
  | cons c cs =>
    rw [hlist] at hfirst
    obtain rfl := Option.some.inj hfirst
    rfl

/-- The text of the registry is found again where it was put. -/
theorem text_writtenInto (r : Registry) (m : ConfigMap) (version : String) :
    (((r.writtenInto m).atVersion version).data.bind fun d => d[textName]?) = some r.toYaml :=
  Std.ExtTreeMap.getElem?_insert_self

/-- The registry is read from where it was written, if its document is. -/
theorem ofConfigMap?_writtenInto {r : Registry} (h : ofYaml? r.toYaml = some r) (m : ConfigMap)
    (version : String) : ofConfigMap? s ((r.writtenInto m).atVersion version) = some r := by
  unfold ofConfigMap?
  rw [text_writtenInto]
  dsimp only
  rw [isAllBlank_toYaml, if_neg (by decide), h]

/-! ## Runs

A merge either only reads, or reads and writes; an error ends it where it comes up. -/

/-- A run of the write of a merge, which is counted once it is done. -/
theorem runs_write {c : ClusterCall} {kind : WriteKind} {v v' : World}
    (h : Runs R (Attempt.call PassError.cluster c >>= fun _ =>
      (Program.count (.registryWrite kind) : Attempt PassError Unit) >>= fun _ =>
        (pure true : Attempt PassError Bool)).run v tr y v') (hw' : w'.held = v'.held) :
    ∃ (q : c.Reply) (u : World) (counts : Trace), R v (.call c) q u ∧ tr = ⟨.call c, q⟩ :: counts ∧
      ((∃ e, q = .error e ∧ y = .error (.cluster e) ∧ counts = [] ∧ w'.held = u.held) ∨
        (∃ a, q = .ok a) ∧ y = .ok true ∧ ∃ kind u', R u (.count (.registryWrite kind)) () u' ∧
          counts = [⟨.count (.registryWrite kind), ()⟩] ∧ w'.held = u'.held) := by
  obtain ⟨q, u, counts, hwrite, rfl, ⟨a, rfl, hcount⟩ | ⟨e, rfl, rfl, rfl, rfl⟩⟩ :=
    Attempt.runs_call_bind.1 h
  · obtain ⟨u', rest, hcount, rfl, hdone⟩ := Attempt.runs_count_bind.1 hcount
    obtain ⟨rfl, rfl, rfl⟩ := Attempt.runs_pure.1 hdone
    exact ⟨_, u, _, hwrite, rfl, .inr ⟨⟨a, rfl⟩, rfl, kind, v', hcount, rfl, hw'⟩⟩
  · exact ⟨_, _, _, hwrite, rfl, .inl ⟨e, rfl, rfl, rfl, hw'⟩⟩

/-- A run of a merge. The registry is read; then it is right already, or cannot be read, or is
written once. -/
theorem runs_merge (h : Runs R (merge s service descriptors).run w tr y w') :
    ∃ (w₀ : World) (r : Except ClusterError (Option ConfigMap)) (v : World) (rest : Trace),
      w₀.held = w.held ∧ R w₀ (.call (.configMap s.registry)) r v ∧
      tr = ⟨.call (.configMap s.registry), r⟩ :: rest ∧
      ((∃ e, r = .error e ∧ y = .error (.cluster e) ∧ rest = [] ∧ w'.held = v.held) ∨
        (∃ found, r = .ok found ∧ Settled s service descriptors found ∧ y = .ok false ∧ rest = [] ∧
          w'.held = v.held) ∨
        (∃ c, r = .ok (some c) ∧ ofConfigMap? s c = none ∧ y = .error .registryUnreadable ∧
          rest = [] ∧ w'.held = v.held) ∨
        ∃ found c, r = .ok found ∧ ¬ Settled s service descriptors found ∧
          mergeWrite? s service descriptors found = some c ∧
          ∃ (q : c.Reply) (u : World) (counts : Trace), R v (.call c) q u ∧
            rest = ⟨.call c, q⟩ :: counts ∧
            ((∃ e, q = .error e ∧ y = .error (.cluster e) ∧ counts = [] ∧ w'.held = u.held) ∨
              (∃ a, q = .ok a) ∧ y = .ok true ∧ ∃ kind u',
              R u (.count (.registryWrite kind)) () u' ∧
                counts = [⟨.count (.registryWrite kind), ()⟩] ∧ w'.held = u'.held)) := by
  unfold merge at h
  obtain ⟨w₀, v₁, hw₀, hbody, hw'⟩ := Attempt.Runs.of_holding h
  obtain ⟨r, v, rest, hget, rfl, ⟨found, rfl, hrun⟩ | ⟨e, rfl, hy, rfl, rfl⟩⟩ :=
    Attempt.runs_call_bind.1 hbody
  · refine ⟨w₀, _, v, rest, hw₀, hget, rfl, .inr ?_⟩
    cases found with
    | none =>
      -- there is no registry yet
      dsimp only at hrun
      split at hrun
      · next he =>
        obtain ⟨rfl, rfl, rfl⟩ := Attempt.runs_pure.1 hrun
        exact .inl ⟨none, rfl, List.isEmpty_iff.1 he, rfl, rfl, hw'⟩
      · next he =>
        exact .inr
          (.inr ⟨none, _, rfl, fun hs => he (List.isEmpty_iff.2 hs), rfl, runs_write hrun hw'⟩)
    | some c =>
      dsimp only at hrun
      split at hrun
      · next hc =>
        obtain ⟨rfl, rfl, rfl⟩ := Attempt.runs_throw.1 hrun
        exact .inr (.inl ⟨c, rfl, hc, rfl, rfl, hw'⟩)
      · -- the registry is read as `current`, and written unless a merge gives that again
        next current hc =>
        split at hrun
        · next hm =>
          obtain ⟨rfl, rfl, rfl⟩ := Attempt.runs_pure.1 hrun
          exact .inl ⟨some c, rfl, ⟨current, hc, hm⟩, rfl, rfl, hw'⟩
        · next hm =>
          have hunsettled : ¬ Settled s service descriptors (some c) := by
            rintro ⟨r, hr, hs⟩
            rw [hc] at hr
            obtain rfl := Option.some.inj hr
            exact hm hs
          have hcall : mergeWrite? s service descriptors (some c) = some _ :=
            Option.map_eq_some_iff.2 ⟨current, hc, rfl⟩
          exact .inr (.inr ⟨some c, _, rfl, hunsettled, hcall, runs_write hrun hw'⟩)
  · exact ⟨w₀, _, _, [], hw₀, hget, rfl, .inl ⟨e, rfl, hy, rfl, hw'⟩⟩

/-! ## Its commands

The same course, seen from the commands: each leads to the next whatever is replied. -/

/-- A protocol in which there is a way for a merge. It holds its lock all along, reads the registry,
and writes it at most once; `got` and `replied` are where the answers lead. -/
structure Route (s : Settings) (service : ResourceId)
    (descriptors : List GlobalDescriptor) {Φ : Type}
    (P : Protocol Φ) (post : Except PassError Bool → Φ → Prop) (outside locked : Φ)
    (got : Except ClusterError (Option ConfigMap) → Φ) (replied : (c : ClusterCall) → c.Reply → Φ) :
    Prop where
  lock : P outside (.acquire .registry) () locked
  get : ∀ r, P locked (.step (.call (.configMap s.registry))) r (got r)
  write : ∀ found c r, ¬ Settled s service descriptors found →
    mergeWrite? s service descriptors found = some c →
    P (got (.ok found)) (.step (.call c)) r (replied c r)
  count : ∀ c a kind, P (replied c (.ok a)) (.step (.count (.registryWrite kind))) ()
    (replied c (.ok a))
  unread : ∀ e, ∃ φ, P (got (.error e)) (.release .registry) () φ ∧ post (.error (.cluster e)) φ
  unreadable : ∀ c, ofConfigMap? s c = none →
    ∃ φ, P (got (.ok (some c))) (.release .registry) () φ ∧ post (.error .registryUnreadable) φ
  settled : ∀ found, Settled s service descriptors found →
    ∃ φ, P (got (.ok found)) (.release .registry) () φ ∧ post (.ok false) φ
  failed : ∀ c e, ∃ φ, P (replied c (.error e)) (.release .registry) () φ ∧
    post (.error (.cluster e)) φ
  wrote : ∀ c a, ∃ φ, P (replied c (.ok a)) (.release .registry) () φ ∧ post (.ok true) φ

namespace Route

variable {Φ : Type} {P : Protocol Φ} {post : Except PassError Bool → Φ → Prop} {outside locked : Φ}
  {got : Except ClusterError (Option ConfigMap) → Φ} {replied : (c : ClusterCall) → c.Reply → Φ}

/-- The write and its count have their way in the protocol. -/
theorem follows_write (h : Route s service descriptors P post outside locked got replied)
    {found : Option ConfigMap} {c : ClusterCall} (kind : WriteKind)
    (hunsettled : ¬ Settled s service descriptors found)
    (hwrite : mergeWrite? s service descriptors found = some c) :
    (Attempt.call PassError.cluster c >>= fun _ =>
      (Program.count (.registryWrite kind) : Attempt PassError Unit) >>= fun _ =>
        (pure true : Attempt PassError Bool)).run.Follows P
      (fun y φ => ∃ φ', P φ (.release .registry) () φ' ∧ post y φ') (got (.ok found)) := by
  refine Attempt.follows_call_bind fun r => ⟨_, h.write found c r hunsettled hwrite, ?_⟩
  cases r with
  | error e => exact h.failed c e
  | ok a => exact Attempt.follows_step_bind fun _ => ⟨_, h.count c a kind, h.wrote c a⟩

/-- **A merge takes that way**, whatever it is answered. -/
theorem follows (h : Route s service descriptors P post outside locked got replied) :
    (merge s service descriptors).run.Follows P post outside := by
  refine Attempt.follows_holding h.lock ?_
  refine Attempt.follows_call_bind fun (r : Except ClusterError (Option ConfigMap)) =>
    ⟨_, h.get r, ?_⟩
  cases r with
  | error e => exact h.unread e
  | ok found =>
    cases found with
    | none =>
      -- there is no registry yet
      dsimp only
      split
      · next hempty => exact h.settled none (List.isEmpty_iff.1 hempty)
      · next hsome => exact h.follows_write .create (fun hs => hsome (List.isEmpty_iff.2 hs)) rfl
    | some c =>
      dsimp only
      split
      · next hread => exact h.unreadable c hread
      · next current hread =>
        split
        · next hsame => exact h.settled (some c) ⟨current, hread, hsame⟩
        · next hchanges =>
          have hunsettled : ¬ Settled s service descriptors (some c) := by
            rintro ⟨r, hr, hsame⟩
            rw [hread] at hr
            obtain rfl := Option.some.inj hr
            exact hchanges hsame
          exact h.follows_write .update hunsettled (Option.map_eq_some_iff.2 ⟨current, hread, rfl⟩)

end Route

/-- The commands of a merge. -/
def Merges : Command → Prop
  | .acquire .registry | .release .registry => True
  | c => c.Calls .registry

/-- A merge takes no other commands. -/
theorem takes_merge (s : Settings) (service : ResourceId) (descriptors : List GlobalDescriptor) :
    (merge s service descriptors).run.Takes Merges := by
  have hroute : Route s service descriptors (fun (_ : Unit) c _ _ => Merges c)
      (fun _ _ => True) () () (fun _ => ()) (fun _ _ => ()) :=
    { lock := trivial
      get := fun _ => rfl
      write := fun _ _ _ _ h => (concern_of_mergeWrite? h).1
      count := fun _ _ _ => trivial
      unread := fun _ => ⟨(), trivial, trivial⟩
      unreadable := fun _ _ => ⟨(), trivial, trivial⟩
      settled := fun _ _ => ⟨(), trivial, trivial⟩
      failed := fun _ _ => ⟨(), trivial, trivial⟩
      wrote := fun _ _ => ⟨(), trivial, trivial⟩ }
  exact hroute.follows.takes fun _ _ _ h => ⟨h, rfl⟩

/-! ## What it comes to

Every run of a merge leaves the registry as it was, or as the merge would have it. -/

/-- What a merge comes to. -/
structure MergedTo (s : Settings) (service : ResourceId) (descriptors : List GlobalDescriptor)
    (w : World) (tr : Trace) (y : Except PassError Bool) (w' : World) : Prop where
  /-- Nothing is changed, or the write of the merge has had its effect. -/
  held : w'.held = w.held ∨ ∃ c version,
    mergeWrite? s service descriptors w.held.configMaps[s.registry]? = some c ∧
      w'.held = w.held.after version c
  calls : ∀ c ∈ tr.calls, c.filterPlace? = none
  observed : tr.observed = []
  /-- A registry that is right is not written. -/
  settled : Settled s service descriptors w.held.configMaps[s.registry]? →
    w'.held = w.held ∧ (∀ c ∈ tr.calls, c.writesMesh = false) ∧ y ≠ .ok true
  /-- Only one that is right is left alone. -/
  unwritten : ∀ b, y = .ok b → (∀ c ∈ tr.calls, c.writesMesh = false) →
    Settled s service descriptors w.held.configMaps[s.registry]?
  /-- A merge that says so has written the registry. -/
  written : y = .ok true → ∃ c version,
    mergeWrite? s service descriptors w.held.configMaps[s.registry]? = some c ∧ c ∈ tr.calls ∧
      w'.held = w.held.after version c
  /-- A merge that says so has found it right. -/
  unchanged : y = .ok false → Settled s service descriptors w.held.configMaps[s.registry]?

/-- A merge that has only read the registry. -/
theorem mergedTo_of_read {r : Except ClusterError (Option ConfigMap)} (hheld : w'.held = w.held)
    (hwrote : y ≠ .ok true)
    (hsettled : ∀ b, y = .ok b → Settled s service descriptors w.held.configMaps[s.registry]?) :
    MergedTo s service descriptors w [⟨.call (.configMap s.registry), r⟩] y w' where
  held := .inl hheld
  calls := Trace.forall_calls_cons rfl (by simp)
  observed := rfl
  settled _ := ⟨hheld, Trace.forall_calls_cons rfl (by simp), hwrote⟩
  unwritten b hb _ := hsettled b hb
  written hy := absurd hy hwrote
  unchanged hy := hsettled false hy

/-- All runs of a merge come to that. -/
theorem mergedTo_of_runs (hR : R.Sound) (h : Runs R (merge s service descriptors).run w tr y w') :
    MergedTo s service descriptors w tr y w' := by
  obtain ⟨w₀, r, v, rest, hw₀, hget, rfl, hr⟩ := runs_merge h
  have hv : v.held = w.held := by rw [(hR hget).held_of_isQuiet rfl, hw₀]
  rcases hr with ⟨e, rfl, rfl, rfl, hw'⟩ | ⟨found, rfl, hs, rfl, rfl, hw'⟩ |
    ⟨c, rfl, hc, rfl, rfl, hw'⟩ | ⟨found, c, rfl, hs, hc, q, u, counts, hwrite, rfl, hq⟩
  · -- the registry could not be got
    exact mergedTo_of_read (hw'.trans hv) nofun nofun
  · -- it is right already
    have hfound : found = w.held.configMaps[s.registry]? := by
      rw [(hR hget).configMap, hw₀]
    rw [hfound] at hs
    exact mergedTo_of_read (hw'.trans hv) nofun fun _ _ => hs
  · -- it could not be read
    exact mergedTo_of_read (hw'.trans hv) nofun nofun
  · -- it is written
    have hfound : found = w.held.configMaps[s.registry]? := by
      rw [(hR hget).configMap, hw₀]
    rw [hfound] at hs hc
    have htexts := writesTexts_of_mergeWrite? hc
    have hmem : c ∈ Trace.calls
        (⟨.call (.configMap s.registry), .ok found⟩ :: ⟨.call c, q⟩ :: counts) :=
      List.mem_cons_of_mem _ List.mem_cons_self
    have hcounts : counts.calls = [] ∧ counts.observed = [] := by
      rcases hq with ⟨e, -, -, rfl, -⟩ | ⟨-, -, kind, u', -, rfl, -⟩ <;> exact ⟨rfl, rfl⟩
    have hw' : w'.held = u.held := by
      rcases hq with ⟨e, -, -, -, hw'⟩ | ⟨-, -, kind, u', hcount, -, hw'⟩
      · exact hw'
      · rw [hw', (hR hcount).held_of_isQuiet rfl]
    -- the write may have had its effect although it failed
    have heffect := (hR hwrite).call
    rw [hv] at heffect
    exact
      { held := by
          rcases heffect with ⟨-, h⟩ | ⟨version, h⟩
          · exact .inl (by rw [hw', h])
          · exact .inr ⟨c, version, hc, by rw [hw', h]⟩
        calls := Trace.forall_calls_cons rfl (Trace.forall_calls_cons
          (ClusterCall.filterPlace?_of_writesTexts htexts) (by simp [hcounts.1]))
        observed := by
          rw [Trace.observed, List.filter_cons_of_neg (by simp [Event.isObservation]),
            List.filter_cons_of_neg (by simp [Event.isObservation_of_writesTexts htexts])]
          exact hcounts.2
        settled := fun h => absurd h hs
        unwritten := fun b hb hnone => by
          have hmesh := hnone c hmem
          rw [ClusterCall.writesMesh_of_writesTexts htexts] at hmesh
          cases hmesh
        written := fun hy => by
          rcases hq with ⟨e, -, hy', -⟩ | ⟨⟨a, rfl⟩, -⟩
          · rw [hy] at hy'
            cases hy'
          · rcases heffect with ⟨⟨e, he⟩, -⟩ | ⟨version, h⟩
            · cases he
            · exact ⟨c, version, hc, hmem, by rw [hw', h]⟩
        unchanged := fun hy => by
          rcases hq with ⟨e, -, hy', -⟩ | ⟨-, hy', -⟩
          · rw [hy] at hy'
            cases hy'
          · rw [hy] at hy'
            cases hy' }

end MeshLimiter.Registry
