import MeshLimiter.Proofs.Pass.Collection
import MeshLimiter.Proofs.Pass.History
/-!
# What a revision tells

Whoever has acted on a material remembers its revision, and does not act again while that stays the
same. So a revision has to stand for one material. A refresh has four ends: it fails, no query is
answered, the material is the same as before, or it is a new one. In each of them the entry, what is
returned and what is counted have to agree.

* **`World.Holds`**: what an entry holds;
* **`Refresh.Accounts`**, **`Refresh.accounts_of_ran`**: what a refresh makes of an entry, and what
  it says of it;
* **`Refresh.Follow`**: refreshes of one entry, one after another, whatever happens to all else
  meanwhile;
* **`Refresh.revisions_identify_materials`**: over all of them, a revision stands for one material.
-/

namespace MeshLimiter

open Program (Runs)

/-! ## Entries and their revisions

An entry is brought up to date with a material, and its revision says whether that was another
one. -/

namespace World

/-- An entry that was made, and what it holds. -/
def Holds (w : World) (e : EntryId) (x : Entry) : Prop :=
  w.held.store.entries[e.index]? = some x

variable {w w' : World} {e : EntryId} {x y : Entry}

theorem Holds.get (h : w.Holds e x) : w.held.store.get e = x := by
  rw [MaterialStore.get, List.getD_eq_getElem?_getD, h]
  rfl

/-- An entry holds one thing. -/
theorem Holds.eq (h : w.Holds e x) (h' : w.Holds e y) : x = y :=
  Option.some.inj (h.symm.trans h')

/-- What an entry holds is part of what is held. -/
theorem Holds.of_held (h : w.Holds e x) (hheld : w'.held = w.held) : w'.Holds e x := by
  rw [Holds, hheld]
  exact h

/-- What is put into the entry is held there. -/
theorem Holds.of_put (h : w.Holds e x)
    (hheld : w'.held = { w.held with store := w.held.store.put e y }) : w'.Holds e y := by
  obtain ⟨hlt, -⟩ := List.getElem?_eq_some_iff.1 h
  rw [Holds, hheld]
  exact List.getElem?_set_self hlt

end World

namespace Entry

/-- One entry may come to be another: the revision is no less, and while it is the same, so is the
material. -/
def Precedes (x y : Entry) : Prop :=
  x.revision ≤ y.revision ∧ (x.revision = y.revision → x.material = y.material)

variable {x y z : Entry}

theorem Precedes.trans (h : x.Precedes y) (h' : y.Precedes z) : x.Precedes z := by
  refine ⟨Nat.le_trans h.1 h'.1, fun hsame => ?_⟩
  -- what lies between has the revision of both
  have hxy : x.revision = y.revision := Nat.le_antisymm h.1 (hsame ▸ h'.1)
  exact (h.2 hxy).trans (h'.2 (hxy.symm.trans hsame))

/-- The revision grows by one with a new material, and stays with the same. -/
def GrowsTo (x y : Entry) : Prop :=
  y.revision = x.revision + if y.material = x.material then 0 else 1

/-- Where nothing is brought in, nothing grows. -/
theorem GrowsTo.refl (x : Entry) : x.GrowsTo x := by
  rw [GrowsTo, if_pos rfl, Nat.add_zero]

/-- So it does when it is brought up to date. -/
theorem growsTo_update (x : Entry) (m : Material) : x.GrowsTo (x.update m) := by
  by_cases h : x.material = m
  · rw [update_of_material_eq h]
    exact .refl x
  · rw [GrowsTo, material_update, if_neg fun heq => h heq.symm, update, if_neg h]

theorem GrowsTo.revision_le (h : x.GrowsTo y) : y.revision ≤ x.revision + 1 := by
  unfold GrowsTo at h
  split at h <;> omega

/-- Growth is one way in which an entry comes to be another. -/
theorem GrowsTo.precedes (h : x.GrowsTo y) : x.Precedes y := by
  unfold GrowsTo at h
  split at h
  · next hsame => exact ⟨Nat.le_of_eq h.symm, fun _ => hsame.symm⟩
  · exact ⟨by omega, fun hrevision => by omega⟩

end Entry

/-! ## What becomes of the queries

Each query comes to one outcome. If none is answered, the entry stays as it is. -/

namespace Collected

/-- There is one outcome for each answer. -/
theorem length_gather (previous m : Material) (answers : List (Query × QueryReply)) :
    (gather previous m answers).2.length = answers.length := by
  induction answers generalizing m with
  | nil => rfl
  | cons answer answers ih =>
    rw [gather_cons, List.length_cons, ih, List.length_cons]

/-- Without answers there are only errors. -/
theorem eq_error_of_mem_gather (previous m : Material) {answers : List (Query × QueryReply)}
    (h : ∀ a ∈ answers, a.2.isOk = false) : ∀ o ∈ (gather previous m answers).2, o = .error := by
  induction answers generalizing m with
  | nil => exact List.forall_mem_nil _
  | cons answer answers ih =>
    obtain ⟨q, r⟩ := answer
    obtain ⟨hfirst, hrest⟩ := List.forall_mem_cons.1 h
    rw [gather_cons]
    refine List.forall_mem_cons.2 ⟨?_, ih _ hrest⟩
    cases r with
    | ok sample => cases hfirst
    | error e => rfl

end Collected

namespace Observation

/-- The queries that are rendered for what was seen. -/
def queries (s : Settings) (id : ResourceId) : Observation → List Query
  | complete _ subsets pods _ => Query.render id
      (PodGroups.ofPods pods subsets) s.handlers s.maxSubsets
  | _ => []

/-- What was replied to them, if it came to that. -/
def replies? : Observation → Option (List QueryReply)
  | complete _ _ _ replies => some replies
  | _ => none

variable {s : Settings} {id : ResourceId} {x : Entry} {service : Service} {subsets : List Subset}
  {pods : List Pod} {replies : List QueryReply}

/-- The revision has grown exactly if that is what is counted. -/
theorem outcome_eq_updated_iff : outcome x (gathered s id x subsets pods replies) = .updated ↔
    x.revision < (x.observe s id subsets pods replies).revision := by
  show _ ↔ x.revision < (if !(gathered s id x subsets pods replies).2.isEmpty &&
    (gathered s id x subsets pods replies).2.all (· = .error) then x
    else x.update (gathered s id x subsets pods replies).1).revision
  unfold outcome
  split
  · -- no query was answered
    exact iff_of_false nofun (Nat.lt_irrefl _)
  · split
    · next hsame => exact iff_of_false nofun (by rw [hsame]; exact Nat.lt_irrefl _)
    · next hnew =>
      refine iff_of_true rfl ?_
      rcases x.update_cases (gathered s id x subsets pods replies).1 with hsame | hlt
      · exact absurd (by rw [hsame]) hnew
      · exact hlt

theorem outcome_ne_failed (x : Entry) (g : Material × List QueryOutcome) :
    outcome x g ≠ .failed := by
  unfold outcome
  split
  · exact nofun
  · split <;> exact nofun

/-- There are as many outcomes as queries. -/
theorem length_gathered (hanswered : (complete service subsets pods replies).Answered s id) :
    (gathered s id x subsets pods replies).2.length
      = ((complete service subsets pods replies).queries s id).length := by
  refine (Collected.length_gather ..).trans ?_
  rw [List.length_zip, hanswered, Nat.min_self]
  rfl

/-- The entry stays if there are queries and none is answered. -/
theorem observe_of_silent (hanswered : (complete service subsets pods replies).Answered s id)
    (hqueries : (complete service subsets pods replies).queries s id ≠ [])
    (hsilent : ∀ r ∈ replies, r.isOk = false) : x.observe s id subsets pods replies = x := by
  have herrors : ∀ o ∈ (gathered s id x subsets pods replies).2, o = .error :=
    Collected.eq_error_of_mem_gather _ _ fun a ha => hsilent a.2 (List.of_mem_zip ha).2
  have hsome : (gathered s id x subsets pods replies).2 ≠ [] := fun hnil => hqueries <| by
    rw [← List.length_eq_zero_iff, ← length_gathered (x := x) hanswered, hnil]
    rfl
  refine if_pos (Bool.and_eq_true_iff.2
    ⟨?_, List.all_eq_true.2 fun o ho => decide_eq_true (herrors o ho)⟩)
  rw [Bool.not_eq_true', List.isEmpty_eq_false_iff]
  exact hsome

/-- To be seen once more is to grow, or to stay as it is. -/
theorem growsTo_observe (x : Entry) (s : Settings) (id : ResourceId) (subsets : List Subset)
    (pods : List Pod)
    (replies : List QueryReply) : x.GrowsTo (x.observe s id subsets pods replies) := by
  unfold Entry.observe
  dsimp only
  split
  · exact .refl x
  · exact x.growsTo_update _

end Observation

/-! ## Refreshes

They are runs of a collection, and the entry that they are about is one that was made before. -/

/-- A refresh of an entry that has come to its end. -/
structure Refresh where
  settings : Settings
  id : ResourceId
  before : World
  trace : Trace
  result : Except CollectionError Collected
  after : World

namespace Refresh

variable {R : Answering} {e : EntryId} {c : Refresh} {o : Observation} {x y : Entry}

/-- The refresh is a run. -/
def Ran (R : Answering) (e : EntryId) (c : Refresh) : Prop :=
  Runs R (Collected.refresh c.settings c.id e).run c.before c.trace c.result c.after

/-- What a refresh that has seen `o` makes of an entry, and what it says of it. -/
structure Accounts (c : Refresh) (o : Observation) (x y : Entry) : Prop where
  observed : o.Fits ∧ c.trace.observed = o.events c.settings c.id
  /-- The revision tells whether the material has changed. -/
  grows : x.GrowsTo y
  /-- A refresh fails if the service, or its pods, could not be seen. -/
  failed : (∃ error, c.result = .error error) ↔ o.replies? = none
  /-- Then the entry stays as it is. -/
  kept : o.replies? = none → y = x
  /-- It stays as well if there are queries and none of them is answered. -/
  silent : ∀ replies, o.replies? = some replies → o.queries c.settings c.id ≠ [] →
    (∀ r ∈ replies, r.isOk = false) → y = x
  /-- What is returned is what the entry holds. -/
  returned : ∀ r, c.result = .ok r → r.material = y.material ∧ r.revision = y.revision
  /-- One end of the refresh is counted, and an outcome for each query. -/
  counted : ∃ (outcomes : List QueryOutcome) (outcome : CollectionOutcome),
    c.trace.counted = outcomes.map .query ++ [.collection outcome] ∧
      outcomes.length = (o.queries c.settings c.id).length ∧
      (outcome = .updated ↔ x.revision < y.revision) ∧
      (outcome = .failed ↔ ∃ error, c.result = .error error)

/-- A refresh whose collection fails. -/
theorem accounts_of_unseen (hfits : o.Fits)
    (hobserved : c.trace.observed = o.events c.settings c.id)
    (hunseen : ∀ service subsets pods replies, o ≠ .complete service subsets pods replies)
    (hresult : ∃ error, c.result = .error error)
    (hcounted : c.trace.counted = [.collection .failed]) :
    Accounts c o x x := by
  -- it never came to the queries
  obtain ⟨hreplies, hqueries⟩ : o.replies? = none ∧ o.queries c.settings c.id = [] := by
    cases o with
    | complete service subsets pods replies =>
        exact absurd rfl (hunseen service subsets pods replies)
    | _ => exact ⟨rfl, rfl⟩
  obtain ⟨error, hresult⟩ := hresult
  exact
    { observed := ⟨hfits, hobserved⟩
      grows := .refl x
      failed := iff_of_true ⟨error, hresult⟩ hreplies
      kept := fun _ => rfl
      silent := fun _ _ _ _ => rfl
      returned := fun r hr => by cases hresult.symm.trans hr
      counted :=
        ⟨[], .failed, hcounted, by rw [hqueries]; rfl, iff_of_false nofun (Nat.lt_irrefl _),
        iff_of_true rfl ⟨error, hresult⟩⟩ }

/-- A refresh that has seen all it was to see. -/
theorem accounts_of_seen {service : Service} {subsets : List Subset} {pods : List Pod}
    {replies : List QueryReply} (ho : o = .complete service subsets pods replies) (hfits : o.Fits)
    (hanswered : o.Answered c.settings c.id)
    (hobserved : c.trace.observed = o.events c.settings c.id)
    (hresult : c.result
      = .ok (Collected.ofEntry (x.observe c.settings c.id subsets pods replies) service subsets))
    (hcounted : c.trace.counted = o.counts c.settings c.id x) :
    Accounts c o x (x.observe c.settings c.id subsets pods replies) := by
  subst ho
  -- a refresh that has seen everything does not fail
  have hok : ¬ ∃ error, c.result = .error error := by
    rintro ⟨error, herror⟩
    cases hresult.symm.trans herror
  exact
    { observed := ⟨hfits, hobserved⟩
      grows := Observation.growsTo_observe ..
      failed := iff_of_false hok nofun
      kept := nofun
      silent := by
        rintro _ ⟨⟩ hqueries hsilent
        exact Observation.observe_of_silent hanswered hqueries hsilent
      returned := by
        intro r hr
        obtain rfl := Except.ok.inj (hresult.symm.trans hr)
        exact ⟨rfl, rfl⟩
      counted :=
        ⟨_, _, hcounted, Observation.length_gathered hanswered, Observation.outcome_eq_updated_iff,
        iff_of_false (Observation.outcome_ne_failed _ _) hok⟩ }

/-- **A refresh accounts for what it does**, whatever it is answered. -/
theorem accounts_of_ran (hR : R.Heeds) (hx : c.before.Holds e x) (h : c.Ran R e) :
    ∃ o y, c.after.Holds e y ∧ Accounts c o x y := by
  obtain ⟨tr, v, hcollect, hnoted⟩ := Attempt.Runs.noted h
  obtain ⟨o, hsaw⟩ := Collected.saw_of_runs hR hcollect
  have hcounts := hsaw.counted
  rw [hx.get] at hcounts
  rcases hsaw.follows with ⟨service, subsets, pods, replies, ho, hy, hv⟩ |
    ⟨hunseen, ⟨error, hy⟩, hv⟩
  · -- all was seen, and no note is taken in the end
    rw [hx.get] at hy hv
    rw [hy] at hnoted
    obtain ⟨-, htrace, hafter⟩ : _ ∧ c.trace = tr ∧ c.after = v := hnoted.resolve_right nofun
    refine ⟨o, _, hafter ▸ hx.of_put hv, accounts_of_seen ho hsaw.fits hsaw.answered ?_ hy ?_⟩
    · rw [htrace]
      exact hsaw.observed
    · rw [htrace]
      exact hcounts
  · rw [hy] at hnoted
    obtain ⟨event, hevent, hcount, htrace⟩ := hnoted.resolve_left nofun
    obtain rfl := Option.some.inj hevent
    have hheld : c.after.held = c.before.held := (hR.quiet hcount rfl).trans hv
    refine ⟨o, x, hx.of_held hheld, accounts_of_unseen hsaw.fits ?_ hunseen ⟨error, hy⟩ ?_⟩
    · rw [htrace, Trace.observed_append, hsaw.observed]
      exact List.append_nil _
    · rw [htrace, Trace.counted_append, hcounts]
      cases o with
      | complete service subsets pods replies =>
          exact absurd rfl (hunseen service subsets pods replies)
      | _ => rfl

/-- So does one of which is known what it left. -/
theorem accounts_of_leaves (hR : R.Heeds) (holds : c.before.Holds e x) (ran : c.Ran R e)
    (leaves : c.after.Holds e y) : ∃ o, Accounts c o x y := by
  obtain ⟨o, y', hy', haccounts⟩ := accounts_of_ran hR holds ran
  obtain rfl := hy'.eq leaves
  exact ⟨o, haccounts⟩

/-! ## One refresh after another

What all others do meanwhile keeps the entry as it is. So the entries that the refreshes find and
leave form a chain. -/

/-- Refreshes of one entry, one after another, with what it holds after each. All but the entry may
have changed between two of them. -/
inductive Follow (R : Answering) (e : EntryId) : Entry → List Refresh → List Entry → Prop where
  | nil (x : Entry) : Follow R e x [] []
  | cons {x y : Entry} {c : Refresh} {cs : List Refresh} {ys : List Entry}
      (holds : c.before.Holds e x)
      (ran : c.Ran R e) (leaves : c.after.Holds e y) (more : Follow R e y cs ys) : Follow R e x
        (c :: cs) (y :: ys)

variable {cs : List Refresh} {ys : List Entry}

/-- Of two entries the later has come from the earlier. -/
theorem Follow.pairwise (hR : R.Heeds) (h : Follow R e x cs ys) :
    (x :: ys).Pairwise Entry.Precedes := by
  induction h with
  | nil x => exact List.pairwise_singleton ..
  | @cons x y c cs ys holds ran leaves _ ih =>
    obtain ⟨o, haccounts⟩ := accounts_of_leaves hR holds ran leaves
    have hstep := haccounts.grows.precedes
    refine List.pairwise_cons.2 ⟨fun z hz => ?_, ih⟩
    rcases List.mem_cons.1 hz with rfl | hz
    · exact hstep
    · exact hstep.trans ((List.pairwise_cons.1 ih).1 z hz)

/-- What a refresh returns is one of the entries. -/
theorem Follow.returned (hR : R.Heeds) (h : Follow R e x cs ys) {r : Collected} (hc : c ∈ cs)
    (hr : c.result = .ok r) : ∃ y ∈ ys, r.material = y.material ∧ r.revision = y.revision := by
  induction h with
  | nil x => cases hc
  | @cons x y c' cs ys holds ran leaves _ ih =>
    rcases List.mem_cons.1 hc with rfl | hc
    · obtain ⟨o, haccounts⟩ := accounts_of_leaves hR holds ran leaves
      exact ⟨y, List.mem_cons_self, haccounts.returned r hr⟩
    · obtain ⟨z, hz, hsame⟩ := ih hc
      exact ⟨z, List.mem_cons_of_mem _ hz, hsame⟩

/-- No refresh lets the revision grow by more than one. -/
theorem Follow.revision_le (hR : R.Heeds) (h : Follow R e x cs ys) :
    ∀ y ∈ ys, y.revision ≤ x.revision + cs.length := by
  induction h with
  | nil x => exact List.forall_mem_nil _
  | @cons x y c cs ys holds ran leaves _ ih =>
    obtain ⟨o, haccounts⟩ := accounts_of_leaves hR holds ran leaves
    have hstep := haccounts.grows.revision_le
    refine List.forall_mem_cons.2 ⟨by rw [List.length_cons]; omega, fun z hz => ?_⟩
    have hz := ih z hz
    rw [List.length_cons]
    omega

/-- So a revision that is a word of 64 bits is right for any number of refreshes that there could
be. -/
theorem Follow.toNat_word (hR : R.Heeds) (h : Follow R e x cs ys)
    (hroom : x.revision + cs.length < UInt64.size) : ∀ y ∈ ys, y.word.toNat = y.revision :=
  fun y hy => Entry.toNat_word (Nat.lt_of_le_of_lt (h.revision_le hR y hy) hroom)

/-- **Revisions identify materials.** Whatever the service, its pods and its queries come to, each
refresh of an entry accounts for what it does. So over refreshes that follow one another the
revision is never less than it was, and whenever two of them return the same revision, they return
the same material. -/
theorem revisions_identify_materials (hR : R.Heeds) (e : EntryId) :
    (∀ (c : Refresh) (x : Entry), c.before.Holds e x → c.Ran R e →
      ∃ o y, c.after.Holds e y ∧ Accounts c o x y) ∧
    ∀ (x : Entry) (cs : List Refresh) (ys : List Entry), Follow R e x cs ys →
      (x :: ys).Pairwise Entry.Precedes ∧
      ∀ c ∈ cs, ∀ d ∈ cs, ∀ r r', c.result = .ok r → d.result = .ok r' → r.revision = r'.revision →
        r.material = r'.material := by
  refine ⟨fun c x => accounts_of_ran hR, fun x cs ys h => ?_⟩
  have hpairs := h.pairwise hR
  refine ⟨hpairs, fun c hc d hd r r' hr hr' hsame => ?_⟩
  obtain ⟨y, hy, hmaterial, hrevision⟩ := h.returned hR hc hr
  obtain ⟨z, hz, hmaterial', hrevision'⟩ := h.returned hR hd hr'
  rw [hrevision, hrevision'] at hsame
  rw [hmaterial, hmaterial']
  -- which of the two came first does not matter for equal revisions
  have hentries : ys.Pairwise fun y z => y.revision = z.revision → y.material = z.material :=
    (List.pairwise_cons.1 hpairs).2.imp fun hprecedes => hprecedes.2
  exact hentries.forall_of_forall_of_flip (fun _ _ _ => rfl)
    (hentries.imp fun h hrevision => (h hrevision.symm).symm) hy hz hsame

/-! ## Three refreshes

The first counts the pods, the second is not answered and keeps what is held, the third finds no
service. -/

/-- A refresh with nothing beside it. -/
def alone (s : Settings) (id : ResourceId) (e : EntryId) (w : World) : Refresh :=
  let p := (Collected.refresh s id e).run
  { settings := s, id, before := w, trace := p.traceAlone w, result := (p.runAlone w).1,
      after := (p.runAlone w).2 }

theorem ran_alone (s : Settings) (id : ResourceId) (e : EntryId) (w : World) :
    (alone s id e w).Ran World.Answers e :=
  Program.runs_answers_runAlone _ w

/-- The entry that the refreshes are about. -/
def firstMade : EntryId := ⟨0⟩

/-- The labels of the pods of a service. -/
def podLabels : Labels := (∅ : Labels).insert "app" "reviews"

/-- A service with a pod, for which an entry is made. -/
def entryWorld : World :=
  { cluster :=
      { services :=
          (∅ : Std.ExtTreeMap ResourceId Service).insert Pass.reviews
            { selector := some (some podLabels) }
        pods :=
          [{ metadata :=
              { name := some "reviews-1", ns := some "default", labels := some podLabels } }] }
    indexes := .empty defaultClusterDomain 64 64
    memory := { store := (({} : MaterialStore).entry Pass.reviews).2 } }

/-- Settings with one query. -/
def oneMetric : Settings :=
  { handlers := (∅ : Handlers).insert "rps" { query := "sum(rps)" } }

/-- The pods are counted. -/
def counting : Refresh := alone Pass.noMetrics Pass.reviews firstMade entryWorld

/-- The query is not answered. -/
def unanswered : Refresh := alone oneMetric Pass.reviews firstMade counting.after

/-- The service is gone. -/
def missing : Refresh := alone Pass.noMetrics Pass.reviews firstMade
    { unanswered.after with cluster := {} }

/-- One of three refreshes changes the material. -/
theorem revisions_identify_materials_reviews :
    let y := counting.after.held.store.get firstMade
    Follow World.Answers firstMade {} [counting, unanswered, missing] [y, y, y] ∧
      y.revision = 1 ∧ y.material ≠ {} ∧ [({} : Entry), y, y, y].Pairwise Entry.Precedes ∧
      counting.trace.counted = [.collection .updated] ∧
      unanswered.trace.counted = [.query .error, .collection .stale] ∧
      missing.trace.counted = [.collection .failed] := by
  intro y
  have hfollow : Follow World.Answers firstMade {} [counting, unanswered, missing] [y, y, y] :=
    .cons (by rfl) (ran_alone ..) (by rfl) (.cons (by rfl) (ran_alone ..) (by rfl)
      (.cons (by rfl) (ran_alone ..) (by rfl) (.nil y)))
  exact ⟨hfollow, by decide +kernel, by decide +kernel,
    ((revisions_identify_materials sound_answers.heeds firstMade).2 _ _ _ hfollow).1,
    by decide +kernel, by decide +kernel, by decide +kernel⟩

end Refresh

end MeshLimiter
