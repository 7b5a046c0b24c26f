import MeshLimiter.Proofs.Program.Runs
/-!
# Answers of an unreliable cluster

How a world answers the steps of one controller. Nobody else writes what the passes hold, but all
else may change by itself before each step: services, pods, subsets, metrics and time. A call may
fail with any error, and a write that fails may or may not have had its effect.

* **`World.Answers`**: the replies that a step may get, and the worlds that it may leave behind;
* **`World.AnswersTruly`**: those of a cluster that does not deny a filter that is there;
* **`World.Answers.call`**: a call has its effect, or it fails.

The other lemmas say, for each step that a pass takes, what its answer tells and what is held after
it.
-/

namespace MeshLimiter

/-! ## What calls change

A call that is done changes one object, and gives it a new version. -/

/-- A filter as it is stored under a version. -/
def ProxyFilter.atVersion (f : ProxyFilter) (version : String) : ProxyFilter :=
  { f with metadata := { f.metadata with resourceVersion := some version } }

/-- Named texts as they are stored under a version. -/
def ConfigMap.atVersion (m : ConfigMap) (version : String) : ConfigMap :=
  { m with metadata := { m.metadata with resourceVersion := some version } }

namespace Held

/-- What is held after a call has had its effect; what it stores gets a version. -/
def after (h : Held) (version : String) : ClusterCall → Held
  | .createFilter f => { h with filters := h.filters.insert f.metadata.id (f.atVersion version) }
  | .replaceFilter f => { h with filters := h.filters.insert f.metadata.id (f.atVersion version) }
  | .deleteFilter p => { h with filters := h.filters.erase p }
  | .createConfigMap m =>
    { h with configMaps := h.configMaps.insert m.metadata.id (m.atVersion version) }
  | .replaceConfigMap m =>
    { h with configMaps := h.configMaps.insert m.metadata.id (m.atVersion version) }
  | _ => h

/-- What is held after the cluster has come to be another. -/
def withCluster (h : Held) (k : Cluster) : Held :=
  { h with filters := k.filters, configMaps := k.configMaps }

end Held

namespace Cluster

/-- A creation is refused, or the object is stored. -/
theorem create_cases {α : Type} (current : Option α) (store c : Cluster) :
    (∃ e, create current store c = (.error e, c)) ∨ create current store c = (.ok (), store) := by
  cases current with
  | none => exact .inr rfl
  | some old => exact .inl ⟨_, rfl⟩

/-- A replacement is refused, or the object is stored. -/
theorem replace_cases {α : Type} (version : α → Option String) (current : Option α) (new : α)
    (store c : Cluster) : (∃ e, replace version current new store c = (.error e, c)) ∨
      replace version current new store c = (.ok (), store) := by
  cases current with
  | none => exact .inl ⟨_, rfl⟩
  | some old =>
    unfold replace
    dsimp only
    split
    · exact .inr rfl
    · exact .inl ⟨_, rfl⟩

/-- A deletion is refused and changes nothing, or the filter is gone. -/
theorem delete_cases (k : Cluster) (p : ResourceId) :
    (∃ e, k.perform (.deleteFilter p) = (.error e, k)) ∨
      k.perform (.deleteFilter p) = (.ok (), { k with filters := k.filters.erase p }) := by
  by_cases hp : k.filters.contains p = true
  · exact .inr (if_pos hp)
  · exact .inl ⟨_, if_neg hp⟩

/-- The cluster refuses a call, or the call has its effect. -/
theorem perform_cases (w : World) (c : ClusterCall) :
    (∃ e, w.cluster.perform c = (.error e, w.cluster)) ∨
      ∃ version, w.held.withCluster (w.cluster.perform c).2 = w.held.after version c := by
  cases c with
  | service | pods | filter | configMap | patchStatus =>
    -- nothing of this is held, whatever the answer
    exact .inr ⟨"", rfl⟩
  | createFilter f =>
    refine (create_cases w.cluster.filters[f.metadata.id]? (w.cluster.storeFilter f) w.cluster).imp
      id
      fun h => ⟨w.cluster.nextVersion, ?_⟩
    rw [show w.cluster.perform (.createFilter f) = _ from h]
    rfl
  | createConfigMap m =>
    refine (create_cases w.cluster.configMaps[m.metadata.id]? (w.cluster.storeConfigMap m)
      w.cluster).imp id fun h => ⟨w.cluster.nextVersion, ?_⟩
    rw [show w.cluster.perform (.createConfigMap m) = _ from h]
    rfl
  | replaceFilter f =>
    refine (replace_cases (fun g : ProxyFilter => g.metadata.resourceVersion)
      w.cluster.filters[f.metadata.id]? f (w.cluster.storeFilter f) w.cluster).imp id
      fun h => ⟨w.cluster.nextVersion, ?_⟩
    rw [show w.cluster.perform (.replaceFilter f) = _ from h]
    rfl
  | replaceConfigMap m =>
    refine (replace_cases (fun m : ConfigMap => m.metadata.resourceVersion)
      w.cluster.configMaps[m.metadata.id]? m (w.cluster.storeConfigMap m) w.cluster).imp id
      fun h => ⟨w.cluster.nextVersion, ?_⟩
    rw [show w.cluster.perform (.replaceConfigMap m) = _ from h]
    rfl
  | deleteFilter p =>
    refine (w.cluster.delete_cases p).imp id fun h => ⟨"", ?_⟩
    rw [h]
    rfl

end Cluster

namespace World

/-- A call fails with nothing changed, or it is answered as the cluster performs it. -/
theorem call_cases (w : World) (c : ClusterCall) :
    (∃ e, (w.call c).1 = .error e ∧ (w.call c).2.held = w.held) ∨
      (w.call c).1 = (w.cluster.perform c).1 ∧
        ∃ version, (w.call c).2.held = w.held.after version c := by
  have hcalled : (∃ e, (w.call c).1 = .error e ∧ (w.call c).2.held = w.held) ∨
      (w.call c).1 = (w.cluster.perform c).1 ∧
        (w.call c).2.held = w.held.withCluster (w.cluster.perform c).2 := by
    unfold World.call
    dsimp only
    split
    · -- a fault refuses the call before the cluster sees it
      exact .inl ⟨_, rfl, rfl⟩
    · right
      have hcluster : (w.note c.text).cluster = w.cluster := rfl
      rw [hcluster]
      split
      next hp => exact ⟨by rw [hp], by rw [hp]; rfl⟩
      next hp => exact ⟨by rw [hp], by rw [hp]; rfl⟩
  rcases hcalled with h | ⟨hreply, hheld⟩
  · exact .inl h
  · rcases Cluster.perform_cases w c with ⟨e, he⟩ | ⟨version, hv⟩
    · refine .inl ⟨e, by rw [hreply, he], ?_⟩
      rw [hheld, he]
      rfl
    · exact .inr ⟨hreply, version, by rw [hheld, hv]⟩

/-! ## Answers

The world may answer a step as it does by itself, and a call may fail, before or after it is
done. -/

/-- What a step may be answered, and what it may leave behind. -/
inductive Answers (w : World) : (a : Step) → a.Reply → World → Prop where
  /-- The step is performed. -/
  | performed {v : World} (held : v.held = w.held) (a : Step) :
    Answers w a (v.perform a).1 (v.perform a).2
  /-- A call fails and has no effect. -/
  | failed {v : World} (held : v.held = w.held) (c : ClusterCall) (e : ClusterError) :
    Answers w (.call c) (.error e) v
  /-- A call is made, but its answer is lost. -/
  | unsure {v : World} (held : v.held = w.held) (c : ClusterCall) (e : ClusterError) :
    Answers w (.call c) (.error e) (v.call c).2

/-- A filter that cannot be deleted because it does not exist is not there. -/
def SaysTruly : (a : Step) → a.Reply → World → Prop
  | .call (.deleteFilter p), r, w => r = .error .notFound → w.cluster.filters[p]? = none
  | _, _, _ => True

/-- Answers that do not deny a filter that is there. -/
def AnswersTruly (w : World) (a : Step) (r : a.Reply) (w' : World) : Prop :=
  w.Answers a r w' ∧ SaysTruly a r w'

variable {w w' : World}

/-- What the world does by itself is one of its answers. -/
theorem answers_perform (w : World) (a : Step) : w.Answers a (w.perform a).1 (w.perform a).2 :=
  .performed rfl a

/-- A call fails, or it has its effect; one that fails may have had it as well. -/
theorem Answers.call {c : ClusterCall} {r : c.Reply} (h : w.Answers (.call c) r w') :
    ((∃ e, r = .error e) ∧ w'.held = w.held) ∨ ∃ version, w'.held = w.held.after version c := by
  have hcall : ∀ v : World, v.held = w.held →
      ((∃ e, (v.call c).1 = .error e) ∧ (v.call c).2.held = w.held) ∨
        ∃ version, (v.call c).2.held = w.held.after version c := by
    intro v hv
    rcases v.call_cases c with ⟨e, hr, hheld⟩ | ⟨-, version, hheld⟩
    · exact .inl ⟨⟨e, hr⟩, by rw [hheld, hv]⟩
    · exact .inr ⟨version, by rw [hheld, hv]⟩
  cases h with
  | performed held => exact hcall _ held
  | failed held => exact .inl ⟨⟨_, rfl⟩, held⟩
  | unsure held =>
    -- only the answer is lost; the effect is that of the call
    rcases hcall _ held with ⟨-, hheld⟩ | hheld
    · exact .inl ⟨⟨_, rfl⟩, hheld⟩
    · exact .inr hheld

end World

/-- Ways of answering that are all among those of an unreliable cluster. -/
def Answering.Sound (R : Answering) : Prop :=
  ∀ ⦃w : World⦄ ⦃a : Step⦄ ⦃r : a.Reply⦄ ⦃w' : World⦄, R w a r w' → w.Answers a r w'

/-- All answers of an unreliable cluster are among them. -/
theorem sound_answers : Answering.Sound World.Answers :=
  fun _ _ _ _ h => h

/-- So are those of one that does not deny a filter. -/
theorem sound_answersTruly : Answering.Sound World.AnswersTruly :=
  fun _ _ _ _ h => h.1

/-- Ways of answering that do not deny a filter that is there. -/
def Answering.Truthful (R : Answering) : Prop :=
  ∀ ⦃w : World⦄ ⦃a : Step⦄ ⦃r : a.Reply⦄ ⦃w' : World⦄, R w a r w' → World.SaysTruly a r w'

/-- The latter are truthful by what they are. -/
theorem truthful_answersTruly : Answering.Truthful World.AnswersTruly :=
  fun _ _ _ _ h => h.2

/-! ## Steps that change nothing that is held

What is held by the cluster and by the program stays as it is over them. -/

/-- Steps that leave alone what is held: all that look, and those that only the cluster or the
counts take note of. -/
def Step.isQuiet : Step → Bool
  | isInterested _ | allInterested | findEntry _ | readEntry _ | findApplied _ | findWritten _ =>
      true
  | count _ | subsetsOf _ | sendQueries _ | receiveAnswers _ => true
  | call (.service _) | call (.pods _ _) | call (.filter _) | call (.configMap _) => true
  | call (.patchStatus _ _) => true
  | _ => false

namespace World

variable {w w' : World}

/-- That queries were asked changes nothing that is held. -/
theorem held_note_queries (texts : List String) (w : World) :
    (texts.foldl (fun w t => w.note ("query " ++ t)) w).held = w.held := by
  induction texts generalizing w with
  | nil => rfl
  | cons t ts ih => exact ih _

/-- An answer to a quiet step leaves the same things held. -/
theorem Answers.held_of_isQuiet {a : Step} {r : a.Reply} (h : w.Answers a r w')
    (ha : a.isQuiet = true) : w'.held = w.held := by
  cases a with
  | call c =>
    rcases h.call with ⟨-, hheld⟩ | ⟨version, hheld⟩
    · exact hheld
    · -- a call that only looks has no effect to speak of
      rw [hheld]
      cases c with
      | service | pods | filter | configMap | patchStatus => rfl
      | _ => simp [Step.isQuiet] at ha
  | sendQueries texts =>
    cases h with
    | performed held => rw [← held]; exact held_note_queries texts _
  | isInterested | allInterested | findEntry | readEntry | findApplied | findWritten | count
  | subsetsOf | receiveAnswers =>
    cases h with
    | performed held => exact held
  | _ => simp [Step.isQuiet] at ha

/-! ## What the replies tell

A step that looks is answered with what is held then, since nobody else writes it. A call is
answered so only if it is answered at all. -/

/-- Whether a limiter is of interest is told as it is. -/
theorem Answers.isInterested {id : ResourceId} {r : Bool} (h : w.Answers (.isInterested id) r w') :
    r = w.held.interest.contains id := by
  cases h with
  | performed held => rw [← held]; rfl

/-- The entry of a limiter is found as it is. -/
theorem Answers.findEntry {id : ResourceId} {r : Option EntryId}
    (h : w.Answers (.findEntry id) r w') : r = w.held.store.find? id := by
  cases h with
  | performed held => rw [← held]; rfl

/-- An entry is read as it is. -/
theorem Answers.readEntry {e : EntryId} {r : Entry} (h : w.Answers (.readEntry e) r w') :
    r = w.held.store.get e := by
  cases h with
  | performed held => rw [← held]; rfl

/-- What was applied last is found as it was noted. -/
theorem Answers.findApplied {id : ResourceId} {r : Option Applied}
    (h : w.Answers (.findApplied id) r w') : r = w.held.applied[id]? := by
  cases h with
  | performed held => rw [← held]; rfl

/-- The subsets that were noted are found as they were. -/
theorem Answers.findWritten {id : ResourceId} {r : SubsetNames}
    (h : w.Answers (.findWritten id) r w') : r = w.held.written.getD id ∅ := by
  cases h with
  | performed held => rw [← held]; rfl

/-- A call that is answered has been performed by the cluster as it was. -/
theorem Answers.reply_of_ok {c : ClusterCall} {x : c.Answer} (h : w.Answers (.call c) (.ok x) w') :
    ∃ v : World, v.held = w.held ∧ (v.cluster.perform c).1 = .ok x := by
  generalize hreply : (Except.ok x : c.Reply) = r at h
  cases h with
  | performed held =>
    rename_i v
    have hreply : Except.ok x = (v.call c).1 := hreply
    rcases v.call_cases c with ⟨e, he, -⟩ | ⟨hr, -⟩
    · rw [he] at hreply
      cases hreply
    · exact ⟨v, held, hr.symm⟩
  | failed => cases hreply
  | unsure => cases hreply

/-- A filter that is read is the one that is there. -/
theorem Answers.filter {p : ResourceId} {x : Option ProxyFilter}
    (h : w.Answers (.call (.filter p)) (.ok x) w') : x = w.held.filters[p]? := by
  obtain ⟨v, held, hx⟩ := h.reply_of_ok
  rw [← held]
  exact (Except.ok.inj hx).symm

/-- Named texts that are read are those that are there. -/
theorem Answers.configMap {p : ResourceId} {x : Option ConfigMap}
    (h : w.Answers (.call (.configMap p)) (.ok x) w') : x = w.held.configMaps[p]? := by
  obtain ⟨v, held, hx⟩ := h.reply_of_ok
  rw [← held]
  exact (Except.ok.inj hx).symm

/-! ## What the other steps change

Each of these steps changes one part of what is held, and leaves the rest. -/

/-- A limiter comes to be of interest. -/
theorem Answers.addInterest {id : ResourceId} {r : Unit} (h : w.Answers (.addInterest id) r w') :
    w'.held = { w.held with interest := w.held.interest.insert id } := by
  cases h with
  | performed held => rw [← held]; rfl

/-- A limiter is of interest no longer. -/
theorem Answers.dropInterest {id : ResourceId} {r : Unit} (h : w.Answers (.dropInterest id) r w') :
    w'.held = { w.held with interest := w.held.interest.erase id } := by
  cases h with
  | performed held => rw [← held]; rfl

/-- The entry of a limiter, made if there is none. -/
theorem Answers.makeEntry {id : ResourceId} {r : EntryId} (h : w.Answers (.makeEntry id) r w') :
    r = (w.held.store.entry id).1 ∧
      w'.held = { w.held with store := (w.held.store.entry id).2 } := by
  cases h with
  | performed held => rw [← held]; exact ⟨rfl, rfl⟩

/-- The entry of a limiter is taken out of the store. -/
theorem Answers.removeEntry {id : ResourceId} {r : Unit} (h : w.Answers (.removeEntry id) r w') :
    w'.held = { w.held with store := (w.held.store.remove id).2 } := by
  cases h with
  | performed held => rw [← held]; rfl

/-- A material is put into an entry, and its revision is told. -/
theorem Answers.updateEntry {e : EntryId} {m : Material} {r : Nat}
    (h : w.Answers (.updateEntry e m) r w') : r = (w.held.store.update e m).1 ∧
      w'.held = { w.held with store := (w.held.store.update e m).2 } := by
  cases h with
  | performed held => rw [← held]; exact ⟨rfl, rfl⟩

/-- What was applied is noted, or forgotten. -/
theorem Answers.setApplied {id : ResourceId} {a : Option Applied} {r : Unit}
    (h : w.Answers (.setApplied id a) r w') :
    w'.held = { w.held with applied := setKey w.held.applied id a } := by
  cases h with
  | performed held => rw [← held]; rfl

/-- The subsets with filters are noted, or forgotten. -/
theorem Answers.setWritten {id : ResourceId} {s : Option SubsetNames} {r : Unit}
    (h : w.Answers (.setWritten id s) r w') :
    w'.held = { w.held with written := setKey w.held.written id s } := by
  cases h with
  | performed held => rw [← held]; rfl

end World

end MeshLimiter
