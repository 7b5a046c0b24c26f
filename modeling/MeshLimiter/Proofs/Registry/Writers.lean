import MeshLimiter.Proofs.Compile.Values
import MeshLimiter.Proofs.Program.Protocol
import MeshLimiter.Proofs.Registry.Contents
/-!
# Writers of one registry

Any number of controllers merge into the same registry. They share the cluster and nothing else, so
a lock of one holds up none of the others. Each reads the registry and then writes it, and in
between the others may have written it: the cluster refuses what was made of an older text, or of
none where there is one.

* **`Registry.Writers.Reaches`**: what writers can come to, call by call and in any order;
* **`Registry.follows_merge`**: in which order a merge makes its calls, whatever they are answered;
* **`Registry.Writers.Linear`**, **`Registry.Writers.Linear.move`**: the invariant, kept by every
  move;
* **`Registry.Writers.merges_linearize`**: what has come of the registry is what the stored merges
  make of it, one after another in the order in which they were stored.
-/

namespace MeshLimiter

/-! ## Versions of the cluster

The cluster numbers its versions, so one that it gave out is never given out again. -/

namespace Cluster

/-- Versions that are still to be given out. -/
def IsFuture (k : Cluster) (version : Option String) : Prop :=
  ∃ n, k.version < n ∧ version = some (Decimal.natText n)

variable {k k' : Cluster} {c : ConfigMap}

/-- The next version is still to come. -/
theorem isFuture_nextVersion (k : Cluster) : k.IsFuture (some k.nextVersion) :=
  ⟨k.version + 1, Nat.lt_succ_self _, rfl⟩

/-- What is to come later was to come before. -/
theorem IsFuture.before {version : Option String} (h : k'.IsFuture version)
    (hversion : k.version ≤ k'.version) : k.IsFuture version := by
  obtain ⟨n, hn, rfl⟩ := h
  exact ⟨n, Nat.lt_of_le_of_lt hversion hn, rfl⟩

/-- Once given out it is not to come any more. -/
theorem not_isFuture_stored (k : Cluster) (c : ConfigMap) :
    ¬ (k.storeConfigMap c).IsFuture (some k.nextVersion) := by
  rintro ⟨n, hn, hversion⟩
  have heq : k.version + 1 = n := Decimal.natText_inj (Option.some.inj hversion)
  have hlt : k.version + 1 < n := hn
  omega

/-- A creation succeeds where there was nothing. -/
theorem of_perform_createConfigMap {a : Unit} (h : k.perform (.createConfigMap c) = (.ok a, k')) :
    k.configMaps[c.metadata.id]? = none ∧ k' = k.storeConfigMap c := by
  have h : create k.configMaps[c.metadata.id]? (k.storeConfigMap c) k = (.ok a, k') := h
  cases hcurrent : k.configMaps[c.metadata.id]? with
  | none =>
    rw [hcurrent] at h
    exact ⟨rfl, (Prod.mk.inj h).2.symm⟩
  | some old =>
    rw [hcurrent] at h
    cases (Prod.mk.inj h).1

/-- A replacement succeeds where the version is the one that there was. -/
theorem of_perform_replaceConfigMap {a : Unit} (h : k.perform (.replaceConfigMap c) = (.ok a, k')) :
    (∃ old, k.configMaps[c.metadata.id]? = some old ∧
      old.metadata.resourceVersion = c.metadata.resourceVersion) ∧ k' = k.storeConfigMap c := by
  have h : replace (fun m : ConfigMap => m.metadata.resourceVersion) k.configMaps[c.metadata.id]? c
    (k.storeConfigMap c) k = (.ok a, k') := h
  cases hcurrent : k.configMaps[c.metadata.id]? with
  | none =>
    rw [hcurrent] at h
    cases (Prod.mk.inj h).1
  | some old =>
    rw [hcurrent] at h
    unfold replace at h
    dsimp only at h
    split at h
    · next hversion => exact ⟨⟨old, rfl, hversion⟩, (Prod.mk.inj h).2.symm⟩
    · cases (Prod.mk.inj h).1

theorem getElem?_storeConfigMap (k : Cluster) (c : ConfigMap) :
    (k.storeConfigMap c).configMaps[c.metadata.id]? = some (c.atVersion k.nextVersion) :=
  Std.ExtTreeMap.getElem?_insert_self

end Cluster

/-- Whether a command is a call to the cluster. -/
def Command.isCall : Command → Bool
  | step (.call _) => true
  | _ => false

namespace Registry

/-! ## Writers

Each is at one merge at a time, with the commands that are left of it. What it does is told of in a
log that they share. -/

def Merging.program (m : Merging) : Program (Except PassError Bool) :=
  (merge m.settings m.service m.descriptors).run

/-- Something that a writer did. -/
inductive Deed where
  | began
  | read (found : Option ConfigMap)
  /-- A write had its effect, and may or may not have been answered. -/
  | stored (m : Merging)
  | refused

/-- A writer: the merge that it is at, and what is left to do of it. -/
structure Writer where
  merging : Merging
  left : Program (Except PassError Bool)

/-- Writers with the cluster that they share, and what they did, the last first. One that has not
begun on anything is at no merge. -/
structure Writers (τ : Type) where
  cluster : Cluster
  writer : τ → Option Writer
  log : List (τ × Deed)

namespace Writers

variable {τ : Type}

/-- The merges that were stored, in order. -/
def written : List (τ × Deed) → List Merging
  | [] => []
  | (_, .stored m) :: log => written log ++ [m]
  | _ :: log => written log

/-- How a command may be served: with what reply, what comes of the cluster, and what is told of it.
A call may fail, and one that was made may go without an answer. -/
inductive Serves (m : Merging) (k : Cluster) :
    (c : Command) → c.Reply → Cluster → Option Deed → Prop where
  | read (id : ResourceId) :
    Serves m k (.step (.call (.configMap id))) (.ok k.configMaps[id]?) k
      (some (.read k.configMaps[id]?))
  | unread (id : ResourceId) (e : ClusterError) :
    Serves m k (.step (.call (.configMap id))) (.error e) k none
  | stored {call : ClusterCall} {a : call.Answer} {k' : Cluster} (writes : call.writesTexts = true)
    (accepted : k.perform call = (.ok a, k')) {r : call.Reply}
      (told : r = .ok a ∨ ∃ e, r = .error e) :
    Serves m k (.step (.call call)) r k' (some (.stored m))
  | refused {call : ClusterCall} (writes : call.writesTexts = true) (e : ClusterError) :
    Serves m k (.step (.call call)) (.error e) k (some .refused)
  | aside {c : Command} (aside : c.isCall = false) (r : c.Reply) : Serves m k c r k none

variable [DecidableEq τ]

/-- What a writer did since it began on the merge that it is at, the last first. -/
def since (t : τ) : List (τ × Deed) → List Deed
  | [] => []
  | (u, .began) :: log => if u = t then [] else since t log
  | (u, d) :: log => if u = t then d :: since t log else since t log

/-- A writer goes on with a merge, after something that is told of or not. -/
def after (x : Writers τ) (t : τ) (m : Merging) (left : Program (Except PassError Bool))
    (k : Cluster) (deed : Option Deed) : Writers τ :=
  { cluster := k
    writer := Function.update x.writer t (some ⟨m, left⟩)
    log := (deed.map fun d => (t, d)).toList ++ x.log }

/-- A single move, where the registry is kept in one place. -/
inductive Move (place : ResourceId) (x : Writers τ) : Writers τ → Prop where
  /-- A writer that is at no merge, or has ended one, begins on the next. -/
  | begins {t : τ} {m : Merging} (idle : ∀ w, x.writer t = some w → ∃ y, w.left = .done y)
    (here : m.settings.registry = place) : Move place x
      (x.after t m m.program x.cluster (some .began))
  /-- A writer gets its next command served. -/
  | acts {t : τ} {m : Merging} {c : Command} {next : c.Reply → Program (Except PassError Bool)}
    {r : c.Reply} {k : Cluster} {deed : Option Deed} (asks : x.writer t = some ⟨m, .ask c next⟩)
    (serves : Serves m x.cluster c r k deed) : Move place x (x.after t m (next r) k deed)
  /-- Something else in the cluster changes. -/
  | outside {k : Cluster} (same : k.configMaps[place]? = x.cluster.configMaps[place]?)
    (version : x.cluster.version ≤ k.version) : Move place x { x with cluster := k }

/-- What is reached by moves. -/
inductive Reaches (place : ResourceId) (x : Writers τ) : Writers τ → Prop where
  | refl : Reaches place x x
  | snoc {y z : Writers τ} (before : Reaches place x y) (move : Move place y z) : Reaches place x z

/-- A cluster before any writer has begun. -/
def start (k : Cluster) : Writers τ :=
  { cluster := k, writer := fun _ => none, log := [] }

variable {place : ResourceId} {x y : Writers τ} {t u : τ} {d : Deed} {log : List (τ × Deed)}

omit [DecidableEq τ] in
/-- Nothing that was stored is taken back. -/
theorem written_prefix_cons (entry : τ × Deed) (log : List (τ × Deed)) :
    written log <+: written (entry :: log) := by
  obtain ⟨t, d⟩ := entry
  cases d with
  | stored m => exact List.prefix_append _ _
  | began | read | refused => exact List.prefix_rfl

/-- Deeds of others do not count. -/
theorem since_of_ne (h : u ≠ t) : since t ((u, d) :: log) = since t log := by
  cases d <;> exact if_neg h

theorem since_read {found : Option ConfigMap} :
    since t ((t, .read found) :: log) = .read found :: since t log :=
  if_pos rfl

theorem since_stored {m : Merging} : since t ((t, .stored m) :: log) = .stored m :: since t log :=
  if_pos rfl

theorem since_refused : since t ((t, .refused) :: log) = .refused :: since t log :=
  if_pos rfl

theorem since_began : since t ((t, .began) :: log) = [] :=
  if_pos rfl

/-- A move stores one merge or none. -/
theorem Move.written_prefix (h : Move place x y) : written x.log <+: written y.log := by
  cases h with
  | begins => exact written_prefix_cons _ _
  | @acts t m c next r k deed asks serves =>
    cases deed with
    | none => exact List.prefix_rfl
    | some d => exact written_prefix_cons _ _
  | outside => exact List.prefix_rfl

end Writers

/-! ## In which order a merge makes its calls

It reads the registry, writes it unless there is nothing to change, and ends. -/

open Program (Follows)

/-- Where a merge is. -/
inductive Standing where
  | ready
  | knows (found : Option ConfigMap)
  | wrote
  | failed

namespace Standing

/-- Once the registry was asked for. -/
def ofGot : Except ClusterError (Option ConfigMap) → Standing
  | .ok found => knows found
  | .error _ => ready

/-- Once the registry was to be written. -/
def ofReply {α : Type} : Except ClusterError α → Standing
  | .ok _ => wrote
  | .error _ => failed

end Standing

/-- Where the commands of a merge lead, once they are replied to. -/
inductive Leads (m : Merging) : Protocol Standing where
  | aside {φ : Standing} {c : Command} (aside : c.isCall = false) (r : c.Reply) : Leads m φ c r φ
  | get (r : Except ClusterError (Option ConfigMap)) :
    Leads m .ready (.step (.call (.configMap m.settings.registry))) r (.ofGot r)
  | write {found : Option ConfigMap} {call : ClusterCall}
    (unsettled : ¬ Settled m.settings m.service m.descriptors found)
    (writes : mergeWrite? m.settings m.service m.descriptors found = some call) (r : call.Reply) :
    Leads m (.knows found) (.step (.call call)) r (.ofReply r)

/-- How a merge ends: it says whether it wrote the registry, or fails. -/
def Ends (m : Merging) : Except PassError Bool → Standing → Prop
  | .ok true, φ => φ = .wrote
  | .ok false, φ => ∃ found, φ = .knows found ∧ Settled m.settings m.service m.descriptors found
  | .error _, _ => True

/-- **A merge reads the registry once and then writes it at most once**, from what it has read. -/
theorem follows_merge (m : Merging) : m.program.Follows (Leads m) (Ends m) .ready := by
  have hroute : Route m.settings m.service m.descriptors (Leads m) (Ends m) .ready .ready .ofGot
      (fun _ => .ofReply) :=
    { lock := .aside rfl _
      get := .get
      write := fun _ _ r hunsettled hwrite => .write hunsettled hwrite r
      count := fun _ _ _ => .aside rfl _
      unread := fun _ => ⟨_, .aside rfl _, trivial⟩
      unreadable := fun _ _ => ⟨_, .aside rfl _, trivial⟩
      settled := fun found hsettled => ⟨_, .aside rfl _, found, rfl, hsettled⟩
      failed := fun _ _ => ⟨_, .aside rfl _, trivial⟩
      wrote := fun _ _ => ⟨_, .aside rfl _, rfl⟩ }
  exact hroute.follows

/-! ## The invariant

Whoever has read a text may write only while it is the current one, since the cluster compares
versions. So a merge that is stored was made of what there was. -/

namespace Writers

variable {τ : Type} [DecidableEq τ] {place : ResourceId} {x y : Writers τ} {t u : τ}

/-- A text that was the current one at some time: it is so still, or its version has passed. -/
structure Seen (k : Cluster) (place : ResourceId) (c : ConfigMap) : Prop where
  id : c.metadata.id = place
  past : ¬ k.IsFuture c.metadata.resourceVersion
  same : ∀ current, k.configMaps[place]? = some current →
    current.metadata.resourceVersion = c.metadata.resourceVersion → current = c

namespace Seen

variable {k k' : Cluster} {place : ResourceId} {c stored : ConfigMap}

/-- While the text stays, it is seen as before. -/
theorem later (h : Seen k place c) (hsame : k'.configMaps[place]? = k.configMaps[place]?)
    (hversion : k.version ≤ k'.version) : Seen k' place c where
  id := h.id
  past hfuture := h.past (hfuture.before hversion)
  same := by rw [hsame]; exact h.same

/-- A new text has a version that no one has seen. -/
theorem store (h : Seen k place c) (hid : stored.metadata.id = place) :
    Seen (k.storeConfigMap stored) place c where
  id := h.id
  past hfuture := h.past (hfuture.before (Nat.le_succ _))
  same current hcurrent hversion := by
    rw [← hid, Cluster.getElem?_storeConfigMap] at hcurrent
    obtain rfl := Option.some.inj hcurrent
    refine absurd ?_ h.past
    rw [← hversion]
    exact k.isFuture_nextVersion

/-- What was just stored is the current text. -/
theorem ofStored (k : Cluster) (hid : stored.metadata.id = place) :
    Seen (k.storeConfigMap stored) place (stored.atVersion k.nextVersion) where
  id := hid
  past := k.not_isFuture_stored stored
  same current hcurrent _ := by
    rw [← hid, Cluster.getElem?_storeConfigMap] at hcurrent
    exact (Option.some.inj hcurrent).symm

end Seen

/-- **A write is accepted only if the text is still the one that was read.** -/
theorem current_of_accepted {k k' : Cluster} {place : ResourceId} {m : Merging}
    {found : Option ConfigMap}
    {call : ClusterCall} {a : call.Answer} (hplace : m.settings.registry = place)
    (hseen : ∀ c, found = some c → Seen k place c)
    (hunsettled : ¬ Settled m.settings m.service m.descriptors found)
    (hwrite : mergeWrite? m.settings m.service m.descriptors found = some call)
    (haccepted : k.perform call = (.ok a, k')) :
    found = k.configMaps[place]? ∧ ∃ (r : Registry) (c : ConfigMap),
      (Contents.of found).merge m = .holds r ∧ (r.writtenInto c).metadata.id = place ∧
        k' = k.storeConfigMap (r.writtenInto c) := by
  obtain ⟨r, c, hmerge, ⟨rfl, rfl, hid⟩ | ⟨rfl, rfl⟩⟩ := Contents.merge_of_write hunsettled hwrite
  · -- there was no text, and there is none
    obtain ⟨hnone, rfl⟩ := Cluster.of_perform_createConfigMap haccepted
    have hid : (r.writtenInto c).metadata.id = place := hid.trans hplace
    rw [hid] at hnone
    exact ⟨hnone.symm, r, c, hmerge, hid, rfl⟩
  · -- the text of that version is the one that was read
    obtain ⟨⟨old, hold, hversion⟩, rfl⟩ := Cluster.of_perform_replaceConfigMap haccepted
    have hid : (r.writtenInto c).metadata.id = place := (hseen c rfl).id
    rw [hid] at hold
    obtain rfl := (hseen c rfl).same old hold hversion
    exact ⟨hold.symm, r, old, hmerge, hid, rfl⟩

/-- What is told of a writer where it stands. What it has read was the current text. -/
def Told (k : Cluster) (place : ResourceId) (m : Merging) : Standing → List Deed → Prop
  | .ready, ds => ds = []
  | .knows found, ds => ds = [.read found] ∧ ∀ c, found = some c → Seen k place c
  | .wrote, ds => ∃ found, ds = [.stored m, .read found]
  | .failed, ds => ∃ found, ds = [.stored m, .read found] ∨ ds = [.refused, .read found]

/-- What was told stays told. -/
theorem Told.mono {k k' : Cluster} {place : ResourceId} {m : Merging} {φ : Standing}
    {ds : List Deed}
    (h : Told k place m φ ds) (hseen : ∀ c, Seen k place c → Seen k' place c) :
    Told k' place m φ ds := by
  cases φ with
  | knows found => exact ⟨h.1, fun c hc => hseen c (h.2 c hc)⟩
  | ready | wrote | failed => exact h

/-- A writer stands where its deeds have led it, with that left to do. -/
def Stands (k : Cluster) (place : ResourceId) (w : Writer) (ds : List Deed) : Prop :=
  w.merging.settings.registry = place ∧
    ∃ φ, w.left.Follows (Leads w.merging) (Ends w.merging) φ ∧ Told k place w.merging φ ds

/-- **The invariant.** The stored merges make of what there was what there is, and whoever has read
the registry has read what those before had made of it. -/
structure Linear (place : ResourceId) (d₀ : Contents) (x : Writers τ) : Prop where
  contents : Contents.of x.cluster.configMaps[place]? = d₀.mergeAll (written x.log)
  reads : ∀ t found earlier, (t, .read found) :: earlier <:+ x.log →
    Contents.of found = d₀.mergeAll (written earlier)
  readable : written x.log ≠ [] → d₀ ≠ .unreadable
  current : ∀ c, x.cluster.configMaps[place]? = some c → Seen x.cluster place c
  stands : ∀ t w, x.writer t = some w → Stands x.cluster place w (since t x.log)

/-- What is stored by the merges, one after another, is read back as it was written. -/
def ReadBack (d₀ : Contents) (ms : List Merging) : Prop :=
  ∀ us r, us <+: ms → us ≠ [] → d₀.mergeAll us = .holds r → ofYaml? r.toYaml = some r

namespace Linear

variable {d₀ : Contents} {m : Merging} {left : Program (Except PassError Bool)} {k : Cluster}
  {deed : Option Deed}

/-- The others stand where they stood. -/
theorem stands_after (h : Linear place d₀ x) (hseen : ∀ c, Seen x.cluster place c → Seen k place c)
    (hself : Stands k place ⟨m, left⟩ (since t (x.after t m left k deed).log)) :
    ∀ u w, (x.after t m left k deed).writer u = some w →
      Stands k place w (since u (x.after t m left k deed).log) := by
  intro u w hw
  have hw : Function.update x.writer t (some ⟨m, left⟩) u = some w := hw
  -- the deed is a new event for `t` only
  by_cases hu : u = t
  · subst hu
    rw [Function.update_self] at hw
    obtain rfl := Option.some.inj hw
    exact hself
  · rw [Function.update_of_ne hu] at hw
    obtain ⟨hplace, φ, hfollows, htold⟩ := h.stands u w hw
    have hsince : since u (x.after t m left k deed).log = since u x.log := by
      cases deed with
      | none => rfl
      | some d => exact since_of_ne (Ne.symm hu)
    rw [hsince]
    exact ⟨hplace, φ, hfollows, htold.mono hseen⟩

/-- What has been read was the current text. -/
theorem reads_after (h : Linear place d₀ x)
    (hread : ∀ found, deed = some (.read found) → found = x.cluster.configMaps[place]?) :
    ∀ u found earlier, (u, .read found) :: earlier <:+ (x.after t m left k deed).log →
      Contents.of found = d₀.mergeAll (written earlier) := by
  intro u found earlier hsuffix
  cases deed with
  | none => exact h.reads u found earlier hsuffix
  | some d =>
    have hsuffix : (u, .read found) :: earlier <:+ (t, d) :: x.log := hsuffix
    rcases List.suffix_cons_iff.1 hsuffix with heq | hsuffix
    · -- it is the read that was just made
      obtain ⟨hd, rfl⟩ := List.cons.inj heq
      obtain ⟨-, rfl⟩ := Prod.mk.inj hd
      rw [hread found rfl]
      exact h.contents
    · exact h.reads u found earlier hsuffix

/-- A move that stores nothing. -/
theorem quiet (h : Linear place d₀ x) (hdeed : ∀ n, deed ≠ some (.stored n))
    (hread : ∀ found, deed = some (.read found) → found = x.cluster.configMaps[place]?)
    (hself : Stands x.cluster place ⟨m, left⟩ (since t (x.after t m left x.cluster deed).log)) :
    Linear place d₀ (x.after t m left x.cluster deed) := by
  -- the order of writes grows with a stored document only
  have hwritten : written (x.after t m left x.cluster deed).log = written x.log := by
    cases deed with
    | none => rfl
    | some d =>
      cases d with
      | stored n => exact absurd rfl (hdeed n)
      | began | read | refused => rfl
  exact
    { contents := by rw [hwritten]; exact h.contents
      reads := h.reads_after hread
      readable := by rw [hwritten]; exact h.readable
      current := h.current
      stands := h.stands_after (fun _ => id) hself }

/-- A write is stored. -/
theorem store (h : Linear place d₀ x) {c : ConfigMap} (hid : c.metadata.id = place)
    (hof : Contents.of (some (c.atVersion x.cluster.nextVersion))
      = (Contents.of x.cluster.configMaps[place]?).merge m)
    (hreadable : d₀ ≠ .unreadable)
    (hself : Stands (x.cluster.storeConfigMap c) place ⟨m, left⟩ (.stored m :: since t x.log)) :
    Linear place d₀ (x.after t m left (x.cluster.storeConfigMap c) (some (.stored m))) := by
  -- what is stored is what there is from now on
  have hcurrent : (x.cluster.storeConfigMap c).configMaps[place]?
      = some (c.atVersion x.cluster.nextVersion) := by
    rw [← hid]
    exact Cluster.getElem?_storeConfigMap _ _
  refine
    { contents := ?_
      reads := h.reads_after (fun _ h => by cases h)
      readable := fun _ => hreadable
      current := fun c' hc' => ?_
      stands := h.stands_after (fun _ hseen => hseen.store hid) ?_ }
  · show Contents.of (x.cluster.storeConfigMap c).configMaps[place]?
        = d₀.mergeAll (written x.log ++ [m])
    rw [hcurrent, hof, h.contents, Contents.mergeAll_snoc]
  · have hc' : (x.cluster.storeConfigMap c).configMaps[place]? = some c' := hc'
    rw [hcurrent] at hc'
    obtain rfl := Option.some.inj hc'
    exact .ofStored x.cluster hid
  · show Stands _ _ _ (since t ((t, .stored m) :: x.log))
    rw [since_stored]
    exact hself

/-- The registry is asked for. -/
theorem asked (h : Linear place d₀ x) (hplace : m.settings.registry = place)
    (htold : Told x.cluster place m .ready (since t x.log))
    {r : Except ClusterError (Option ConfigMap)}
    (serves : Serves m x.cluster (.step (.call (.configMap m.settings.registry))) r k deed)
    (hleft : left.Follows (Leads m) (Ends m) (.ofGot r)) :
    Linear place d₀ (x.after t m left k deed) := by
  have htold : since t x.log = [] := htold
  -- the read is what the cluster holds now, so it is the current document until another writer
  -- stores
  cases serves with
  | read =>
    subst hplace
    refine h.quiet (fun _ h => by cases h) (fun found hfound => ?_)
      ⟨rfl, _, hleft, ?_, fun c hc => h.current c hc⟩
    · exact (Deed.read.inj (Option.some.inj hfound)).symm
    · show since t ((t, .read _) :: x.log) = _
      rw [since_read, htold]
  | unread =>
    exact h.quiet (fun _ h => by cases h) (fun _ h => by cases h) ⟨hplace, _, hleft, htold⟩
  | stored writes => cases writes
  | refused writes => cases writes
  | aside haside => cases haside

/-- What was made of the registry is to be written. -/
theorem wrote (h : Linear place d₀ x) (hplace : m.settings.registry = place)
    {found : Option ConfigMap}
    (htold : Told x.cluster place m (.knows found) (since t x.log)) {call : ClusterCall}
    (hunsettled : ¬ Settled m.settings m.service m.descriptors found)
    (hwrite : mergeWrite? m.settings m.service m.descriptors found = some call) {r : call.Reply}
    (serves : Serves m x.cluster (.step (.call call)) r k deed)
    (hleft : left.Follows (Leads m) (Ends m) (.ofReply r))
    (hback : ReadBack d₀ (written (x.after t m left k deed).log)) :
    Linear place d₀ (x.after t m left k deed) := by
  obtain ⟨hdeeds, hseen⟩ := htold
  have htexts := writesTexts_of_mergeWrite? hwrite
  cases serves with
  | read | unread => cases htexts
  | aside haside => cases haside
  | refused =>
    refine h.quiet (fun _ h => by cases h) (fun _ h => by cases h)
      ⟨hplace, _, hleft, found, .inr ?_⟩
    show since t ((t, .refused) :: x.log) = _
    rw [since_refused, hdeeds]
  | @stored _ a _ _ haccepted _ told =>
    obtain ⟨hfound, new, c, hmerge, hid, rfl⟩ :=
      current_of_accepted hplace hseen hunsettled hwrite haccepted
    have hholds : d₀.mergeAll (written x.log ++ [m]) = .holds new := by
      rw [Contents.mergeAll_snoc, ← h.contents, ← hfound]
      exact hmerge
    have hread : ofYaml? new.toYaml = some new :=
      hback _ new List.prefix_rfl (List.append_ne_nil_of_right_ne_nil _ (by simp)) hholds
    refine h.store hid ?_ ?_ ⟨hplace, _, hleft, ?_⟩
    · rw [Contents.of_writtenInto hread, ← hfound, hmerge]
    · -- nothing comes of a text that is no registry
      rintro rfl
      rw [Contents.mergeAll_unreadable] at hholds
      cases hholds
    · rcases told with rfl | ⟨e, rfl⟩
      · exact ⟨found, by rw [hdeeds]⟩
      · exact ⟨found, .inl (by rw [hdeeds])⟩

/-- A command is served, whichever it is. -/
theorem acts (h : Linear place d₀ x) {c : Command}
    {next : c.Reply → Program (Except PassError Bool)}
    {r : c.Reply} (asks : x.writer t = some ⟨m, .ask c next⟩)
    (serves : Serves m x.cluster c r k deed)
    (hback : ReadBack d₀ (written (x.after t m (next r) k deed).log)) :
    Linear place d₀ (x.after t m (next r) k deed) := by
  obtain ⟨hplace, φ, hfollows, htold⟩ := h.stands t _ asks
  have hfollows : (Program.ask c next).Follows (Leads m) (Ends m) φ := hfollows
  obtain ⟨φ', hlead, hnext⟩ := hfollows r
  -- the phase says which of the three commands is next
  cases hlead with
  | aside haside =>
    cases serves with
    | aside =>
      exact h.quiet (fun _ h => by cases h) (fun _ h => by cases h) ⟨hplace, φ, hnext, htold⟩
    | read | unread | stored | refused => cases haside
  | get => exact h.asked hplace htold serves hnext
  | write hunsettled hwrite => exact h.wrote hplace htold hunsettled hwrite serves hnext hback

/-- **Every move keeps the invariant.** -/
theorem move (h : Linear place d₀ x) (hback : ReadBack d₀ (written y.log))
    (hmove : Move place x y) :
    Linear place d₀ y := by
  cases hmove with
  | begins idle here =>
    exact h.quiet (fun _ h => by cases h) (fun _ h => by cases h)
      ⟨here, .ready, follows_merge _, since_began⟩
  | acts asks serves => exact h.acts asks serves hback
  | outside same version =>
    -- others change the cluster elsewhere
    have hseen : ∀ c, Seen x.cluster place c → Seen _ place c := fun c hc => hc.later same version
    exact
      { contents := by
          show Contents.of (_ : Cluster).configMaps[place]? = _
          rw [same]
          exact h.contents
        reads := h.reads
        readable := h.readable
        current := fun c hc => hseen c (h.current c (by rw [← same]; exact hc))
        stands := fun t w hw => by
          obtain ⟨hplace, φ, hfollows, htold⟩ := h.stands t w hw
          exact ⟨hplace, φ, hfollows, htold.mono hseen⟩ }

end Linear

/-- So is any beginning of them. -/
theorem ReadBack.mono {d₀ : Contents} {ms ns : List Merging} (h : ReadBack d₀ ns)
    (hms : ms <+: ns) :
    ReadBack d₀ ms :=
  fun us r hus => h us r (hus.trans hms)

/-- The registry of a cluster stands under its name, with a version that was given out. -/
def Kept (k : Cluster) (place : ResourceId) : Prop :=
  ∀ c, k.configMaps[place]? = some c →
    c.metadata.id = place ∧ ¬ k.IsFuture c.metadata.resourceVersion

/-- At first nothing is stored, and nobody stands anywhere. -/
theorem linear_start {k : Cluster} (h : Kept k place) :
    Linear place (Contents.of k.configMaps[place]?) (start k : Writers τ) where
  contents := rfl
  reads _ _ _ hsuffix := absurd (List.suffix_nil.1 hsuffix) (List.cons_ne_nil _ _)
  readable hne := absurd rfl hne
  current c hc :=
    { id := (h c hc).1
      past := (h c hc).2
      same := fun current hcurrent _ => by
        have heq : some c = some current := hc.symm.trans hcurrent
        exact (Option.some.inj heq).symm }
  stands _ _ hw := nomatch hw

/-- It holds of whatever is reached. -/
theorem Reaches.linear {d₀ : Contents} (hx : Linear place d₀ x) (h : Reaches place x y)
    (hback : ReadBack d₀ (written y.log)) : Linear place d₀ y := by
  induction h with
  | refl => exact hx
  | snoc _ move ih => exact (ih (hback.mono move.written_prefix)).move hback move

/-! ## What is reached

All that can be said of the writers is read off the invariant. -/

/-- What can be said of writers at any time, where `d₀` is what there was before any of them. -/
structure Linearized (place : ResourceId) (d₀ : Contents) (x : Writers τ) : Prop where
  /-- There is what the stored merges make of it, in the order in which they were stored. -/
  contents : Contents.of x.cluster.configMaps[place]? = d₀.mergeAll (written x.log)
  /-- Whoever reads the registry gets what the merges stored so far have made of it. -/
  reads : ∀ t found earlier, (t, .read found) :: earlier <:+ x.log →
    Contents.of found = d₀.mergeAll (written earlier)
  /-- A merge that says that it has not written has only read, and would change nothing of what it
  read. -/
  unchanged : ∀ t m, x.writer t = some ⟨m, .done (.ok false)⟩ → ∃ found,
    since t x.log = [.read found] ∧ Settled m.settings m.service m.descriptors found ∧
      (Contents.of found).merge m = Contents.of found
  /-- One that says that it has written was stored once. -/
  changed : ∀ t m, x.writer t = some ⟨m, .done (.ok true)⟩ → ∃ found,
    since t x.log = [.stored m, .read found]
  /-- One that was refused is not stored, and does not end as if it were. -/
  refused : ∀ t w, x.writer t = some w → .refused ∈ since t x.log →
    (∀ m, .stored m ∉ since t x.log) ∧ ∀ b, w.left ≠ .done (.ok b)
  /-- A service has the entries of its last merge that was stored. -/
  last : ∀ before m after, written x.log = before ++ m :: after → (∀ n ∈ m :: after, n.WellFormed) →
    (∀ n ∈ after, n.service ≠ m.service) →
      (Contents.of x.cluster.configMaps[place]?).entries.filter (·.belongsTo m.service)
        = m.descriptors
  /-- Entries that belong to none of these services are those from before. -/
  others : (∀ m ∈ written x.log, m.WellFormed) → ∀ p : GlobalDescriptor → Bool,
    (∀ d, p d = true → ∀ m ∈ written x.log, d.belongsTo m.service = false) →
      (Contents.of x.cluster.configMaps[place]?).entries.filter p = d₀.entries.filter p

/-- Who was refused has stored nothing, and says so. -/
theorem Linear.refused_of_mem {d₀ : Contents} (h : Linear place d₀ x) {w : Writer}
    (hw : x.writer t = some w) (hrefused : .refused ∈ since t x.log) :
    (∀ m, .stored m ∉ since t x.log) ∧ ∀ b, w.left ≠ .done (.ok b) := by
  obtain ⟨-, φ, hfollows, htold⟩ := h.stands t w hw
  cases φ with
  | ready =>
    rw [show since t x.log = [] from htold] at hrefused
    cases hrefused
  | knows found =>
    rw [htold.1] at hrefused
    simp at hrefused
  | wrote =>
    obtain ⟨found, hdeeds⟩ := htold
    rw [hdeeds] at hrefused
    simp at hrefused
  | failed =>
    obtain ⟨found, hdeeds | hdeeds⟩ := htold
    · rw [hdeeds] at hrefused
      simp at hrefused
    · refine ⟨fun m => by rw [hdeeds]; simp, fun b hb => ?_⟩
      rw [hb] at hfollows
      -- a merge that says something of its write has not failed
      cases b with
      | true => exact Standing.noConfusion hfollows
      | false =>
        obtain ⟨found, hfound, -⟩ := hfollows
        exact Standing.noConfusion hfound

/-- **Merges of any number of writers are linearizable.** Let a registry that is kept under its name
be merged into by writers that read and write it in any order, with calls that may fail or go
without an answer. If what is stored is read back as it was written, then at any time the registry
is what the stored merges make of it, one after another; and no service loses an entry to a merge
for another. -/
theorem merges_linearize {k : Cluster} {x : Writers τ} (kept : Kept k place)
    (h : Reaches place (start k) x)
    (back : ReadBack (Contents.of k.configMaps[place]?) (written x.log)) :
    Linearized place (Contents.of k.configMaps[place]?) x := by
  have hx := h.linear (linear_start kept) back
  refine
    { contents := hx.contents
      reads := hx.reads
      unchanged := fun t m hm => ?_
      changed := fun t m hm => ?_
      refused := fun t w hw => hx.refused_of_mem hw
      last := fun before m after hwritten hwf hlast => ?_
      others := fun hwf p hp => ?_ }
  · -- a merge that ends without a write had nothing to change
    obtain ⟨-, φ, ⟨found, rfl, hsettled⟩, hdeeds, -⟩ := hx.stands t _ hm
    exact ⟨found, hdeeds, hsettled, Contents.merge_of_settled hsettled⟩
  · obtain ⟨-, φ, rfl, hdeeds⟩ := hx.stands t _ hm
    exact hdeeds
  · -- the last merge of a service decides its entries
    have hne : written x.log ≠ [] := by
      rw [hwritten]
      simp
    rw [hx.contents, Contents.entries_mergeAll (hx.readable hne) "", hwritten, List.map_append,
      List.map_cons]
    refine filter_belongsTo_mergedAll "" _ _ (hwf m List.mem_cons_self) ?_ ?_
    · exact List.forall_mem_map.2 fun n hn => hwf n (List.mem_cons_of_mem m hn)
    · exact List.forall_mem_map.2 hlast
  · rw [hx.contents]
    by_cases hne : written x.log = []
    · rw [hne]
      rfl
    · rw [Contents.entries_mergeAll (hx.readable hne) ""]
      refine filter_foreign_mergedAll "" _ (List.forall_mem_map.2 hwf) fun d hd => ?_
      exact List.forall_mem_map.2 (hp d hd)

/-! ## Writers that take turns

Two writers read the same registry. The first one that writes is stored, and the other refused. -/

/-- A writer begins on a merge. -/
def begun (x : Writers τ) (t : τ) (m : Merging) : Writers τ :=
  x.after t m m.program x.cluster (some .began)

/-- A writer has a write served as the cluster performs it. -/
def put (x : Writers τ) (t : τ) (m : Merging) (c : ClusterCall)
    (next : c.Reply → Program (Except PassError Bool)) : Writers τ :=
  match x.cluster.perform c with
  | (.ok a, k) => x.after t m (next (.ok a)) k (some (.stored m))
  | (.error e, _) => x.after t m (next (.error e)) x.cluster (some .refused)

/-- A writer has its next command served, as the cluster performs it. -/
def turn (x : Writers τ) (t : τ) : Writers τ :=
  match x.writer t with
  | some ⟨m, .ask (.step (.call (.configMap id))) next⟩ =>
    x.after t m (next (.ok x.cluster.configMaps[id]?)) x.cluster
      (some (.read x.cluster.configMaps[id]?))
  | some ⟨m, .ask (.step (.call c)) next⟩ => if c.writesTexts then x.put t m c next else x
  | some ⟨m, .ask (.step (.count _)) next⟩ => x.after t m (next ()) x.cluster none
  | some ⟨m, .ask (.acquire _) next⟩ => x.after t m (next ()) x.cluster none
  | some ⟨m, .ask (.release _) next⟩ => x.after t m (next ()) x.cluster none
  | _ => x

def turns (x : Writers τ) (ts : List τ) : Writers τ :=
  ts.foldl turn x

/-- What is reached from what is reached is reached. -/
theorem Reaches.trans {z : Writers τ} (h : Reaches place x y) (h' : Reaches place y z) :
    Reaches place x z := by
  induction h' with
  | refl => exact h
  | snoc _ move ih => exact .snoc ih move

theorem reaches_begun {m : Merging} (idle : x.writer t = none)
    (here : m.settings.registry = place) : Reaches place x (x.begun t m) :=
  .snoc .refl (.begins (fun w hw => by rw [idle] at hw; cases hw) here)

theorem reaches_put {m : Merging} {c : ClusterCall}
    {next : c.Reply → Program (Except PassError Bool)}
    (asks : x.writer t = some ⟨m, .ask (.step (.call c)) next⟩) (writes : c.writesTexts = true) :
    Reaches place x (x.put t m c next) := by
  unfold put
  split
  · next a k haccepted => exact .snoc .refl (.acts asks (.stored writes haccepted (.inl rfl)))
  · exact .snoc .refl (.acts asks (.refused writes _))

/-- A turn is a move, or nothing happens. -/
theorem reaches_turn (x : Writers τ) (t : τ) : Reaches place x (x.turn t) := by
  unfold turn
  split
  · next asks => exact .snoc .refl (.acts asks (.read _))
  · next asks =>
    split
    · next writes => exact reaches_put asks writes
    · exact .refl
  · next asks => exact .snoc .refl (.acts asks (.aside rfl _))
  · next asks => exact .snoc .refl (.acts asks (.aside rfl _))
  · next asks => exact .snoc .refl (.acts asks (.aside rfl _))
  · exact .refl

/-- So are turns one after another. -/
theorem reaches_turns (x : Writers τ) (ts : List τ) : Reaches place x (x.turns ts) := by
  induction ts generalizing x with
  | nil => exact .refl
  | cons t ts ih => exact (reaches_turn x t).trans (ih _)

/-- A merge with an entry of a service. -/
def mergingFor (name : String) : Merging :=
  { Replacement.ofConditions { ns := "shop", name } ["a"] with settings := {} }

/-- A cluster with a registry that has no text yet. -/
def blankRegistry : Cluster :=
  ({} : Cluster).storeConfigMap { metadata := (firstOf {} []).metadata }

/-- Two writers read the registry before either of them writes it. -/
def bothRead : Writers Bool :=
  (((start blankRegistry).begun false (mergingFor "reviews")).begun true
    (mergingFor "ratings")).turns [false, false, true, true]

/-- The first one writes it, then the other would. -/
def raced : Writers Bool :=
  bothRead.turns [false, true, false, false, true]

theorem merges_linearize_raced :
    (Contents.of raced.cluster.configMaps[({} : Settings).registry]?).entries.filter
        (·.belongsTo (mergingFor "reviews").service) = (mergingFor "reviews").descriptors ∧
      (∀ m, .stored m ∉ since true raced.log) ∧
      raced.writer true = some ⟨mergingFor "ratings", .done (.error (.cluster .conflict))⟩ := by
  have hwritten : written raced.log = [mergingFor "reviews"] := by with_unfolding_all rfl
  have hwriter : raced.writer true
      = some ⟨mergingFor "ratings", .done (.error (.cluster .conflict))⟩ := by
      with_unfolding_all rfl
  have hrefused : (since true raced.log).head? = some .refused := by with_unfolding_all rfl
  have hfirst : Reaches ({} : Settings).registry (start blankRegistry)
      ((start blankRegistry).begun false (mergingFor "reviews")) := reaches_begun rfl rfl
  have hboth : Reaches ({} : Settings).registry (start blankRegistry)
      (((start blankRegistry).begun false (mergingFor "reviews")).begun true
        (mergingFor "ratings")) :=
    hfirst.trans (reaches_begun rfl rfl)
  -- both begin, both read, and both write
  have hreaches : Reaches ({} : Settings).registry (start blankRegistry) raced :=
    (hboth.trans (reaches_turns _ _)).trans (reaches_turns _ _)
  have hkept : Kept blankRegistry ({} : Settings).registry := by
    intro c hc
    have hstored : blankRegistry.configMaps[({} : Settings).registry]? = some _ :=
      Cluster.getElem?_storeConfigMap {} { metadata := (firstOf {} []).metadata }
    rw [hstored] at hc
    obtain rfl := Option.some.inj hc
    exact ⟨rfl, Cluster.not_isFuture_stored {} _⟩
  have hback : ReadBack (Contents.of blankRegistry.configMaps[({} : Settings).registry]?)
      (written raced.log) := by
    rw [hwritten]
    intro us r hus hne hr
    obtain rfl : us = [mergingFor "reviews"] := by simpa [hne] using List.prefix_cons_iff.1 hus
    have hr' : (Contents.of blankRegistry.configMaps[({} : Settings).registry]?).mergeAll
        [mergingFor "reviews"]
          = .holds { domain := "default", descriptors := (mergingFor "reviews").descriptors } := by
      with_unfolding_all rfl
    rw [hr'] at hr
    obtain rfl := Contents.holds.inj hr
    decide +kernel
  have h := merges_linearize hkept hreaches hback
  have hwellFormed : (mergingFor "reviews").WellFormed :=
    Replacement.wellFormed_ofConditions ⟨by decide, by decide, by decide, by decide, by decide⟩ _
  have hlast := h.last [] (mergingFor "reviews") [] hwritten
    (List.forall_mem_singleton.2 hwellFormed) (List.forall_mem_nil _)
  exact ⟨hlast, (h.refused true _ hwriter (List.mem_of_mem_head? hrefused)).1, hwriter⟩

end Writers

end Registry

end MeshLimiter
