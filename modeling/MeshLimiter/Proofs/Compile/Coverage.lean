import Mathlib.Data.List.Forall2
import MeshLimiter.Proofs.Compile.Agreement
import MeshLimiter.Proofs.Compile.Values
import MeshLimiter.Proofs.Text.Search
/-!
# The tables of one virtual host

A table is merged into the routes of the virtual hosts that its patch matches: those of its context,
all of them or the one of its name. Rules are put into one table if they are for the same hosts, but
hosts that are not the same may have a virtual host in common, since rules without a port are for
all virtual hosts of their context. Then that virtual host gets a table of each.

* **`VirtualHost.Covers`**: hosts that a virtual host is one of;
* **`ConfigPatch.matches_iff_covers`**: the patches for hosts match exactly the virtual hosts that
  they cover;
* **`tables_of_virtualHost`**: a virtual host gets one table for each of the hosts that rules name
  to cover it;
* **`one_table_iff`**: when there is one table for each virtual host.
-/

namespace MeshLimiter

namespace VirtualHost

/-- Hosts that a single virtual host is one of: all those of its context, or just that one. -/
def Covers (v w : VirtualHost) : Prop :=
  v.context = w.context ∧ (v.port = none ∨ v = w)

instance (v w : VirtualHost) : Decidable (v.Covers w) :=
  inferInstanceAs (Decidable (_ ∧ _))

/-- The name of a virtual host tells its direction and its port. -/
theorem nameOf_inj {direction direction' : String} {port port' : UInt16}
    (h : nameOf direction (Decimal.natText port.toNat)
      = nameOf direction' (Decimal.natText port'.toNat)) :
    direction = direction' ∧ port = port' := by
  have hbar : ∀ n, '|' ∉ (Decimal.natText n).toList.reverse := by
    intro n hmem
    rw [Decimal.natText, String.toList_ofList, List.mem_reverse] at hmem
    cases Decimal.isDigit_of_mem_natDigits hmem
  -- read backwards, the name is cut at its first bar
  have hcut : (Decimal.natText port.toNat).toList.reverse
      ++ '|' :: (direction ++ "|http").toList.reverse
      = (Decimal.natText port'.toNat).toList.reverse
        ++ '|' :: (direction' ++ "|http").toList.reverse := by
    simpa [nameOf] using congrArg (fun name => name.toList.reverse) h
  obtain ⟨hport, hdirection⟩ := Text.append_cons_inj_of_first (hbar _) (hbar _) hcut
  rw [List.reverse_inj, String.toList_inj] at hport hdirection
  exact ⟨(String.append_left_inj _).1 hdirection, UInt16.toNat_inj.1 (Decimal.natText_inj hport)⟩

end VirtualHost

/-! ## Patches that match a virtual host

A patch names a virtual host, or matches all in its direction. -/

namespace ConfigPatch

/-- The name of the virtual host that the place of a patch asks for, if it asks for one. -/
def vhostName? (p : ConfigPatch) : Option String := do
  (← (← (← p.place).routeConfiguration).vhost).name

/-- Whether a patch is for a virtual host with a context and a name. -/
def appliesTo (p : ConfigPatch) (context : PatchContext) (name : String) : Bool :=
  p.place.bind (·.context) = some context && p.vhostName?.all (· = name)

variable {p : ConfigPatch} {v : VirtualHost}

/-- **The patches for hosts match exactly the virtual hosts that they cover.** -/
theorem matches_iff_covers (h : p.MergedAt v) (direction : String) (port : UInt16) :
    p.appliesTo (VirtualHost.mk direction (some port)).context
        (VirtualHost.nameOf direction (Decimal.natText port.toNat)) = true ↔
      v.Covers ⟨direction, some port⟩ := by
  have hname : p.vhostName? = v.name? := by simp [vhostName?, h.place, VirtualHost.place]
  rw [appliesTo, hname, h.place]
  obtain ⟨d, port'⟩ := v
  cases port' with
  | none => simp [VirtualHost.Covers, VirtualHost.name?, VirtualHost.place]
  | some q =>
    have hsame : VirtualHost.nameOf d (Decimal.natText q.toNat)
        = VirtualHost.nameOf direction (Decimal.natText port.toNat) ↔ d = direction ∧ q = port := by
      refine ⟨VirtualHost.nameOf_inj, ?_⟩
      rintro ⟨rfl, rfl⟩
      rfl
    simp [VirtualHost.Covers, VirtualHost.name?, VirtualHost.place, hsame]

end ConfigPatch

/-- The tables that a filter has for a virtual host. -/
def FilterSpec.tablesFor (f : FilterSpec) (direction : String) (port : UInt16) : List ConfigPatch :=
  f.patches.filter fun p => p.table?.isSome &&
    p.appliesTo (VirtualHost.mk direction (some port)).context
      (VirtualHost.nameOf direction (Decimal.natText port.toNat))

/-! ## Rules that cover a virtual host

A rule for a port covers one virtual host, a rule without one all in its direction. -/

/-- The rules of a list that are counted in the proxy and cover a virtual host. -/
def coveringRules (rules : List Rule) (direction : String) (port : UInt16) : List Rule :=
  (rules.filter (!·.isShared)).filter fun r => r.vhost.Covers ⟨direction, some port⟩

theorem mem_coveringRules {rules : List Rule} {direction : String} {port : UInt16} {r : Rule} :
    r ∈ coveringRules rules direction port ↔
      r ∈ rules ∧ r.isShared = false ∧ r.vhost.Covers ⟨direction, some port⟩ := by
  rw [coveringRules, List.mem_filter, List.mem_filter, and_assoc, Bool.not_eq_true',
    decide_eq_true_iff]

namespace HostsOf

variable {rules : List Rule} {hosts : List VirtualHost}

/-- Those hosts that some are asked for belong to the rules for these. -/
theorem filter (h : HostsOf rules hosts) (q : VirtualHost → Bool) :
    HostsOf (rules.filter fun r => q r.vhost) (hosts.filter q) where
  ordered := h.ordered.filter q
  mem_iff v := by
    rw [List.mem_filter, h.mem_iff]
    constructor
    · rintro ⟨⟨r, hr, rfl⟩, hq⟩
      exact ⟨r, List.mem_filter.2 ⟨hr, hq⟩, rfl⟩
    · rintro ⟨r, hr, rfl⟩
      obtain ⟨hr, hq⟩ := List.mem_filter.1 hr
      exact ⟨⟨r, hr, rfl⟩, hq⟩

/-- There are no two hosts exactly if all rules are for the same. -/
theorem length_le_one_iff (h : HostsOf rules hosts) :
    hosts.length ≤ 1 ↔ ∀ r ∈ rules, ∀ s ∈ rules, r.vhost = s.vhost := by
  constructor
  · intro hlength r hr s hs
    have hr := (h.mem_iff _).2 ⟨r, hr, rfl⟩
    have hs := (h.mem_iff _).2 ⟨s, hs, rfl⟩
    match hosts, hlength with
    | [_], _ => rw [List.mem_singleton.1 hr, List.mem_singleton.1 hs]
  · intro hsame
    match hosts, h with
    | [], _ => exact Nat.zero_le 1
    | [_], _ => exact Nat.le_refl 1
    | v :: w :: hosts, h =>
      have hlt : compare v w = .lt := (List.pairwise_cons.1 h.ordered).1 w List.mem_cons_self
      -- two hosts in strict order would be the hosts of two rules, and these have one host
      obtain ⟨r, hr, rfl⟩ := (h.mem_iff v).1 List.mem_cons_self
      obtain ⟨s, hs, rfl⟩ := (h.mem_iff w).1 (List.mem_cons_of_mem _ List.mem_cons_self)
      have hself : compare s.vhost s.vhost = .eq := Std.LawfulEqCmp.compare_eq_iff_eq.2 rfl
      rw [hsame r hr s hs, hself] at hlt
      cases hlt

end HostsOf

theorem atHost_filter {rules : List Rule} {q : VirtualHost → Bool} {v : VirtualHost}
    (hv : q v = true) : atHost (rules.filter fun r => q r.vhost) v = atHost rules v := by
  rw [atHost, atHost, List.filter_filter]
  refine List.filter_congr fun r _ => ?_
  by_cases h : r.vhost = v
  · simp [h, hv]
  · simp [h]

/-! ## The tables of a virtual host

Rules are grouped by the place that they name, and each group has a table of its own. -/

namespace LaidOut

variable {rules : List Rule} {routed counting : List VirtualHost}
  {actions sharedFilter localFilter tables : List ConfigPatch}

/-- Only the tables have tables. -/
theorem filter_table (h : LaidOut rules routed actions sharedFilter localFilter counting tables)
    (q : ConfigPatch → Bool) :
    (actions ++ sharedFilter ++ localFilter ++ tables).filter (fun p => p.table?.isSome && q p)
      = tables.filter q := by
  have hnone : ∀ ps : List ConfigPatch, (∀ p ∈ ps, p.table? = none) →
      ps.filter (fun p => p.table?.isSome && q p) = [] := by
    intro ps hps
    refine List.filter_eq_nil_iff.2 fun p hp => ?_
    simp [hps p hp]
  -- only the last part has tables, so the filter lets the other three vanish
  have hactions : ∀ p ∈ actions, p.table? = none := by
    intro p hp
    obtain ⟨v, -, hgives⟩ := exists_left_of_forall₂ h.actions hp
    exact hgives.table
  have htables : ∀ p ∈ tables, p.table?.isSome = true := by
    intro p hp
    obtain ⟨v, -, hcounts⟩ := exists_left_of_forall₂ h.tables hp
    rw [hcounts.table]
    rfl
  rw [List.filter_append, List.filter_append, List.filter_append, hnone actions hactions,
    hnone sharedFilter fun p hp => (h.sharedFilter.of_mem hp).2.table,
    hnone localFilter fun p hp => (h.localFilter.of_mem hp).2.table]
  exact List.filter_congr fun p hp => by rw [htables p hp, Bool.true_and]

/-- A virtual host gets one table for each of the hosts that cover it. -/
theorem forall₂_tables (h : LaidOut rules routed actions sharedFilter localFilter counting tables)
    (direction : String) (port : UInt16) :
    List.Forall₂ (fun v => Counts v (atHost (coveringRules rules direction port) v))
      (counting.filter fun v => v.Covers ⟨direction, some port⟩)
      (tables.filter (·.appliesTo (VirtualHost.mk direction (some port)).context
        (VirtualHost.nameOf direction (Decimal.natText port.toNat)))) := by
  have hkept := List.rel_filter (p := fun v => decide (VirtualHost.Covers v ⟨direction, some port⟩))
    (q := fun p => p.appliesTo (VirtualHost.mk direction (some port)).context
      (VirtualHost.nameOf direction (Decimal.natText port.toNat)))
    (fun v p hcounts => decide_eq_true_iff.trans
      (ConfigPatch.matches_iff_covers (Counts.merged hcounts) direction port).symm) h.tables
  have hcovers : ∀ v ∈ counting.filter fun v => v.Covers ⟨direction, some port⟩,
      v.Covers ⟨direction, some port⟩ := fun v hv => of_decide_eq_true (List.mem_filter.1 hv).2
  -- the rules at a host that covers the port are all covering rules
  refine ((List.forall₂_and_left _ _).2 ⟨hcovers, hkept⟩).imp fun v p hv => ?_
  rw [coveringRules, atHost_filter (q := fun v => v.Covers ⟨direction, some port⟩)
    (decide_eq_true hv.1)]
  exact hv.2

end LaidOut

variable {id : ResourceId} {spec : LimiterSpec} {m : Material} {subsets : List Subset}
  {selector : Labels} {config : CompileConfig} {n : String} {f : FilterSpec}

/-- **A virtual host gets one table for each of the hosts that cover it**, with the rules for
these. -/
theorem tables_of_virtualHost
    (hf : (compile id spec m subsets selector config).filters[n]? = some (some f))
    (direction : String) (port : UInt16) :
    ∃ hosts, HostsOf (coveringRules (rulesIn id spec m n) direction port) hosts ∧
      List.Forall₂
        (fun v => Counts v (atHost (coveringRules (rulesIn id spec m n) direction port) v)) hosts
        (f.tablesFor direction port) := by
  obtain ⟨_, _, _, _, counting, tables, hpatches, hlaid⟩ := exists_laidOut_of_filter hf
  refine ⟨counting.filter fun v => v.Covers ⟨direction, some port⟩,
    hlaid.countingHosts.filter fun v => v.Covers ⟨direction, some port⟩, ?_⟩
  rw [FilterSpec.tablesFor, hpatches, hlaid.filter_table]
  exact hlaid.forall₂_tables direction port

theorem length_tablesFor_le_one_iff
    (hf : (compile id spec m subsets selector config).filters[n]? = some (some f))
    (direction : String) (port : UInt16) :
    (f.tablesFor direction port).length ≤ 1 ↔
      ∀ r ∈ coveringRules (rulesIn id spec m n) direction port,
        ∀ s ∈ coveringRules (rulesIn id spec m n) direction port, r.vhost = s.vhost := by
  obtain ⟨hosts, hhosts, htables⟩ := tables_of_virtualHost hf direction port
  rw [← htables.length_eq]
  exact hhosts.length_le_one_iff

/-- If all rules that cover a virtual host are for the same hosts, they stand in its table
together. -/
theorem exists_single_table
    (hf : (compile id spec m subsets selector config).filters[n]? = some (some f))
    (direction : String) (port : UInt16)
    (hsome : coveringRules (rulesIn id spec m n) direction port ≠ [])
    (hsame : ∀ r ∈ coveringRules (rulesIn id spec m n) direction port,
      ∀ s ∈ coveringRules (rulesIn id spec m n) direction port, r.vhost = s.vhost) :
    ∃ p, f.tablesFor direction port = [p] ∧
      p.table? = some ((coveringRules (rulesIn id spec m n) direction port).map Rule.counted) := by
  obtain ⟨hosts, hhosts, htables⟩ := tables_of_virtualHost hf direction port
  have hlength := hhosts.length_le_one_iff.2 hsame
  generalize coveringRules (rulesIn id spec m n) direction port = rules at *
  obtain ⟨r, hr⟩ := List.exists_mem_of_ne_nil rules hsome
  have hmem := (hhosts.mem_iff r.vhost).2 ⟨r, hr, rfl⟩
  -- one host for all, so the rules at it are all of them
  match hosts, hlength, hmem with
  | [v], _, hmem =>
    obtain rfl := List.mem_singleton.1 hmem
    obtain ⟨p, _, hcounts, hnil, heq⟩ := List.forall₂_cons_left_iff.1 htables
    rw [List.forall₂_nil_left_iff.1 hnil] at heq
    have hall : atHost rules r.vhost = rules :=
      List.filter_eq_self.2 fun s hs => decide_eq_true (hsame s hs r hr)
    refine ⟨p, heq, ?_⟩
    rw [hcounts.table, hall]

/-- Rules for different hosts cover a virtual host together only if some of them are for all hosts
of a context. -/
theorem covering_same_iff (rules : List Rule) :
    (∀ direction port, ∀ r ∈ coveringRules rules direction port,
        ∀ s ∈ coveringRules rules direction port, r.vhost = s.vhost) ↔
      ∀ r ∈ rules, ∀ s ∈ rules, r.isShared = false → s.isShared = false → r.vhost.port = none →
        r.vhost.context = s.vhost.context → r.vhost = s.vhost := by
  constructor
  · intro h r hr s hs hown hown' hport hcontext
    -- a virtual host that both cover: that of the second rule, or any if it is for all of them too
    cases hport' : s.vhost.port with
    | some q =>
      have hself : s.vhost = ⟨s.vhost.direction, some q⟩ := by rw [← hport']
      refine h s.vhost.direction q r ?_ s ?_
      · exact mem_coveringRules.2 ⟨hr, hown, by rw [← hself]; exact ⟨hcontext, .inl hport⟩⟩
      · exact mem_coveringRules.2 ⟨hs, hown', by rw [← hself]; exact ⟨rfl, .inr rfl⟩⟩
    | none =>
      refine h s.vhost.direction 80 r ?_ s ?_
      · exact mem_coveringRules.2 ⟨hr, hown, hcontext, .inl hport⟩
      · exact mem_coveringRules.2 ⟨hs, hown', rfl, .inl hport'⟩
  · intro h direction port r hr s hs
    obtain ⟨hr, hown, hcontext, hcovers⟩ := mem_coveringRules.1 hr
    obtain ⟨hs, hown', hcontext', hcovers'⟩ := mem_coveringRules.1 hs
    rcases hcovers with hport | hsame
    · exact h r hr s hs hown hown' hport (hcontext.trans hcontext'.symm)
    · rcases hcovers' with hport' | hsame'
      · exact (h s hs r hr hown' hown hport' (hcontext'.trans hcontext.symm)).symm
      · exact hsame.trans hsame'.symm

/-- **When each virtual host gets one table.** In every filter, a virtual host gets one table for
each of the hosts that the covering rules name, with the rules for these. So it gets at most one
exactly if all covering rules are for the same hosts, and then the table counts for them all. This
holds of all virtual hosts exactly if no rule without a port is counted beside another rule of its
context that is not for the very same hosts. -/
theorem one_table_iff (hf : (compile id spec m subsets selector config).filters[n]?
      = some (some f)) :
    let rules := rulesIn id spec m n
    (∀ direction port,
      let covering := coveringRules rules direction port
      (∃ hosts, HostsOf covering hosts ∧
        List.Forall₂ (fun v => Counts v (atHost covering v)) hosts (f.tablesFor direction port)) ∧
      ((f.tablesFor direction port).length ≤ 1 ↔
        ∀ r ∈ covering, ∀ s ∈ covering, r.vhost = s.vhost) ∧
      (covering ≠ [] → (f.tablesFor direction port).length ≤ 1 →
        ∃ p, f.tablesFor direction port = [p] ∧ p.table? = some (covering.map Rule.counted))) ∧
    ((∀ direction port, (f.tablesFor direction port).length ≤ 1) ↔
      ∀ r ∈ rules, ∀ s ∈ rules, r.isShared = false → s.isShared = false → r.vhost.port = none →
        r.vhost.context = s.vhost.context → r.vhost = s.vhost) := by
  intro rules
  refine ⟨fun direction port => ⟨tables_of_virtualHost hf direction port,
    length_tablesFor_le_one_iff hf direction port, fun hsome hlength => ?_⟩, ?_⟩
  · exact exists_single_table hf direction port hsome
      ((length_tablesFor_le_one_iff hf direction port).1 hlength)
  · rw [← covering_same_iff]
    exact forall_congr' fun direction => forall_congr' fun port =>
      length_tablesFor_le_one_iff hf direction port

/-- Of the rules of all kinds those that are counted in the proxy are for one port, and stand in one
table. -/
theorem one_table_iff_mixed : ∃ f,
    (compile reviewsId mixedSpec {} [] ∅ {}).filters[Subset.baseName]? = some (some f) ∧
    (∀ direction port, (f.tablesFor direction port).length ≤ 1) ∧
    ∃ p, f.tablesFor "inbound" 9080 = [p] ∧ (p.table?.map List.length) = some 2 := by
  have hsome : ((compile reviewsId mixedSpec {} [] ∅ {}).filters[Subset.baseName]?.join).isSome
      = true := by
    decide +kernel
  obtain ⟨f, hf⟩ := Option.isSome_iff_exists.1 hsome
  have hf := Option.join_eq_some_iff.1 hf
  obtain ⟨hcovering, hall⟩ := one_table_iff hf
  have hrules : ∀ r ∈ rulesIn reviewsId mixedSpec {} Subset.baseName,
      ∀ s ∈ rulesIn reviewsId mixedSpec {} Subset.baseName, r.isShared = false →
        s.isShared = false →
        r.vhost.port = none → r.vhost.context = s.vhost.context → r.vhost = s.vhost := by
    decide +kernel
  have hlength :
      (coveringRules (rulesIn reviewsId mixedSpec {} Subset.baseName) "inbound" 9080).length
      = 2 := by
    decide +kernel
  obtain ⟨-, -, hsingle⟩ := hcovering "inbound" 9080
  obtain ⟨p, hp, htable⟩ := hsingle (List.ne_nil_of_length_pos (by rw [hlength]; decide))
    (hall.2 hrules "inbound" 9080)
  refine ⟨f, hf, hall.2 hrules, p, hp, ?_⟩
  rw [htable, Option.map_some, List.length_map, hlength]

/-- A rule without a port, and one for a port. -/
def overlappingSpec : LimiterSpec :=
  { sets := (∅ : Std.ExtTreeMap String (List Descriptor)).insert Subset.baseName
      [{ action := some { quota := "5", fillInterval := { seconds := 1 } } },
       { action := some { quota := "7", fillInterval := { seconds := 1 } }
         target := some { port := some 9080 } }] }

/-- **A virtual host gets two tables** if a rule for all ports stands beside one for its port:
either table has one of the rules, though both cover it. -/
theorem exists_two_tables : ∃ f,
    (compile reviewsId overlappingSpec {} [] ∅ {}).filters[Subset.baseName]? = some (some f) ∧
    (coveringRules (rulesIn reviewsId overlappingSpec {} Subset.baseName) "inbound" 9080).map
    (·.quota) = [5, 7] ∧
    (f.tablesFor "inbound" 9080).map (fun p => p.table?.map fun table => table.map (·.maxTokens))
      = [some [5], some [7]] := by
  have hsome :
      ((compile reviewsId overlappingSpec {} [] ∅ {}).filters[Subset.baseName]?.join.map fun f =>
      (f.tablesFor "inbound" 9080).map fun p => p.table?.map fun table => table.map (·.maxTokens))
        = some [some [5], some [7]] := by
    decide +kernel
  obtain ⟨f, hf, htables⟩ := Option.map_eq_some_iff.1 hsome
  exact ⟨f, Option.join_eq_some_iff.1 hf, by decide +kernel, htables⟩

end MeshLimiter
