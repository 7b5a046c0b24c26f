import MeshLimiter.Compile.Plan
import MeshLimiter.Proofs.Json.Reading
/-!
# Reading patches

What proxies take from the value of a patch: the actions of routes with the entries that they give
to requests, the table of entries that are counted, and the name of a filter that is inserted.

* **`ConfigPatch.rateLimits`**, **`Json.granted?`**: actions, and the entry that one gives;
* **`ConfigPatch.table?`**: the table of counted entries;
* **`GivesActions`**, **`Counts`**, **`Inserts`**: what a patch may be there for;
* **`givesActions_toConfigPatch`**, **`inserts_sharedFilter`**, **`counts_toConfigPatch`**: what the
  planned patches are there for.
-/

namespace MeshLimiter

/-- Entries that are counted together, with their bucket. -/
structure CountedEntries where
  entries : List DescriptorEntry
  maxTokens : Nat
  tokensPerFill : Nat
  fillInterval : String
deriving DecidableEq, Repr

namespace Json

/-- The items of an array; nothing else has any. -/
def itemsOf (v : Option Json) : List Json :=
  (v.bind items?).getD []

def nat? (v : Json) : Option Nat :=
  v.int?.map Int.toNat

def entry? (v : Json) : Option DescriptorEntry := do
  return { key := ← (← v.field? "key").text?, value := ← (← v.field? "value").text? }

def counted? (v : Json) : Option CountedEntries := do
  let bucket ← v.field? "token_bucket"
  return {
    entries := ← (← v.field? "entries").listOf? entry?
    maxTokens := ← (← bucket.field? "max_tokens").nat?
    tokensPerFill := ← (← bucket.field? "tokens_per_fill").nat?
    fillInterval := ← (← bucket.field? "fill_interval").text? }

/-- The entry that an action gives to requests: its kind stands for the key. -/
def granted? (action : Json) : Option DescriptorEntry :=
  match action.at? ["generic_key", "descriptor_value"],
    action.at? ["header_value_match", "descriptor_value"] with
  | some (.str value), none => some { key := "generic_key", value }
  | none, some (.str value) => some { key := "header_match", value }
  | _, _ => none

end Json

namespace ConfigPatch

/-- The actions of the rate limits of a route, those of each limit together. -/
def rateLimits (p : ConfigPatch) : List (List Json) :=
  (Json.itemsOf (p.value.at? ["route", "rate_limits"])).map fun limit =>
    Json.itemsOf (limit.field? "actions")

/-- The table of a route, if the patch has one. -/
def table? (p : ConfigPatch) : Option (List CountedEntries) := do
  let config ← p.value.at?
    ["typed_per_filter_config", "envoy.filters.http.local_ratelimit", "value"]
  match config.field? "descriptors" with
  | none => some []
  | some v => v.listOf? Json.counted?

/-- The name of the filter that the patch inserts, if it inserts one. -/
def inserted? (p : ConfigPatch) : Option String :=
  if p.operation = .insertBefore then (p.value.field? "name").bind Json.text? else none

/-- The patch is merged into the routes of virtual hosts. -/
structure MergedAt (p : ConfigPatch) (v : VirtualHost) : Prop where
  applyTo : p.applyTo = .httpRoute
  operation : p.operation = .merge
  place : p.place = some v.place

end ConfigPatch

namespace Rule

/-- The entry that requests are given for a rule. -/
def entry (r : Rule) : DescriptorEntry :=
  { key := r.entryKey, value := r.value }

/-- What a proxy counts for a rule: its bucket takes no more than 32 bits. -/
def counted (r : Rule) : CountedEntries :=
  { entries := [r.localEntry]
    maxTokens := min r.quota.toNat (Nat.pow 2 32 - 1)
    tokensPerFill := min r.quota.toNat (Nat.pow 2 32 - 1)
    fillInterval := r.action.fillInterval.text }

end Rule

/-- A patch gives the routes of hosts an action for each rule, and nothing else. -/
structure GivesActions (v : VirtualHost) (rs : List Rule) (p : ConfigPatch) : Prop where
  merged : p.MergedAt v
  rateLimits : p.rateLimits = rs.map fun r => [r.routeAction.toJson.normal]
  table : p.table? = none

/-- A patch gives the routes of hosts a table with an entry for each rule, and nothing else. -/
structure Counts (v : VirtualHost) (rs : List Rule) (p : ConfigPatch) : Prop where
  merged : p.MergedAt v
  rateLimits : p.rateLimits = []
  table : p.table? = some (rs.map Rule.counted)

/-- A patch inserts a filter before the router of inbound traffic, and nothing else. -/
structure Inserts (name : String) (p : ConfigPatch) : Prop where
  applyTo : p.applyTo = .httpFilter
  place : p.place = some PatchSite.routerPlace
  inserted : p.inserted? = some name
  rateLimits : p.rateLimits = []
  table : p.table? = none

/-! ## Values as they are read

The value of a patch is read with its members sorted. -/

@[simp] theorem Json.normal_ofNat (n : Nat) : (Json.ofNat n).normal = .ofNat n := Json.normal_num _

@[simp] theorem Json.nat?_ofNat (n : Nat) : (Json.ofNat n).nat? = some n := rfl

theorem RouteAction.granted?_toJson (a : RouteAction) :
    a.toJson.normal.granted? = some a.entry := by
  cases a with
  | generic value =>
    simp [Json.granted?, toJson, entry, genericKey, Json.at?, Json.field?_normal]
  | headerMatch value headers =>
    simp [Json.granted?, toJson, entry, headerMatchKey, Json.at?, Json.field?_normal]

/-- The action of a rule gives its entry. -/
theorem Rule.granted?_routeAction (r : Rule) :
    r.routeAction.toJson.normal.granted? = some r.entry := by
  rw [RouteAction.granted?_toJson, routeAction, entry, entryKey]
  split <;> rfl

theorem DescriptorEntry.entry?_toJson (e : DescriptorEntry) : e.toJson.normal.entry? = some e := by
  simp [Json.entry?, DescriptorEntry.toJson, Json.field?_normal, Json.text?]

theorem LocalDescriptor.counted?_toJson (d : LocalDescriptor) : d.toJson.normal.counted? = some
    { entries := [d.entry], maxTokens := d.bucket.tokens.toNat,
        tokensPerFill := d.bucket.tokens.toNat
      fillInterval := d.bucket.interval } := by
  simp [Json.counted?, LocalDescriptor.toJson, TokenBucket.toJson, Json.field?_normal, Json.listOf?,
    Json.items?, DescriptorEntry.entry?_toJson, Json.text?]

theorem Rule.counted?_localDescriptor (r : Rule) :
    r.localDescriptor.toJson.normal.counted? = some r.counted := by
  have htokens : (tokens r.quota).toNat = min r.quota.toNat (Nat.pow 2 32 - 1) := by
    exact UInt32.toNat_ofNat_of_lt' (Nat.lt_of_le_of_lt (Nat.min_le_right ..) (by decide))
  rw [LocalDescriptor.counted?_toJson, localDescriptor, htokens]
  rfl

/-- A table without entries has no list of them. -/
theorem field?_tableConfig (ds : List LocalDescriptor) :
    (Fragment.tableConfig ds).field? "descriptors"
      = if ds.isEmpty then none else some (.arr (ds.map LocalDescriptor.toJson)) := by
  unfold Fragment.tableConfig
  split <;> simp [Fragment.statistics]

/-! ## What the planned patches are there for

Each planned patch is one of a few kinds: it inserts a filter, gives a route its actions, or a
virtual host its table. -/

namespace ConfigPatch

variable {p : ConfigPatch}

theorem rateLimits_eq_nil (h : p.value.field? "route" = none) : p.rateLimits = [] := by
  simp [rateLimits, h, Json.itemsOf]

theorem table?_eq_none (h : p.value.field? "typed_per_filter_config" = none) : p.table? = none := by
  simp [table?, h]

end ConfigPatch

open PlannedPatch (toConfigPatch)

theorem givesActions_toConfigPatch (v : VirtualHost) (rs : List Rule) : GivesActions v rs
    (toConfigPatch { site := .routes v, fragment := .routeActions (rs.map Rule.routeAction) }) where
  merged := ⟨rfl, rfl, rfl⟩
  rateLimits := by
    simp [ConfigPatch.rateLimits, toConfigPatch, Fragment.toJson, Json.at?_normal,
      Json.field?_normal, Json.itemsOf, Json.items?, Function.comp_def]
  table := ConfigPatch.table?_eq_none (by simp [toConfigPatch, Fragment.toJson, Json.field?_normal])

theorem inserts_sharedFilter (domain cluster : String) : Inserts Fragment.sharedFilterName
    (toConfigPatch { site := .beforeRouter, fragment := .sharedFilter domain cluster }) where
  applyTo := rfl
  place := rfl
  inserted := by
    simp [ConfigPatch.inserted?, toConfigPatch, Fragment.toJson, Json.field?_normal, Json.text?]
  rateLimits :=
    ConfigPatch.rateLimits_eq_nil (by simp [toConfigPatch, Fragment.toJson, Json.field?_normal])
  table := ConfigPatch.table?_eq_none (by simp [toConfigPatch, Fragment.toJson, Json.field?_normal])

theorem inserts_localFilter : Inserts Fragment.localFilterName
    (toConfigPatch { site := .beforeRouter, fragment := .localFilter }) where
  applyTo := rfl
  place := rfl
  inserted := by
    simp [ConfigPatch.inserted?, toConfigPatch, Fragment.toJson, Json.field?_normal, Json.text?]
  rateLimits :=
    ConfigPatch.rateLimits_eq_nil (by simp [toConfigPatch, Fragment.toJson, Json.field?_normal])
  table := ConfigPatch.table?_eq_none (by simp [toConfigPatch, Fragment.toJson, Json.field?_normal])

theorem counts_toConfigPatch (v : VirtualHost) (rs : List Rule) :
    Counts v rs (toConfigPatch
      { site := .routes v, fragment := .localTable (rs.map Rule.localDescriptor) }) where
  merged := ⟨rfl, rfl, rfl⟩
  rateLimits :=
    ConfigPatch.rateLimits_eq_nil (by simp [toConfigPatch, Fragment.toJson, Json.field?_normal])
  table := by
    have hconfig : (toConfigPatch
        { site := .routes v, fragment := .localTable (rs.map Rule.localDescriptor) }).value.at?
          ["typed_per_filter_config", "envoy.filters.http.local_ratelimit", "value"]
        = some (Fragment.tableConfig (rs.map Rule.localDescriptor)).normal := by
      simp [toConfigPatch, Fragment.toJson, Json.field?_normal, Fragment.localFilterName,
        Fragment.typed]
    have hlist :
        (Json.arr ((rs.map Rule.localDescriptor).map LocalDescriptor.toJson)).normal.listOf?
        Json.counted? = some (rs.map Rule.counted) := by
      rw [Json.normal_arr, List.map_map, List.map_map]
      exact Json.mapM_map rs Rule.counted?_localDescriptor
    -- the list is left out only if there are no entries, and then it reads as an empty one
    rw [ConfigPatch.table?, hconfig, Option.bind_eq_bind, Option.bind_some, Json.field?_normal,
      field?_tableConfig]
    split
    · next h =>
      split at h
      · next hempty => rw [List.map_eq_nil_iff.1 (List.isEmpty_iff.1 hempty)]; rfl
      · cases h
    · next h =>
      split at h
      · cases h
      · rw [← Option.some.inj h]
        exact hlist

end MeshLimiter
