import MeshLimiter.Program.World
/-!
# Traces

The steps that a program took, each with the reply it got. From a trace one can read which calls
were made, which of them write filters or the registry, which have failed, and what was observed of
the service and its metrics.
-/

namespace MeshLimiter

namespace ClusterCall

/-- The place of the filter that a call is about. -/
def filterPlace? : ClusterCall → Option ResourceId
  | filter p => some p
  | createFilter f => some f.metadata.id
  | replaceFilter f => some f.metadata.id
  | deleteFilter p => some p
  | _ => none

/-- Whether a call writes named texts. -/
def writesTexts : ClusterCall → Bool
  | createConfigMap _ => true
  | replaceConfigMap _ => true
  | _ => false

/-- Whether a call writes what the mesh goes by: a filter or named texts. -/
def writesMesh : ClusterCall → Bool
  | createFilter _ => true
  | replaceFilter _ => true
  | deleteFilter _ => true
  | createConfigMap _ => true
  | replaceConfigMap _ => true
  | _ => false

/-- Named texts are no filter. -/
theorem filterPlace?_of_writesTexts {c : ClusterCall} (h : c.writesTexts = true) :
    c.filterPlace? = none := by
  cases c with
  | createConfigMap | replaceConfigMap => rfl
  | _ => cases h

/-- The mesh goes by the registry, which is a named text. -/
theorem writesMesh_of_writesTexts {c : ClusterCall} (h : c.writesTexts = true) :
    c.writesMesh = true := by
  cases c with
  | createConfigMap | replaceConfigMap => rfl
  | _ => cases h

/-- A call about a filter writes no named texts. -/
theorem writesTexts_of_filterPlace? {c : ClusterCall} {p : ResourceId}
    (h : c.filterPlace? = some p) : c.writesTexts = false := by
  cases hc : c.writesTexts with
  | false => rfl
  | true =>
    rw [filterPlace?_of_writesTexts hc] at h
    cases h

/-- What writes nothing that the mesh goes by writes no named texts. -/
theorem writesTexts_of_writesMesh {c : ClusterCall} (h : c.writesMesh = false) :
    c.writesTexts = false := by
  cases hc : c.writesTexts with
  | false => rfl
  | true =>
    rw [writesMesh_of_writesTexts hc] at h
    cases h

/-- Whether a call did not come about. A filter that cannot be deleted because it does not exist is
as good as deleted. -/
def isFailure : (c : ClusterCall) → c.Reply → Bool
  | _, .ok _ => false
  | deleteFilter _, .error e => !e.isNotFound
  | _, .error _ => true

/-- A call that came to an error has failed, unless it found nothing to delete. -/
theorem isFailure_error {c : ClusterCall} {e : ClusterError}
    (h : (∀ p, c ≠ deleteFilter p) ∨ e ≠ .notFound) : c.isFailure (.error e) = true := by
  cases c with
  | deleteFilter p =>
    -- the only call for which the error matters
    have he : e ≠ .notFound := h.resolve_left fun hc => hc p rfl
    show (!decide (e = .notFound)) = true
    simp [he]
  | _ => rfl

/-- A call that is answered has come about. -/
@[simp] theorem isFailure_ok (c : ClusterCall) (x : c.Answer) : c.isFailure (.ok x) = false := by
  cases c <;> rfl

/-- What a call may be about. -/
inductive Concern where
  | service
  | filter (place : ResourceId)
  | registry
  | status
deriving DecidableEq

/-- What a call is about. Whatever named texts there are, they are those of the registry. -/
def concern : ClusterCall → Concern
  | service _ | pods _ _ => .service
  | filter p | deleteFilter p => .filter p
  | createFilter f | replaceFilter f => .filter f.metadata.id
  | configMap _ | createConfigMap _ | replaceConfigMap _ => .registry
  | patchStatus _ _ => .status

end ClusterCall

/-- A step with the reply that it got. -/
structure Event where
  step : Step
  reply : step.Reply

namespace Event

/-- The reply is part of the event. -/
theorem reply_eq {a : Step} {r r' : a.Reply} (h : (⟨a, r⟩ : Event) = ⟨a, r'⟩) : r = r' := by
  cases h
  rfl

/-- The call that was made. -/
def call? : Event → Option ClusterCall
  | ⟨.call c, _⟩ => some c
  | _ => none

/-- Whether a call about a filter has failed. -/
def isFailedFilterCall : Event → Bool
  | ⟨.call c, r⟩ => c.filterPlace?.isSome && c.isFailure r
  | _ => false

/-- Whether a call was answered with an error. -/
def isError : Event → Bool
  | ⟨.call _, (r : Except ClusterError _)⟩ => !r.isOk
  | _ => false

/-- Whether a call has failed. -/
def isFailed : Event → Bool
  | ⟨.call c, r⟩ => c.isFailure r
  | _ => false

/-- Whether a call about something was made. -/
def isAbout (k : ClusterCall.Concern) : Event → Bool
  | ⟨.call c, _⟩ => c.concern = k
  | _ => false

/-- An event is about what its call is about. -/
theorem isAbout_call {c : ClusterCall} {r : c.Reply} {k : ClusterCall.Concern} :
    isAbout k ⟨.call c, r⟩ = true ↔ c.concern = k :=
  decide_eq_true_iff

/-- Whether something was observed of the service, its pods, its subsets or its metrics. -/
def isObservation : Event → Bool
  | ⟨.call (.service _), _⟩ => true
  | ⟨.call (.pods _ _), _⟩ => true
  | ⟨.subsetsOf _, _⟩ => true
  | ⟨.receiveAnswers _, _⟩ => true
  | _ => false

/-- What was counted. -/
def counted? : Event → Option PassEvent
  | ⟨.count e, _⟩ => some e
  | _ => none

/-- Filters are not observed; what is observed leads to them. -/
theorem isObservation_of_filterPlace? {c : ClusterCall} {r : c.Reply} {p : ResourceId}
    (h : c.filterPlace? = some p) : isObservation ⟨.call c, r⟩ = false := by
  cases c with
  | service | pods => cases h
  | _ => rfl

/-- Nor is a write of named texts an observation. -/
theorem isObservation_of_writesTexts {c : ClusterCall} {r : c.Reply} (h : c.writesTexts = true) :
    isObservation ⟨.call c, r⟩ = false := by
  cases c with
  | service | pods => cases h
  | _ => rfl

/-- A failure of a call about a filter counts as one. -/
theorem isFailedFilterCall_of_isFailure {c : ClusterCall} {r : c.Reply} {p : ResourceId}
    (hc : c.filterPlace? = some p) (hr : c.isFailure r = true) :
    isFailedFilterCall ⟨.call c, r⟩ = true := by
  show (c.filterPlace?.isSome && c.isFailure r) = true
  rw [hc, hr]
  rfl

end Event

/-- Events in the order in which they came about. -/
abbrev Trace := List Event

namespace Trace

/-- The calls that were made. -/
def calls (tr : Trace) : List ClusterCall :=
  tr.filterMap Event.call?

/-- What was observed. -/
def observed (tr : Trace) : Trace :=
  tr.filter Event.isObservation

/-- The writes among the calls. -/
def writes (tr : Trace) : List ClusterCall :=
  tr.calls.filter ClusterCall.isWrite

/-- What was counted. -/
def counted (tr : Trace) : List PassEvent :=
  tr.filterMap Event.counted?

@[simp] theorem calls_nil : calls [] = [] := rfl

/-- The calls of two stretches follow one another. -/
@[simp] theorem calls_append (tr₁ tr₂ : Trace) : calls (tr₁ ++ tr₂) = calls tr₁ ++ calls tr₂ :=
  List.filterMap_append

@[simp] theorem calls_cons_call (c : ClusterCall) (r : c.Reply) (tr : Trace) :
    calls (⟨.call c, r⟩ :: tr) = c :: calls tr := rfl

/-- What holds of the first call and of all later ones holds of all. -/
theorem forall_calls_cons {P : ClusterCall → Prop} {c : ClusterCall} {r : c.Reply} {tr : Trace}
    (hc : P c) (htr : ∀ d ∈ tr.calls, P d) : ∀ d ∈ calls (⟨.call c, r⟩ :: tr), P d := by
  rw [calls_cons_call]
  exact List.forall_mem_cons.2 ⟨hc, htr⟩

@[simp] theorem observed_nil : observed [] = [] := rfl

/-- An observation comes first among those of the rest. -/
theorem observed_cons_of_isObservation {e : Event} (h : e.isObservation = true) (tr : Trace) :
    observed (e :: tr) = e :: observed tr :=
  List.filter_cons_of_pos h

/-- An event that is no observation adds none. -/
theorem observed_cons_of_not {e : Event} (h : e.isObservation = false) (tr : Trace) :
    observed (e :: tr) = observed tr :=
  List.filter_cons_of_neg (by rw [h]; decide)

/-- Of the events that are observations, some are calls; those were made. -/
theorem mem_calls_of_mem_observed {c : ClusterCall} {r : c.Reply} {tr : Trace}
    (h : (⟨.call c, r⟩ : Event) ∈ tr.observed) : c ∈ tr.calls :=
  List.mem_filterMap.2 ⟨_, (List.mem_filter.1 h).1, rfl⟩

/-- The observations of two stretches follow one another. -/
@[simp] theorem observed_append (tr₁ tr₂ : Trace) :
    observed (tr₁ ++ tr₂) = observed tr₁ ++ observed tr₂ :=
  List.filter_append ..

@[simp] theorem counted_nil : counted [] = [] := rfl

/-- The counts of two stretches follow one another. -/
@[simp] theorem counted_append (tr₁ tr₂ : Trace) :
    counted (tr₁ ++ tr₂) = counted tr₁ ++ counted tr₂ :=
  List.filterMap_append

@[simp] theorem counted_cons_count (e : PassEvent) (r : (Step.count e).Reply) (tr : Trace) :
    counted (⟨.count e, r⟩ :: tr) = e :: counted tr := rfl

/-- A call alone counts for nothing. -/
@[simp] theorem counted_cons_call (c : ClusterCall) (r : c.Reply) (tr : Trace) :
    counted (⟨.call c, r⟩ :: tr) = counted tr := rfl

open ClusterCall (Concern)

/-- The calls about something, with their replies. -/
def about (k : Concern) (tr : Trace) : Trace :=
  tr.filter (Event.isAbout k)

/-- Calls about something were made, and all of them came about. -/
def Succeeds (tr : Trace) (k : Concern) : Prop :=
  tr.about k ≠ [] ∧ ∀ event ∈ tr.about k, event.isFailed = false

instance (tr : Trace) (k : Concern) : Decidable (tr.Succeeds k) :=
  haveI : Decidable (tr.about k ≠ []) := decidable_of_iff (¬ (tr.about k).isEmpty = true) (by simp)
  inferInstanceAs (Decidable (_ ∧ _))

@[simp] theorem about_nil (k : Concern) : about k [] = [] := rfl

/-- What is about something in two stretches follows one another. -/
@[simp] theorem about_append (k : Concern) (tr₁ tr₂ : Trace) :
    about k (tr₁ ++ tr₂) = about k tr₁ ++ about k tr₂ :=
  List.filter_append ..

/-- An event about something comes first among those of the rest. -/
theorem about_cons_of_isAbout {k : Concern} {e : Event} (h : e.isAbout k = true) (tr : Trace) :
    about k (e :: tr) = e :: about k tr :=
  List.filter_cons_of_pos h

/-- An event about something else adds none. -/
theorem about_cons_of_not {k : Concern} {e : Event} (h : e.isAbout k = false) (tr : Trace) :
    about k (e :: tr) = about k tr :=
  List.filter_cons_of_neg (by rw [h]; decide)

/-- Nothing is about it just if no event is. -/
theorem about_eq_nil {k : Concern} {tr : Trace} :
    tr.about k = [] ↔ ∀ event ∈ tr, event.isAbout k = false := by
  rw [about, List.filter_eq_nil_iff]
  simp only [Bool.not_eq_true]

/-- It is enough that no call is about it. -/
theorem about_eq_nil_of_calls {k : Concern} {tr : Trace} (h : ∀ c ∈ tr.calls, c.concern ≠ k) :
    tr.about k = [] := by
  refine about_eq_nil.2 fun event hevent => ?_
  obtain ⟨a, r⟩ := event
  cases a with
  | call c => exact decide_eq_false (h c (List.mem_filterMap.2 ⟨_, hevent, rfl⟩))
  | _ => rfl

/-- If nothing is about it, no call is. -/
theorem concern_ne_of_about_eq_nil {k : Concern} {tr : Trace} (h : tr.about k = []) :
    ∀ c ∈ tr.calls, c.concern ≠ k := by
  intro c hc hk
  obtain ⟨⟨a, r⟩, hevent, hcall⟩ := List.mem_filterMap.1 hc
  cases a with
  | call d =>
    obtain rfl := Option.some.inj hcall
    have habout : Event.isAbout k ⟨.call d, r⟩ = true := Event.isAbout_call.2 hk
    rw [about_eq_nil.1 h _ hevent] at habout
    cases habout
  | _ => cases hcall

/-- The first call has to come about, and all later ones about the same. -/
theorem succeeds_cons {k : Concern} {c : ClusterCall} {r : c.Reply} {tr : Trace}
    (hc : c.concern = k) : Succeeds (⟨.call c, r⟩ :: tr) k ↔
      c.isFailure r = false ∧ ∀ event ∈ tr.about k, event.isFailed = false := by
  rw [Succeeds, about_cons_of_isAbout (Event.isAbout_call.2 hc), List.forall_mem_cons]
  exact and_iff_right (List.cons_ne_nil _ _)

/-- What is about something in one trace alone decides whether it succeeds. -/
theorem succeeds_congr {k : Concern} {tr tr' : Trace} (h : tr.about k = tr'.about k) :
    tr.Succeeds k ↔ tr'.Succeeds k := by
  rw [Succeeds, Succeeds, h]

end Trace

/-! ## Comparing what was observed

Values of metrics are floating numbers, which have no decidable equality. So two events are only
seen to be the same if no metric is among their replies. -/

/-- Whether two events are seen to be the same observation. -/
def Event.agrees : Event → Event → Bool
  | ⟨.call (.service p), (r : Except ClusterError (Option Service))⟩,
    ⟨.call (.service q), (r' : Except ClusterError (Option Service))⟩ =>
    p = q && (match r, r' with
      | .ok x, .ok y => decide (x = y)
      | _, _ => false)
  | ⟨.call (.pods ns selector), (r : Except ClusterError (List Pod))⟩,
    ⟨.call (.pods ns' selector'), (r' : Except ClusterError (List Pod))⟩ =>
    ns = ns' && selector = selector' && (match r, r' with
      | .ok x, .ok y => decide (x = y)
      | _, _ => false)
  | ⟨.subsetsOf h, (r : List Subset)⟩, ⟨.subsetsOf h', (r' : List Subset)⟩ => h = h' && r = r'
  | ⟨.receiveAnswers ts, (r : List QueryReply)⟩, ⟨.receiveAnswers ts', (r' : List QueryReply)⟩ =>
    ts = ts' && r.isEmpty && r'.isEmpty
  | _, _ => false

/-- Events that are seen to be the same are the same. -/
theorem Event.eq_of_agrees {e f : Event} (h : e.agrees f = true) : e = f := by
  unfold agrees at h
  split at h
  · -- a look at the service
    simp only [Bool.and_eq_true, decide_eq_true_eq] at h
    obtain ⟨rfl, h⟩ := h
    split at h
    · rw [of_decide_eq_true h]
    · cases h
  · -- a look at pods
    simp only [Bool.and_eq_true, decide_eq_true_eq] at h
    obtain ⟨⟨rfl, rfl⟩, h⟩ := h
    split at h
    · rw [of_decide_eq_true h]
    · cases h
  · -- a look at subsets
    simp only [Bool.and_eq_true, decide_eq_true_eq] at h
    obtain ⟨rfl, h⟩ := h
    cases h
    rfl
  · -- queries: no values among the replies means no replies
    simp only [Bool.and_eq_true, decide_eq_true_eq] at h
    obtain ⟨⟨rfl, h⟩, h'⟩ := h
    rw [List.isEmpty_iff.1 h, List.isEmpty_iff.1 h']
  · cases h

/-- Whether two traces are seen to show the same. -/
def Trace.agree : Trace → Trace → Bool
  | [], [] => true
  | e :: tr, f :: tr' => e.agrees f && agree tr tr'
  | _, _ => false

/-- Traces that are seen to show the same are the same, event by event. -/
theorem Trace.eq_of_agree {tr tr' : Trace} (h : agree tr tr' = true) : tr = tr' := by
  induction tr generalizing tr' with
  | nil =>
    cases tr' with
    | nil => rfl
    | cons f tr' => cases h
  | cons e tr ih =>
    cases tr' with
    | nil => cases h
    | cons f tr' =>
      obtain ⟨hfirst, hrest⟩ := Bool.and_eq_true_iff.1 h
      rw [Event.eq_of_agrees hfirst, ih hrest]

end MeshLimiter
