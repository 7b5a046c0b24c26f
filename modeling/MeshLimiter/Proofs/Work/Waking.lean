import MeshLimiter.Proofs.Pass.Protocol
import MeshLimiter.Proofs.Work.Turns
import MeshLimiter.Work.Schedule
/-!
# Waking workers

Workers that find nothing in their queue wait to be woken. A key that is put into the queue wakes
one of them, or, if none waits, lets the next one to wait go on at once; several such keys let only
one go on. So a worker may come to wait although there are keys, but not the last one.

* **`Waking.Move`**: what workers and those who push may do, in any order;
* **`Waking.follows_roundOf`**: a round looks into the queue, and waits only after it has found
  nothing;
* **`Waking.Alert`**: where a key waits, one can go on at once, or some worker will look into the
  queue;
* **`Waking.pending_of_all_waiting`**: where all workers wait, no key does.
-/

namespace MeshLimiter

open Turns (roundOf)

/-- One of those that wait is woken; if none waits, the next one to wait is to go on at once. -/
inductive Signal.Notified (x : Signal) : Signal → Prop where
  | woken {t : Nat} (waits : t ∈ x.waiting) : Notified x { x with waiting := x.waiting.erase t }
  | kept (alone : x.waiting = []) : Notified x { x with raised := true }

/-- The one that has waited longest is woken. -/
def Signal.notify (x : Signal) : Signal :=
  match x.waiting with
  | [] => { x with raised := true }
  | _ :: ts => { x with waiting := ts }

/-- That is one way to wake. -/
theorem Signal.notified_notify (x : Signal) : x.Notified x.notify := by
  unfold notify
  split
  · next hnone => exact .kept hnone
  · next t ts hwaiting =>
    have hwoken := Notified.woken (x := x) (t := t) (by rw [hwaiting]; exact List.mem_cons_self)
    rw [hwaiting, List.erase_cons_head] at hwoken
    exact hwoken

/-- This is how the schedule notifies. -/
theorem Schedule.notified_notify (s : Schedule) (name : QueueName) :
    (s.signal name).Notified ((s.notify name).signal name) := by
  have hsignal : ∀ (s : Schedule) (x : Signal), (s.setSignal name x).signal name = x := by
    intro s x
    cases name <;> rfl
  suffices hsame : (s.notify name).signal name = (s.signal name).notify by
    rw [hsame]
    exact Signal.notified_notify _
  unfold notify Signal.notify
  cases hwaiting : (s.signal name).waiting with
  | nil =>
    dsimp only
    rw [hsignal]
  | cons t ts => exact hsignal s _

/-- Commands that have to do with no queue. -/
def Command.Unqueued : Command → Prop
  | .step (.tryPop _) | .step (.push _ _) | .step (.finish _ _) | .await _ => False
  | _ => True

namespace Waking

/-- Workers at a queue, known by their numbers. -/
structure Floor where
  queue : Queue
  signal : Signal := {}
  /-- What is left of the round of each worker. -/
  left : Nat → Program RoundResult

/-- A new queue, and workers that are to begin on their rounds. -/
def Floor.new (capacity : Nat) (round : Program RoundResult) : Floor :=
  { queue := .ofCapacity capacity, left := fun _ => round }

/-- What comes of a signal once a key has been put into the queue, or has not. -/
def SignalAfter (enqueued : Bool) (x y : Signal) : Prop :=
  if enqueued = true then x.Notified y else y = x

/-- What a command of a worker may be replied, and what it leaves of queue and signal. Commands that
have to do with no queue may be replied anything. -/
inductive Performs (name : QueueName) (t : Nat) (x : Floor) :
    (c : Command) → c.Reply → Queue → Signal → Prop where
  | tryPop : Performs name t x (.step (.tryPop name)) x.queue.tryPop.1 x.queue.tryPop.2 x.signal
  | finish {id : ResourceId} {signal : Signal}
    (notified : SignalAfter (x.queue.done id).1 x.signal signal) :
    Performs name t x (.step (.finish name id)) (x.queue.done id).1 (x.queue.done id).2 signal
  | goesOn (raised : x.signal.raised = true) :
    Performs name t x (.await name) () x.queue { x.signal with raised := false }
  | waits (lowered : x.signal.raised = false) :
    Performs name t x (.await name) () x.queue { x.signal with waiting := x.signal.waiting ++ [t] }
  | aside {c : Command} {r : c.Reply} (unqueued : c.Unqueued) :
      Performs name t x c r x.queue x.signal

/-- What may happen among `n` workers. -/
inductive Move (name : QueueName) (round : Program RoundResult) (n : Nat) (x : Floor) :
    Floor → Prop where
  /-- Anybody may push a key at any time. -/
  | push {id : ResourceId} {signal : Signal}
    (notified : SignalAfter ((x.queue.push id).1 = .enqueued) x.signal signal) :
    Move name round n x { x with queue := (x.queue.push id).2, signal }
  /-- A worker that does not wait takes its next command. -/
  | act {t : Nat} {c : Command} {next : c.Reply → Program RoundResult} {r : c.Reply} {queue : Queue}
    {signal : Signal} (worker : t < n) (awake : t ∉ x.signal.waiting)
      (asks : x.left t = .ask c next)
    (performs : Performs name t x c r queue signal) :
    Move name round n x { queue, signal, left := Function.update x.left t (next r) }
  /-- A worker that has ended its round begins on another one. -/
  | again {t : Nat} {y : RoundResult} (worker : t < n) (awake : t ∉ x.signal.waiting)
    (ended : x.left t = .done y) :
    Move name round n x { x with left := Function.update x.left t round }

/-- What is reached by moves. -/
inductive Reaches (name : QueueName) (round : Program RoundResult) (n : Nat) (x : Floor) :
    Floor → Prop where
  | refl : Reaches name round n x x
  | snoc {y z : Floor} (before : Reaches name round n x y) (move : Move name round n y z) :
    Reaches name round n x z

variable {name : QueueName} {round : Program RoundResult} {n t : Nat} {x y z : Floor}

/-- What is reached from what is reached is reached. -/
theorem Reaches.trans (h : Reaches name round n x y) (h' : Reaches name round n y z) :
    Reaches name round n x z := by
  induction h' with
  | refl => exact h
  | snoc _ move ih => exact .snoc ih move

/-! ## The rounds of workers

A worker looks into the queue. With a key it works, and looks again; without one it turns to
wait. -/

/-- Where a worker is. -/
inductive Phase where
  /-- It will look into the queue before it waits. -/
  | ready
  /-- It has found nothing there, and is to wait. -/
  | turning
  | busy
deriving DecidableEq

/-- Where the commands of a worker lead. -/
inductive Watches (name : QueueName) : Protocol Phase where
  | taken (id : ResourceId) : Watches name .ready (.step (.tryPop name)) (some id) .busy
  | nothing : Watches name .ready (.step (.tryPop name)) none .turning
  | await : Watches name .turning (.await name) () .ready
  | finish (id : ResourceId) (requeued : Bool) :
    Watches name .busy (.step (.finish name id)) requeued .ready
  | aside {φ : Phase} {c : Command} {r : c.Reply} (unqueued : c.Unqueued) (settled : φ ≠ .turning) :
    Watches name φ c r φ

/-- The commands of passes have to do with no queue. -/
theorem unqueued_of_works {c : Command} (h : Pass.Works c) : c.Unqueued := by
  cases c with
  | step a =>
    cases a with
    | tryPop | push | finish => cases h
    | _ => trivial
  | await => cases h
  | _ => trivial

/-- No command of a pass has to do with a queue. -/
theorem unqueued_of_leads {s : Settings} {id : ResourceId} {t : Pass.Side} {φ φ' : Pass.Place}
    {c : Command} {r : c.Reply} (h : Pass.Leads s id t φ c r φ') : c.Unqueued := by
  cases h with
  | @look _ a r looks =>
    cases a with
    | tryPop | push | finish => cases looks
    | _ => trivial
  | work works => exact unqueued_of_works works
  | _ => trivial

/-- So nothing that is done for a key has. -/
theorem takes_passOn (s : Settings) (id : ResourceId) (name : QueueName) (found : Option Limiter) :
    (Turns.passOn s id name found).Takes Command.Unqueued := by
  have hleads : ∀ {t k φ φ' c} {r : c.Reply}, Pass.Leads s k t φ c r φ' → c.Unqueued :=
    unqueued_of_leads
  cases found with
  | none =>
    cases name with
    | spec => exact Pass.follows_delete.takes_of fun _ _ _ _ => hleads
    | metric => trivial
  | some l =>
    cases hkey : Pass.keyOf l with
    | error e =>
      -- without a key there is nothing that a pass could do
      cases name with
      | spec =>
        show (Pass.reconcile s l).run.Takes _
        unfold Pass.reconcile
        rw [hkey]
        trivial
      | metric =>
        show (Pass.refresh s l).run.Takes _
        unfold Pass.refresh
        rw [hkey]
        trivial
    | ok k =>
      cases name with
      | spec => exact (Pass.follows_reconcile hkey).takes_of fun _ _ _ _ => hleads
      | metric => exact (Pass.follows_refresh hkey).takes_of fun _ _ _ _ => hleads

/-- **A round of a worker** looks into the queue, and waits only after it has found nothing
there. -/
theorem follows_roundOf (s : Settings) (name : QueueName) :
    (roundOf s name).Follows (Watches name) (fun _ φ => φ = .ready) .ready := by
  -- work leaves a worker in its phase
  have haside : ∀ {α : Type} {p : Program α} {φ : Phase}, p.Takes Command.Unqueued → φ ≠ .turning →
      p.Follows (Watches name) (fun _ φ' => φ' = φ) φ := fun hp hφ =>
    hp.follows (fun _ _ hc => .aside hc hφ) fun _ => rfl
  -- and so does noting how it went
  have hend : ∀ id result, (Turns.noteEnd s id name result).Takes Command.Unqueued := by
    intro id result
    cases name with
    | metric => trivial
    | spec =>
      cases result with
      | ok => exact ⟨trivial, fun _ => trivial⟩
      | error => exact ⟨trivial, fun _ => ⟨trivial, fun _ => trivial⟩⟩
  rw [Turns.roundOf_eq]
  intro (taken : Option ResourceId)
  cases taken with
  | none => exact ⟨.turning, .nothing, fun _ => ⟨.ready, .await, rfl⟩⟩
  | some id =>
    refine ⟨.busy, .taken id, fun (found : Option Limiter) =>
      ⟨.busy, .aside trivial (by decide), ?_⟩⟩
    have hpass := haside (φ := .busy) (takes_passOn s id name found) (by decide)
    refine Program.Follows.bind (p := Turns.passOn s id name found)
      (hpass.mono fun result φ hφ => ?_)
    subst hφ
    exact fun (requeued : Bool) => ⟨.ready, .finish id requeued,
      haside (hend id result) (by decide)⟩

/-! ## Where a key waits, somebody will look

A worker that has looked and found nothing may have missed a key that was put in since. Then it goes
on at once, or another one will look. -/

/-- One worker can go on at once instead of waiting, or some worker will look into the queue. -/
def Covered (n : Nat) (x : Signal) (ph : Nat → Phase) : Prop :=
  x.raised = true ∨ ∃ t < n, t ∉ x.waiting ∧ ph t ≠ .turning

/-- Those that wait are workers, and each waits once. None waits if the next one is to go on at
once. -/
structure Settled (n : Nat) (x : Signal) (ph : Nat → Phase) : Prop where
  nodup : x.waiting.Nodup
  ready : ∀ t ∈ x.waiting, t < n ∧ ph t = .ready
  raised : x.raised = true → x.waiting = []

/-- What holds at all times. -/
structure Alert (n : Nat) (q : Queue) (x : Signal) (ph : Nat → Phase) : Prop where
  settled : Settled n x ph
  covered : q.pending ≠ [] → Covered n x ph

variable {q : Queue} {a b : Signal} {ph : Nat → Phase} {φ φ' : Phase}

/-- What a worker that is awake does is of no matter to those that wait. -/
theorem Settled.update (h : Settled n a ph) (awake : t ∉ a.waiting) (φ : Phase) :
    Settled n a (Function.update ph t φ) where
  nodup := h.nodup
  ready u hu := by
    obtain ⟨hworker, hready⟩ := h.ready u hu
    refine ⟨hworker, ?_⟩
    rw [Function.update_of_ne, hready]
    rintro rfl
    exact awake hu
  raised := h.raised

/-- Once the signal is given, one worker can go on. -/
theorem Settled.notified (h : Settled n a ph) (hb : a.Notified b) :
    Settled n b ph ∧ Covered n b ph := by
  cases hb with
  | @woken t waits =>
    -- the one that is woken does not wait any more, and will look into the queue
    obtain ⟨hworker, hready⟩ := h.ready t waits
    refine ⟨⟨h.nodup.erase t, fun u hu => h.ready u (List.mem_of_mem_erase hu), fun hraised => ?_⟩,
      .inr ⟨t, hworker, h.nodup.not_mem_erase, by rw [hready]; decide⟩⟩
    rw [h.raised hraised] at waits
    cases waits
  | kept alone => exact ⟨⟨h.nodup, h.ready, fun _ => alone⟩, .inl rfl⟩

/-- A key that is put into the queue leaves a worker that will look, and nothing else needs one
more. -/
theorem Alert.put (h : Settled n a ph) {enqueued : Bool} (hb : SignalAfter enqueued a b)
    (hcovered : enqueued = false → q.pending ≠ [] → Covered n a ph) : Alert n q b ph := by
  unfold SignalAfter at hb
  cases enqueued with
  | true =>
    obtain ⟨hsettled, hcovers⟩ := h.notified hb
    exact ⟨hsettled, fun _ => hcovers⟩
  | false =>
    obtain rfl : b = a := hb
    exact ⟨h, hcovered rfl⟩

/-- **A push leaves a worker that will look.** -/
theorem Alert.push {id : ResourceId} (h : Alert n q a ph)
    (hb : SignalAfter ((q.push id).1 = .enqueued) a b) : Alert n (q.push id).2 b ph := by
  refine .put h.settled hb fun hnot => ?_
  rcases q.push_cases id with ⟨-, hpush⟩ | ⟨-, hpush⟩ | hpush | ⟨-, -, hpush⟩
  · rw [hpush]
    exact h.covered
  · rw [hpush]
    exact h.covered
  · rw [hpush]
    exact h.covered
  · rw [hpush] at hnot
    cases hnot

/-- Only a worker that is ready looks for a key. -/
theorem watches_tryPop {r : Option ResourceId} (h : Watches name φ (.step (.tryPop name)) r φ') :
    φ = .ready ∧ φ' = if r.isSome then .busy else .turning := by
  cases h with
  | taken | nothing => exact ⟨rfl, rfl⟩
  | aside unqueued => exact absurd unqueued id

/-- Only one that works on a key ends that. -/
theorem watches_finish {id : ResourceId} {r : Bool}
    (h : Watches name φ (.step (.finish name id)) r φ') : φ = .busy ∧ φ' = .ready := by
  cases h with
  | finish => exact ⟨rfl, rfl⟩
  | aside unqueued => exact absurd unqueued (fun h => h)

/-- Only one that has found nothing waits. -/
theorem watches_await {r : Unit} (h : Watches name φ (.await name) r φ') :
    φ = .turning ∧ φ' = .ready := by
  cases h with
  | await => exact ⟨rfl, rfl⟩
  | aside unqueued => exact absurd unqueued (fun h => h)

/-- Everything else leaves it where it is. -/
theorem watches_unqueued {c : Command} {r : c.Reply} (hc : c.Unqueued) (h : Watches name φ c r φ') :
    φ' = φ ∧ φ ≠ .turning := by
  cases h with
  | aside _ settled => exact ⟨rfl, settled⟩
  | _ => exact absurd hc (fun h => h)

/-- **Whatever a worker does leaves a worker that will look**, as long as keys wait. -/
theorem Alert.performs {c : Command} {r : c.Reply} (h : Alert n x.queue x.signal ph)
    (worker : t < n) (awake : t ∉ x.signal.waiting) (hlead : Watches name (ph t) c r φ)
    (hp : Performs name t x c r q b) : Alert n q b (Function.update ph t φ) := by
  have hself : ∀ {φ : Phase}, φ ≠ .turning → ∀ {b : Signal}, t ∉ b.waiting →
      Covered n b (Function.update ph t φ) := fun hφ _ hb =>
    .inr ⟨t, worker, hb, by rw [Function.update_self]; exact hφ⟩
  have hsettled := h.settled.update awake φ
  cases hp with
  | tryPop =>
    obtain ⟨-, rfl⟩ := watches_tryPop hlead
    refine ⟨hsettled, fun hpending => ?_⟩
    cases htaken : x.queue.tryPop.1 with
    | some id => exact hself (φ := .busy) (by decide) awake
    | none =>
      -- it has found nothing because there is nothing
      exact absurd (Queue.pending_of_tryPop_none htaken) hpending
  | finish notified =>
    obtain ⟨-, rfl⟩ := watches_finish hlead
    exact .put hsettled notified fun _ _ => hself (by decide) awake
  | goesOn raised =>
    obtain ⟨-, rfl⟩ := watches_await hlead
    refine ⟨⟨hsettled.nodup, hsettled.ready, fun _ => hsettled.raised raised⟩, fun _ =>
      hself (by decide) awake⟩
  | waits lowered =>
    obtain ⟨hturning, rfl⟩ := watches_await hlead
    refine ⟨⟨?_, fun u hu => ?_, fun hraised => ?_⟩, fun hpending => ?_⟩
    · rw [List.nodup_append]
      refine ⟨hsettled.nodup, List.pairwise_singleton .., fun u hu v hv => ?_⟩
      rw [List.mem_singleton.1 hv]
      rintro rfl
      exact awake hu
    · rcases List.mem_append.1 hu with hu | hu
      · exact hsettled.ready u hu
      · rw [List.mem_singleton.1 hu, Function.update_self]
        exact ⟨worker, rfl⟩
    · rw [show x.signal.raised = true from hraised] at lowered
      cases lowered
    · -- this worker was not to look, so another one is
      rcases h.covered hpending with hraised | ⟨u, hu, hawake, hlooks⟩
      · rw [hraised] at lowered
        cases lowered
      · have hne : u ≠ t := by
          rintro rfl
          exact hlooks hturning
        refine .inr ⟨u, hu, fun hmem => ?_, by rw [Function.update_of_ne hne]; exact hlooks⟩
        rcases List.mem_append.1 hmem with hmem | hmem
        · exact hawake hmem
        · exact hne (List.mem_singleton.1 hmem)
  | aside unqueued =>
    obtain ⟨rfl, -⟩ := watches_unqueued unqueued hlead
    rw [Function.update_eq_self]
    exact h

/-! ## All that is reached

What holds at first, and after each move, holds always. -/

/-- Somebody will look where a key waits, and each worker is where its program suits. -/
def Watched (name : QueueName) (n : Nat) (x : Floor) : Prop :=
  ∃ ph : Nat → Phase, Alert n x.queue x.signal ph ∧
    ∀ t, (x.left t).Follows (Watches name) (fun _ φ => φ = .ready) (ph t)

/-- At first no key waits, and no worker. -/
theorem watched_new (capacity : Nat)
    (hround : round.Follows (Watches name) (fun _ φ => φ = .ready) .ready) :
    Watched name n (.new capacity round) :=
  ⟨fun _ => .ready, ⟨⟨.nil, nofun, nofun⟩, fun h => absurd rfl h⟩, fun _ => hround⟩

/-- Each move leaves somebody to look. -/
theorem Watched.move (hround : round.Follows (Watches name) (fun _ φ => φ = .ready) .ready)
    (hx : Watched name n x) (h : Move name round n x y) : Watched name n y := by
  obtain ⟨ph, halert, hleft⟩ := hx
  -- after a command of one worker, the others are as they were
  have hupdate : ∀ {t : Nat} {p : Program RoundResult} {φ : Phase},
      p.Follows (Watches name) (fun _ φ => φ = .ready) φ → ∀ u,
        (Function.update x.left t p u).Follows (Watches name) (fun _ φ => φ = .ready)
          (Function.update ph t φ u) := by
    intro t p φ hp u
    by_cases hu : u = t
    · rw [hu, Function.update_self, Function.update_self]
      exact hp
    · rw [Function.update_of_ne hu, Function.update_of_ne hu]
      exact hleft u
  cases h with
  | push notified => exact ⟨ph, halert.push notified, hleft⟩
  | @act t c next r queue signal worker awake asks performs =>
    have hown := hleft t
    rw [asks] at hown
    obtain ⟨φ, hlead, hnext⟩ := hown r
    exact ⟨Function.update ph t φ, halert.performs worker awake hlead performs, hupdate hnext⟩
  | @again t y worker awake ended =>
    have hready : ph t = .ready := by
      have hown := hleft t
      rw [ended] at hown
      exact hown
    have hph : Function.update ph t .ready = ph := by rw [← hready, Function.update_eq_self]
    have hagain := hupdate (t := t) hround
    rw [hph] at hagain
    exact ⟨ph, halert, hagain⟩

theorem Reaches.watched (hround : round.Follows (Watches name) (fun _ φ => φ = .ready) .ready)
    (hx : Watched name n x) (h : Reaches name round n x y) : Watched name n y := by
  induction h with
  | refl => exact hx
  | snoc _ move ih => exact ih.move hround move

/-- **No wakeup is lost.** Let workers do their rounds at a new queue, whatever its capacity, while
keys are pushed by anybody at any time. Whenever all workers wait to be woken, no key waits. There
is one worker at least, as a controller without any does not start. -/
theorem pending_of_all_waiting {s : Settings} {capacity : Nat} (hn : 0 < n)
    (h : Reaches name (roundOf s name) n (.new capacity (roundOf s name)) y)
    (hwaiting : ∀ t < n, t ∈ y.signal.waiting) : y.queue.pending = [] := by
  have hround := follows_roundOf s name
  obtain ⟨ph, halert, -⟩ := h.watched hround (watched_new capacity hround)
  refine Classical.byContradiction fun hpending => ?_
  rcases halert.covered hpending with hraised | ⟨t, ht, hawake, -⟩
  · -- nobody would wait then
    have hnobody := hwaiting 0 hn
    rw [halert.settled.raised hraised] at hnobody
    cases hnobody
  · exact hawake (hwaiting t ht)

/-! ## Two keys and one signal

Two keys wake one worker. The end of its work on the first one, which was pushed again, wakes the
other. -/

/-- To notify is what comes of a key. -/
theorem signalAfter_notify (enqueued : Bool) (x : Signal) :
    SignalAfter enqueued x (if enqueued = true then x.notify else x) := by
  cases enqueued with
  | true => exact x.notified_notify
  | false => exact rfl

/-- What a command of a worker is replied where nothing is known. -/
def reply? (name : QueueName) (t : Nat) (x : Floor) :
    (c : Command) → Option (c.Reply × Queue × Signal)
  | .step (.tryPop k) =>
    if k = name then some (x.queue.tryPop.1, x.queue.tryPop.2, x.signal) else none
  | .step (.finish k id) =>
    if k = name then
      some ((x.queue.done id).1, (x.queue.done id).2,
        if (x.queue.done id).1 = true then x.signal.notify else x.signal)
    else none
  | .await k =>
    if k = name then
      some ((), x.queue, if x.signal.raised = true then { x.signal with raised := false }
        else { x.signal with waiting := x.signal.waiting ++ [t] })
    else none
  | .step (.findLimiter _) => some (none, x.queue, x.signal)
  | _ => none

/-- Such a reply is one of those that may be given. -/
theorem performs_of_reply? {c : Command} {r : c.Reply} {q : Queue} {b : Signal}
    (h : reply? name t x c = some (r, q, b)) : Performs name t x c r q b := by
  unfold reply? at h
  split at h
  · -- a key is looked for
    split at h
    · next hname =>
      subst hname
      cases h
      exact .tryPop
    · cases h
  · -- the work on a key ends
    split at h
    · next hname =>
      subst hname
      cases h
      exact .finish (signalAfter_notify _ _)
    · cases h
  · -- the worker goes on at once, or waits
    split at h
    · next hname =>
      subst hname
      cases h
      cases hraised : x.signal.raised with
      | true => exact .goesOn hraised
      | false => exact .waits hraised
    · cases h
  · cases h
    exact .aside trivial
  · cases h

/-- What happens next. -/
inductive Turn where
  | push (id : ResourceId)
  | worker (t : Nat)

/-- A key is pushed, or one of `n` workers takes its next command if it does not wait. -/
def Floor.turn (name : QueueName) (round : Program RoundResult) (n : Nat) (x : Floor) : Turn → Floor
  | .push id =>
    { x with
      queue := (x.queue.push id).2
      signal := if decide ((x.queue.push id).1 = .enqueued) = true then x.signal.notify
        else x.signal }
  | .worker t =>
    if t < n ∧ t ∉ x.signal.waiting then
      match x.left t with
      | .done _ => { x with left := Function.update x.left t round }
      | .ask c next =>
        match reply? name t x c with
        | some (r, queue, signal) => { queue, signal, left := Function.update x.left t (next r) }
        | none => x
    else x

/-- A turn is a move, or none. -/
theorem reaches_turn (name : QueueName) (round : Program RoundResult) (n : Nat) (x : Floor)
    (a : Turn) : Reaches name round n x (x.turn name round n a) := by
  cases a with
  | push id => exact .snoc .refl (.push (signalAfter_notify _ _))
  | worker t =>
    unfold Floor.turn
    dsimp only
    split
    · next hawake =>
      split
      · next y hended => exact .snoc .refl (.again hawake.1 hawake.2 hended)
      · next c next hasks =>
        split
        · next r queue signal hreply =>
          exact .snoc .refl (.act hawake.1 hawake.2 hasks (performs_of_reply? hreply))
        · -- a turn that cannot be taken leaves the floor as it is
          exact .refl
    · exact .refl

/-- So are turns one after another. -/
theorem reaches_turns (x : Floor) (turns : List Turn) :
    Reaches name round n x (turns.foldl (Floor.turn name round n) x) := by
  induction turns generalizing x with
  | nil => exact .refl
  | cons a turns ih => exact (reaches_turn name round n x a).trans (ih _)

/-- Two workers find nothing. Then two keys are pushed, for which only one of them goes on at
once. -/
def oneWaits : List Turn :=
  [.worker 0, .worker 1, .push Pass.reviews, .push { ns := "default", name := "ratings" },
    .worker 0, .worker 1]

/-- It takes the first key, which is pushed again meanwhile; so the end of its work wakes the other
one. -/
def allWait : List Turn :=
  [.worker 0, .worker 0, .push Pass.reviews, .worker 0, .worker 0, .worker 0, .worker 0, .worker 1,
      .worker 1] ++
    List.replicate 5 (.worker 0) ++ List.replicate 5 (.worker 1)

/-- One worker waits although two keys wait as well, but not both workers. -/
theorem pending_of_all_waiting_collapsed :
    let round := Turns.roundOf Pass.noMetrics .metric
    let midway := oneWaits.foldl (Floor.turn .metric round 2) (.new 2 round)
    let ended := allWait.foldl (Floor.turn .metric round 2) midway
    (midway.signal.waiting = [1] ∧ midway.queue.pending.length = 2) ∧
      (0 < 2 ∧ ∀ t < 2, t ∈ ended.signal.waiting) ∧ ended.queue.pending = [] := by
  intro round midway ended
  have hwaiting : ∀ t < 2, t ∈ ended.signal.waiting := by decide +kernel
  exact ⟨by decide +kernel, ⟨by decide, hwaiting⟩,
    pending_of_all_waiting (by decide) ((reaches_turns _ oneWaits).trans (reaches_turns _ allWait))
      hwaiting⟩

end Waking

end MeshLimiter
