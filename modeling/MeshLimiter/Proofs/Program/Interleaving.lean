import Mathlib.Logic.Function.Basic
import MeshLimiter.Proofs.Program.Takes
/-!
# Programs beside one another

Several parties share a world. Each has a program; whoever is at it takes a single command, in any
order, and a party that has ended may begin on another program. A lock is held by one party at a
time, and other things may happen in between that are no party's doing.

* **`Interleaving.Reaches`**: what parties can come to;
* **`Program.Keeps`**: whatever the others do, a program keeps an invariant in which the *phase*
  that the party is in has a part;
* **`Interleaving.Reaches.kept`**: if all programs do, then the invariant holds of all that is
  reached;
* **`Interleaving.Parties.turns`**: parties that take turns in a given order.
-/

namespace MeshLimiter

namespace Interleaving

/-- Something that happened: a party began on something, or took a step. -/
inductive Occurrence (τ ν : Type) where
  | began (t : τ) (note : ν)
  | did (t : τ) (event : Event)

/-- What parties share. -/
structure Shared (τ ν : Type) where
  world : World
  owner : Lock → Option τ
  /-- What has happened so far, the last first. -/
  past : List (Occurrence τ ν)

/-- Parties, with what is left to do for each. -/
structure Parties (τ ν α : Type) where
  shared : Shared τ ν
  left : τ → Program α

/-- What may happen. -/
structure Rules (τ ν α : Type) where
  answers : Answering
  /-- A party that has ended may begin on a program, of which note is taken. -/
  begins : τ → ν → World → Program α → World → Prop
  /-- The world may change by itself. -/
  outside : Shared τ ν → World → Prop

variable {τ ν α : Type}

namespace Shared

/-- A party has taken a step. -/
def after (σ : Shared τ ν) (t : τ) (event : Event) (w : World) : Shared τ ν :=
  { σ with world := w, past := .did t event :: σ.past }

/-- A party has begun on something. -/
def started (σ : Shared τ ν) (t : τ) (note : ν) (w : World) : Shared τ ν :=
  { σ with world := w, past := .began t note :: σ.past }

/-- A lock has come to be held by a party, or by none. -/
def hand (σ : Shared τ ν) (l : Lock) (t : Option τ) : Shared τ ν :=
  { σ with owner := Function.update σ.owner l t }

/-- A lock that was handed over is held by whom it was handed to. -/
@[simp] theorem owner_hand_self (σ : Shared τ ν) (l : Lock) (t : Option τ) :
    (σ.hand l t).owner l = t :=
  Function.update_self ..

/-- To hand over the lock of the registry leaves the locks of entries alone. -/
theorem owner_hand_registry (σ : Shared τ ν) (t : Option τ) (e : EntryId) :
    (σ.hand .registry t).owner (.entry e) = σ.owner (.entry e) := by
  show Function.update σ.owner Lock.registry t (Lock.entry e) = _
  rw [Function.update_of_ne]
  exact nofun

end Shared

/-- What a party has done since it last began on something, the last first. -/
def sinceBegan [DecidableEq τ] (t : τ) : List (Occurrence τ ν) → List Event
  | [] => []
  | .began u _ :: past => if u = t then [] else sinceBegan t past
  | .did u event :: past => if u = t then event :: sinceBegan t past else sinceBegan t past

/-- What a party's command may be replied, and what is shared after it. A lock is there to be had
only if no one holds it. -/
inductive Performs (R : Answering) (t : τ) (σ : Shared τ ν) :
    (c : Command) → c.Reply → Shared τ ν → Prop where
  | step {a : Step} {r : a.Reply} {w : World} (answer : R σ.world a r w) :
    Performs R t σ (.step a) r (σ.after t ⟨a, r⟩ w)
  | acquire {l : Lock} (free : σ.owner l = none) : Performs R t σ (.acquire l) ()
      (σ.hand l (some t))
  | release (l : Lock) : Performs R t σ (.release l) () (σ.hand l none)
  | await (queue : QueueName) : Performs R t σ (.await queue) () σ
  | sleepUntil (time : Nat) : Performs R t σ (.sleepUntil time) () σ
  | retryAfter (delay : Nat) (id : ResourceId) : Performs R t σ (.retryAfter delay id) () σ

variable {R : Answering} {t : τ} {σ σ' : Shared τ ν}

/-- A step changes the world and is noted in the past. -/
@[simp] theorem performs_step {a : Step} {r : a.Reply} :
    Performs R t σ (.step a) r σ' ↔ ∃ w, R σ.world a r w ∧ σ' = σ.after t ⟨a, r⟩ w := by
  constructor
  · intro h
    cases h with
    | step answer => exact ⟨_, answer, rfl⟩
  · rintro ⟨w, answer, rfl⟩
    exact .step answer

/-- A lock is taken only if nobody holds it. -/
@[simp] theorem performs_acquire {l : Lock} {r : Unit} :
    Performs R t σ (.acquire l) r σ' ↔ σ.owner l = none ∧ σ' = σ.hand l (some t) := by
  constructor
  · intro h
    cases h with
    | acquire free => exact ⟨free, rfl⟩
  · rintro ⟨free, rfl⟩
    exact .acquire free

/-- A lock that is given up is free. -/
@[simp] theorem performs_release {l : Lock} {r : Unit} :
    Performs R t σ (.release l) r σ' ↔ σ' = σ.hand l none := by
  constructor
  · intro h
    cases h with
    | release => rfl
  · rintro rfl
    exact .release l

/-! ## What parties come to

One of them takes a step, begins on something, or the world changes beside them. -/

variable [DecidableEq τ]

/-- A single move. -/
inductive Move (G : Rules τ ν α) : Parties τ ν α → Parties τ ν α → Prop where
  /-- A party takes its next command. -/
  | act {t : τ} {σ σ' : Shared τ ν} {left : τ → Program α} {c : Command}
      {next : c.Reply → Program α}
    {r : c.Reply} (asks : left t = .ask c next) (performs : Performs G.answers t σ c r σ') :
    Move G ⟨σ, left⟩ ⟨σ', Function.update left t (next r)⟩
  /-- A party that has ended begins on another program. -/
  | start {t : τ} {note : ν} {σ : Shared τ ν} {left : τ → Program α} {x : α} {p : Program α}
    {w : World} (idle : left t = .done x) (begins : G.begins t note σ.world p w) :
    Move G ⟨σ, left⟩ ⟨σ.started t note w, Function.update left t p⟩
  /-- Something happens that is no party's doing. -/
  | outside {σ : Shared τ ν} {left : τ → Program α} {w : World} (happens : G.outside σ w) :
    Move G ⟨σ, left⟩ ⟨{ σ with world := w }, left⟩

/-- What is reached by moves. -/
inductive Reaches (G : Rules τ ν α) (x : Parties τ ν α) : Parties τ ν α → Prop where
  | refl : Reaches G x x
  | snoc {y z : Parties τ ν α} (before : Reaches G x y) (move : Move G y z) : Reaches G x z

variable {G : Rules τ ν α} {x y z : Parties τ ν α}

/-- What is reached from what is reached is reached. -/
theorem Reaches.trans (h : Reaches G x y) (h' : Reaches G y z) : Reaches G x z := by
  induction h' with
  | refl => exact h
  | snoc _ move ih => exact .snoc ih move

end Interleaving

/-! ## Invariants with phases

Each party is in a phase, and what holds depends on all phases. A program keeps that if each of its
commands does, whatever is replied. -/

namespace Program

open Interleaving

variable {τ ν Φ α β : Type} [DecidableEq τ]

/-- Whatever happens in between, a party that runs a program keeps an invariant: after each of its
commands the party is in a phase for which the invariant holds again, and in the end value and phase
are as asked for. -/
def Keeps (R : Answering) (I : Shared τ ν → (τ → Φ) → Prop) (t : τ) (post : α → Φ → Prop) :
    Program α → Φ → Prop
  | done x, φ => post x φ
  | ask c next, φ => ∀ ⦃σ ph r σ'⦄, I σ ph → ph t = φ → Performs R t σ c r σ' →
      ∃ φ', I σ' (Function.update ph t φ') ∧ Keeps R I t post (next r) φ'

variable {R : Answering} {I : Shared τ ν → (τ → Φ) → Prop} {t : τ}

/-- It may be asked less of the end. -/
theorem Keeps.mono {post post' : α → Φ → Prop} {p : Program α} {φ : Φ} (h : p.Keeps R I t post φ)
    (hpost : ∀ x φ', post x φ' → post' x φ') : p.Keeps R I t post' φ := by
  induction p generalizing φ with
  | done x => exact hpost x φ h
  | ask c next ih =>
    intro σ ph r σ' hI hφ hperforms
    obtain ⟨φ', hI', hnext⟩ := h hI hφ hperforms
    exact ⟨φ', hI', ih r hnext⟩

/-- A single command keeps the invariant if each of its answers does. -/
theorem keeps_command {c : Command} {post : c.Reply → Φ → Prop} {φ : Φ}
    (h : ∀ ⦃σ ph r σ'⦄, I σ ph → ph t = φ → Performs R t σ c r σ' →
      ∃ φ', I σ' (Function.update ph t φ') ∧ post r φ') : (command c).Keeps R I t post φ :=
  h

/-- One program after another keeps what each of them does. -/
theorem Keeps.bind {post : β → Φ → Prop} {p : Program α} {f : α → Program β} {φ : Φ}
    (h : p.Keeps R I t (fun x φ' => (f x).Keeps R I t post φ') φ) :
    (p >>= f).Keeps R I t post φ := by
  induction p generalizing φ with
  | done x => exact h
  | ask c next ih =>
    intro σ ph r σ' hI hφ hperforms
    obtain ⟨φ', hI', hnext⟩ := h hI hφ hperforms
    exact ⟨φ', hI', ih r hnext⟩

/-- A program whose commands leave the invariant alone stays in its phase. -/
theorem Takes.keeps {P : Command → Prop} {post : α → Φ → Prop} {p : Program α} {φ : Φ}
    (hp : p.Takes P)
    (hP : ∀ ⦃c σ ph r σ'⦄, P c → I σ ph → ph t = φ → Performs R t σ c r σ' → I σ' ph)
    (hpost : ∀ x, post x φ) : p.Keeps R I t post φ := by
  induction p with
  | done x => exact hpost x
  | ask c next ih =>
    intro σ ph r σ' hI hφ hperforms
    refine ⟨φ, ?_, ih r (hp.2 r)⟩
    rw [← hφ, Function.update_eq_self]
    exact hP hp.1 hI hφ hperforms

end Program

namespace Attempt

open Interleaving

variable {τ ν Φ ε α β : Type} [DecidableEq τ] {R : Answering}
  {I : Shared τ ν → (τ → Φ) → Prop} {t : τ}

/-- In an attempt only success goes on to what comes next; an error ends it. -/
theorem keeps_bind {post : Except ε β → Φ → Prop} {p : Attempt ε α} {f : α → Attempt ε β} {φ : Φ}
    (h : p.run.Keeps R I t (fun x φ' =>
      match x with
      | .ok x => (f x).run.Keeps R I t post φ'
      | .error e => post (.error e) φ') φ) : (p >>= f).run.Keeps R I t post φ := by
  refine Program.Keeps.bind (h.mono fun x φ' hx => ?_)
  cases x with
  | ok x => exact hx
  | error e => exact hx

/-- A step that cannot fail always goes on. -/
theorem keeps_lift_bind {post : Except ε β → Φ → Prop} {p : Program α} {f : α → Attempt ε β} {φ : Φ}
    (h : p.Keeps R I t (fun x φ' => (f x).run.Keeps R I t post φ') φ) :
    ((liftM p : Attempt ε α) >>= f).run.Keeps R I t post φ :=
  keeps_bind (Program.Keeps.bind h)

end Attempt

/-! ## All that is reached

What holds at first and is kept by every program holds always. -/

namespace Interleaving

variable {τ ν Φ α : Type} [DecidableEq τ] {G : Rules τ ν α} {I : Shared τ ν → (τ → Φ) → Prop}
  {Q : τ → Program α → Φ → Prop} {post : τ → α → Φ → Prop} {x y : Parties τ ν α}

/-- An invariant holds for some phases of the parties, and what is left to do for each suits its
phase. -/
def Suits (I : Shared τ ν → (τ → Φ) → Prop) (Q : τ → Program α → Φ → Prop) (x : Parties τ ν α) :
    Prop :=
  ∃ ph : τ → Φ, I x.shared ph ∧ ∀ t, Q t (x.left t) (ph t)

/-- Whatever may be done, begin or happen leaves this so. -/
structure Rules.Carry (G : Rules τ ν α) (I : Shared τ ν → (τ → Φ) → Prop)
    (Q : τ → Program α → Φ → Prop) : Prop where
  act : ∀ ⦃t σ ph c next r σ'⦄, I σ ph → Q t (.ask c next) (ph t) → Performs G.answers t σ c r σ' →
    ∃ φ, I σ' (Function.update ph t φ) ∧ Q t (next r) φ
  begins : ∀ ⦃t note σ ph a p w⦄, I σ ph → Q t (.done a) (ph t) → G.begins t note σ.world p w →
    ∃ φ, I (σ.started t note w) (Function.update ph t φ) ∧ Q t p φ
  outside : ∀ ⦃σ ph w⦄, I σ ph → G.outside σ w → I { σ with world := w } ph

/-- A single move leaves the parties as they have to be. -/
theorem Suits.move (hG : G.Carry I Q) (hx : Suits I Q x) (h : Move G x y) : Suits I Q y := by
  obtain ⟨ph, hI, hleft⟩ := hx
  -- after a change for one party, the others are as they were
  have hupdate : ∀ {left : τ → Program α} {t p φ}, (∀ u, Q u (left u) (ph u)) → Q t p φ →
      ∀ u, Q u (Function.update left t p u) (Function.update ph t φ u) := by
    intro left t p φ hleft hp u
    by_cases hu : u = t
    · subst hu
      rw [Function.update_self, Function.update_self]
      exact hp
    · rw [Function.update_of_ne hu, Function.update_of_ne hu]
      exact hleft u
  cases h with
  | @act t σ σ' left c next r asks performs =>
    have hparty : Q t (left t) (ph t) := hleft t
    rw [asks] at hparty
    obtain ⟨φ, hI', hnext⟩ := hG.act hI hparty performs
    exact ⟨Function.update ph t φ, hI', hupdate hleft hnext⟩
  | @start t note σ left a p w idle begins =>
    have hparty : Q t (left t) (ph t) := hleft t
    rw [idle] at hparty
    obtain ⟨φ, hI', hp⟩ := hG.begins hI hparty begins
    exact ⟨Function.update ph t φ, hI', hupdate hleft hp⟩
  | outside happens => exact ⟨ph, hG.outside hI happens, hleft⟩

/-- So does any number of moves. -/
theorem Reaches.suits (hG : G.Carry I Q) (hx : Suits I Q x) (h : Reaches G x y) : Suits I Q y := by
  induction h with
  | refl => exact hx
  | snoc _ move ih => exact ih.move hG move

/-- An invariant holds for some phases of the parties, and each keeps it with what is left to do. -/
def Kept (G : Rules τ ν α) (I : Shared τ ν → (τ → Φ) → Prop) (post : τ → α → Φ → Prop)
    (x : Parties τ ν α) : Prop :=
  ∃ ph : τ → Φ, I x.shared ph ∧ ∀ t, (x.left t).Keeps G.answers I t (post t) (ph t)

/-- Whatever may begin or happen leaves an invariant intact. -/
structure Rules.Respect (G : Rules τ ν α) (I : Shared τ ν → (τ → Φ) → Prop)
    (post : τ → α → Φ → Prop) : Prop where
  begins : ∀ ⦃t note σ ph a p w⦄, I σ ph → post t a (ph t) → G.begins t note σ.world p w →
    ∃ φ, I (σ.started t note w) (Function.update ph t φ) ∧ p.Keeps G.answers I t (post t) φ
  outside : ∀ ⦃σ ph w⦄, I σ ph → G.outside σ w → I { σ with world := w } ph

/-- What all programs keep holds of all that is reached. -/
theorem Reaches.kept (hG : G.Respect I post) (hx : Kept G I post x) (h : Reaches G x y) :
    Kept G I post y := by
  refine h.suits (Q := fun t p φ => p.Keeps G.answers I t (post t) φ) ?_ hx
  exact
    { act := fun t σ ph c next r σ' hI hparty performs => hparty hI rfl performs
      begins := hG.begins
      outside := hG.outside }

/-! ## Taking turns

Moves can be computed if each step is performed as it is. -/

namespace Parties

/-- A party begins on a program. -/
def begun (x : Parties τ ν α) (t : τ) (note : ν) (p : Program α) : Parties τ ν α :=
  { shared := x.shared.started t note x.shared.world, left := Function.update x.left t p }

/-- A party that has nothing left to do begins on a program. -/
theorem reaches_begun {t : τ} {note : ν} {a : α} {p : Program α} (idle : x.left t = .done a)
    (begins : G.begins t note x.shared.world p x.shared.world) : Reaches G x (x.begun t note p) :=
  .snoc .refl (.start idle begins)

/-- A party takes its next command, if it has one and does not have to wait for a lock. -/
def turn (x : Parties τ ν α) (t : τ) : Parties τ ν α :=
  match x.left t with
  | .done _ => x
  | .ask (.step a) next =>
    let (r, w) := x.shared.world.perform a
    { shared := x.shared.after t ⟨a, r⟩ w, left := Function.update x.left t (next r) }
  | .ask (.acquire l) next =>
    if (x.shared.owner l).isNone then
      { shared := x.shared.hand l (some t), left := Function.update x.left t (next ()) }
    else x
  | .ask (.release l) next =>
    { shared := x.shared.hand l none, left := Function.update x.left t (next ()) }
  | .ask (.await _) next => { x with left := Function.update x.left t (next ()) }
  | .ask (.sleepUntil _) next => { x with left := Function.update x.left t (next ()) }
  | .ask (.retryAfter _ _) next => { x with left := Function.update x.left t (next ()) }

/-- Parties take turns in order. -/
def turns (x : Parties τ ν α) (ts : List τ) : Parties τ ν α :=
  ts.foldl turn x

/-- A turn is a move, or nothing if the party has to wait. -/
theorem reaches_turn (hG : ∀ w a, G.answers w a (w.perform a).1 (w.perform a).2)
    (x : Parties τ ν α) (t : τ) : Reaches G x (x.turn t) := by
  -- each command that is not made to wait is a single move
  have hact : ∀ {c next r σ'}, x.left t = .ask c next → Performs G.answers t x.shared c r σ' →
      Reaches G x ⟨σ', Function.update x.left t (next r)⟩ := fun asks performs =>
    .snoc .refl (.act asks performs)
  unfold turn
  split
  · exact .refl
  · next a next hleft => exact hact hleft (.step (hG _ a))
  · next l next hleft =>
    split
    · next hfree => exact hact hleft (.acquire (Option.isNone_iff_eq_none.1 hfree))
    · exact .refl
  · next l next hleft => exact hact hleft (.release l)
  · next queue next hleft => exact hact hleft (.await queue)
  · next time next hleft => exact hact hleft (.sleepUntil time)
  · next delay id next hleft => exact hact hleft (.retryAfter delay id)

/-- So are turns one after another, by induction on their list. -/
theorem reaches_turns (hG : ∀ w a, G.answers w a (w.perform a).1 (w.perform a).2)
    (x : Parties τ ν α) (ts : List τ) : Reaches G x (x.turns ts) := by
  induction ts generalizing x with
  | nil => exact .refl
  | cons t ts ih => exact (reaches_turn hG x t).trans (ih _)

end Parties

/-- Whether a program has ended well. -/
def succeeded {ε : Type} : Program (Except ε Unit) → Bool
  | .done (.ok _) => true
  | _ => false

/-- Only a program that is done can have ended well. -/
theorem eq_done_of_succeeded {ε : Type} {p : Program (Except ε Unit)} (h : succeeded p = true) :
    p = .done (.ok ()) := by
  match p with
  | .done (.ok ()) => rfl
  | .done (.error _) => cases h
  | .ask _ _ => cases h

end Interleaving

end MeshLimiter
