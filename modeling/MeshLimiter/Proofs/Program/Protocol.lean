import MeshLimiter.Proofs.Program.Interleaving
/-!
# Programs that follow a protocol

A protocol says to which phase a command leads once it is replied to. A program follows it if its
commands do so in order, whatever the replies are. What is to be shown of the program is then shown
of the commands of the protocol, one by one.

* **`Program.Follows`**: a program follows a protocol from a phase on;
* **`Program.Follows.keeps`**: it keeps an invariant that every command of the protocol keeps;
* **`Interleaving.Reaches.follow`**: parties that follow their protocols go on doing so.
-/

namespace MeshLimiter

open Interleaving

/-- There is a reply to every command: any world gives one. -/
theorem Command.nonempty_reply (c : Command) : Nonempty c.Reply := by
  cases c with
  | step a => exact ⟨(({ indexes := .empty "" 0 0 } : World).perform a).1⟩
  | _ => exact ⟨()⟩

/-- Where commands lead from a phase, once they are replied to. -/
abbrev Protocol (Φ : Type) := Φ → (c : Command) → c.Reply → Φ → Prop

namespace Program

variable {Φ Ψ α β : Type} {P : Protocol Φ}

/-- Whatever is replied, each command leads on, and in the end value and phase are as asked for. -/
def Follows (P : Protocol Φ) (post : α → Φ → Prop) : Program α → Φ → Prop
  | done x, φ => post x φ
  | ask c next, φ => ∀ r, ∃ φ', P φ c r φ' ∧ Follows P post (next r) φ'

/-- It may be asked less of the end. -/
theorem Follows.mono {post post' : α → Φ → Prop} {p : Program α} {φ : Φ} (h : p.Follows P post φ)
    (hpost : ∀ x φ', post x φ' → post' x φ') : p.Follows P post' φ := by
  induction p generalizing φ with
  | done x => exact hpost x φ h
  | ask c next ih =>
    intro r
    obtain ⟨φ', hlead, hnext⟩ := h r
    exact ⟨φ', hlead, ih r hnext⟩

/-- One program after another follows the protocol if each of them does. -/
theorem Follows.bind {post : β → Φ → Prop} {p : Program α} {f : α → Program β} {φ : Φ}
    (h : p.Follows P (fun x φ' => (f x).Follows P post φ') φ) : (p >>= f).Follows P post φ := by
  induction p generalizing φ with
  | done x => exact h
  | ask c next ih =>
    intro r
    obtain ⟨φ', hlead, hnext⟩ := h r
    exact ⟨φ', hlead, ih r hnext⟩

/-- A program whose commands leave a phase as it is stays in it. -/
theorem Takes.follows {C : Command → Prop} {post : α → Φ → Prop} {p : Program α} {φ : Φ}
    (hp : p.Takes C)
    (hC : ∀ c r, C c → P φ c r φ) (hpost : ∀ x, post x φ) : p.Follows P post φ := by
  induction p with
  | done x => exact hpost x
  | ask c next ih => exact fun r => ⟨φ, hC c r hp.1, ih r (hp.2 r)⟩

/-- The command that a program comes to is one of the protocol. -/
theorem Follows.leads {post : α → Φ → Prop} {c : Command} {next : c.Reply → Program α} {φ : Φ}
    (h : (ask c next).Follows P post φ) : ∃ r φ', P φ c r φ' := by
  obtain ⟨r⟩ := c.nonempty_reply
  obtain ⟨φ', hlead, -⟩ := h r
  exact ⟨r, φ', hlead⟩

/-- A program that follows a protocol takes none but its commands. -/
theorem Follows.takes_of {C : Command → Prop} {post : α → Φ → Prop} {p : Program α} {φ : Φ}
    (h : p.Follows P post φ) (hC : ∀ φ c r φ', P φ c r φ' → C c) : p.Takes C := by
  induction p generalizing φ with
  | done x => trivial
  | ask c next ih =>
    constructor
    · obtain ⟨r, φ', hlead⟩ := h.leads
      exact hC φ c r φ' hlead
    · intro r
      obtain ⟨φ', -, hnext⟩ := h r
      exact ih r hnext

/-- From a phase that the protocol does not leave, a program takes no commands but those allowed
there. -/
theorem Follows.takes {C : Command → Prop} {post : α → Φ → Prop} {p : Program α} {φ : Φ}
    (h : p.Follows P post φ) (hC : ∀ c r φ', P φ c r φ' → C c ∧ φ' = φ) : p.Takes C := by
  induction p with
  | done x => trivial
  | ask c next ih =>
    constructor
    · obtain ⟨r, φ', hlead⟩ := h.leads
      exact (hC c r φ' hlead).1
    · intro r
      obtain ⟨φ', hlead, hnext⟩ := h r
      obtain rfl := (hC c r φ' hlead).2
      exact ih r hnext

/-- A program that follows a protocol keeps an invariant that each command of the protocol keeps.
The invariant may see less of the phases than the protocol does. -/
theorem Follows.keeps {τ ν : Type} [DecidableEq τ] {R : Answering} {I : Shared τ ν → (τ → Ψ) → Prop}
    {t : τ} {view : Φ → Ψ} {post : α → Φ → Prop} {p : Program α} {φ : Φ} (h : p.Follows P post φ)
    (hkeep : ∀ ⦃φ c r φ' σ ph σ'⦄, P φ c r φ' → I σ ph → ph t = view φ → Performs R t σ c r σ' →
      I σ' (Function.update ph t (view φ'))) :
    p.Keeps R I t (fun x ψ => ∃ φ', ψ = view φ' ∧ post x φ') (view φ) := by
  induction p generalizing φ with
  | done x => exact ⟨φ, rfl, h⟩
  | ask c next ih =>
    intro σ ph r σ' hI hφ hperforms
    obtain ⟨φ', hlead, hnext⟩ := h r
    exact ⟨view φ', hkeep hlead hI hφ hperforms, ih r hnext⟩

end Program

namespace Attempt

variable {Φ ε α β : Type} {P : Protocol Φ}

/-- An attempt goes on to what comes next only if it has succeeded. -/
theorem follows_bind {post : Except ε β → Φ → Prop} {p : Attempt ε α} {f : α → Attempt ε β} {φ : Φ}
    (h : p.run.Follows P (fun x φ' =>
      match x with
      | .ok x => (f x).run.Follows P post φ'
      | .error e => post (.error e) φ') φ) : (p >>= f).run.Follows P post φ := by
  refine Program.Follows.bind (h.mono fun x φ' hx => ?_)
  cases x with
  | ok x => exact hx
  | error e => exact hx

/-- A step, and what comes after it. -/
theorem follows_step_bind {a : Step} {f : a.Reply → Attempt ε β}
    {post : Except ε β → Φ → Prop} {φ : Φ}
    (h : ∀ r, ∃ φ', P φ (.step a) r φ' ∧ (f r).run.Follows P post φ') :
    ((liftM (Program.step a) : Attempt ε a.Reply) >>= f).run.Follows P post φ :=
  h

/-- A call, and what comes after it if it is answered. -/
theorem follows_call_bind {g : ClusterError → ε} {c : ClusterCall} {f : c.Answer → Attempt ε β}
    {post : Except ε β → Φ → Prop} {φ : Φ}
    (h : ∀ r : c.Reply, ∃ φ', P φ (.step (.call c)) r φ' ∧
      match r with
      | .ok x => (f x).run.Follows P post φ'
      | .error e => post (.error (g e)) φ') :
    (Attempt.call g c >>= f).run.Follows P post φ := by
  refine follows_bind fun (r : Except ClusterError c.Answer) => ?_
  obtain ⟨φ', hlead, hnext⟩ := h r
  refine ⟨φ', hlead, ?_⟩
  cases r with
  | ok x => exact hnext
  | error e => exact hnext

/-- A program under a lock takes the lock, follows the protocol, and gives the lock up. -/
theorem follows_holding {post : Except ε α → Φ → Prop} {l : Lock} {p : Attempt ε α} {φ φ₁ : Φ}
    (hacquire : P φ (.acquire l) () φ₁)
    (hbody : p.run.Follows P (fun x φ₂ => ∃ φ₃, P φ₂ (.release l) () φ₃ ∧ post x φ₃) φ₁) :
    (Attempt.holding l p).run.Follows P post φ := by
  have hrest : (p.run >>= fun x => (Program.command (.release l) >>= fun _ => pure x)).Follows
      P post φ₁ :=
    Program.Follows.bind (hbody.mono fun x φ₂ hrelease _ => hrelease)
  exact fun _ => ⟨φ₁, hacquire, hrest⟩

/-- What is counted in the end must leave the phase alone. -/
theorem follows_noting {event : Except ε α → Option PassEvent} {p : Attempt ε α}
    {post : Except ε α → Φ → Prop} {φ : Φ} (hp : p.run.Follows P post φ)
    (hcount : ∀ x φ' e, post x φ' → P φ' (.step (.count e)) () φ') :
    (Attempt.noting event p).run.Follows P post φ := by
  refine Program.Follows.bind (hp.mono fun x φ' hx => ?_)
  dsimp only
  split
  · exact fun _ => ⟨φ', hcount x φ' _ hx, hx⟩
  · exact hx

end Attempt

/-! ## Parties that follow protocols

A program that follows a protocol keeps what each step of the protocol keeps. -/

namespace Interleaving

variable {τ ν Φ α : Type} [DecidableEq τ] {G : Rules τ ν α} {I : Shared τ ν → (τ → Φ) → Prop}
  {P : τ → Protocol Φ} {post : τ → α → Φ → Prop} {x y : Parties τ ν α}

/-- An invariant holds for some phases of the parties, and each follows its protocol from there. -/
def Follow (I : Shared τ ν → (τ → Φ) → Prop) (P : τ → Protocol Φ) (post : τ → α → Φ → Prop)
    (x : Parties τ ν α) : Prop :=
  Suits I (fun t p φ => p.Follows (P t) (post t) φ) x

/-- The protocols leave an invariant intact, and so does whatever may begin or happen. -/
structure Rules.Obey (G : Rules τ ν α) (I : Shared τ ν → (τ → Φ) → Prop) (P : τ → Protocol Φ)
    (post : τ → α → Φ → Prop) : Prop where
  leads : ∀ ⦃t σ ph c r φ σ'⦄, I σ ph → P t (ph t) c r φ → Performs G.answers t σ c r σ' →
    I σ' (Function.update ph t φ)
  begins : ∀ ⦃t note σ ph a p w⦄, I σ ph → post t a (ph t) → G.begins t note σ.world p w →
    ∃ φ, I (σ.started t note w) (Function.update ph t φ) ∧ p.Follows (P t) (post t) φ
  outside : ∀ ⦃σ ph w⦄, I σ ph → G.outside σ w → I { σ with world := w } ph

/-- Whatever is reached, each party still follows its protocol, by induction on the moves. -/
theorem Reaches.follow (hG : G.Obey I P post) (hx : Follow I P post x) (h : Reaches G x y) :
    Follow I P post y := by
  refine h.suits ?_ hx
  exact
    { act := fun t σ ph c next r σ' hI hparty performs => by
        obtain ⟨φ, hlead, hnext⟩ := hparty r
        exact ⟨φ, hG.leads hI hlead performs, hnext⟩
      begins := hG.begins
      outside := hG.outside }

end Interleaving

end MeshLimiter
