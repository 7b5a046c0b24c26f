import MeshLimiter.Program.Step
/-!
# Programs

A program is a tree: each node holds a command and, for every reply to it, the program that goes on.
So what a pass does is a value, which can be run alone or beside others.
-/

namespace MeshLimiter

/-- What one program at a time may hold. -/
inductive Lock where
  /-- The right to refresh an entry. -/
  | entry (e : EntryId)
  /-- The right to merge into the registry. -/
  | registry
deriving DecidableEq, Repr

/-- A command: a step, or one of those that a program may have to wait for. -/
inductive Command where
  | step (a : Step)
  | acquire (l : Lock)
  | release (l : Lock)
  /-- Waits until a key has been put into a queue. -/
  | await (queue : QueueName)
  | sleepUntil (time : Nat)
  /-- Starts a program of its own that pushes a key on the spec queue after a delay. -/
  | retryAfter (delay : Nat) (id : ResourceId)

def Command.Reply : Command → Type
  | step a => a.Reply
  | _ => Unit

/-- A program that ends with a value. -/
inductive Program (α : Type) where
  | done (value : α)
  | ask (c : Command) (next : c.Reply → Program α)

namespace Program

/-- Goes on with a second program where the first ends. -/
def bind {α β : Type} : Program α → (α → Program β) → Program β
  | done a, f => f a
  | ask c next, f => ask c fun r => bind (next r) f

instance : Monad Program where
  pure := done
  bind := bind

def command (c : Command) : Program c.Reply := ask c done

def step (a : Step) : Program a.Reply := command (.step a)

/-- Does the whole of a program while it holds a lock. -/
def holding {α : Type} (l : Lock) (body : Program α) : Program α := do
  command (.acquire l)
  let r ← body
  command (.release l)
  return r

def count (e : PassEvent) : Program Unit := step (.count e)

@[simp] theorem pure_eq_done {α : Type} (a : α) : (pure a : Program α) = done a := rfl

@[simp] theorem done_bind {α β : Type} (a : α) (f : α → Program β) : (done a >>= f) = f a := rfl

@[simp] theorem ask_bind {α β : Type} (c : Command) (next : c.Reply → Program α)
    (f : α → Program β) : (ask c next >>= f) = ask c fun r => next r >>= f := rfl

theorem bind_assoc {α β γ : Type} (p : Program α) (f : α → Program β) (g : β → Program γ) :
    (p >>= f >>= g) = (p >>= fun a => f a >>= g) := by
  induction p with
  | done a => rfl
  | ask c next ih => simp [ih]

end Program

abbrev Attempt (ε α : Type) := ExceptT ε Program α

namespace Attempt

/-- An attempt that takes note of how it ended. -/
def noting {ε α : Type} (event : Except ε α → Option PassEvent) (p : Attempt ε α) : Attempt ε α :=
  ExceptT.mk do
    let r ← p.run
    match event r with
    | some e => Program.count e
    | none => pure ()
    return r

/-- A call to the cluster, with its error in a wider type. -/
def call {ε : Type} (f : ClusterError → ε) (c : ClusterCall) : Attempt ε c.Answer :=
  ExceptT.mk (do
    let r ← (Program.step (.call c) : Program c.Reply)
    return r.mapError f)

/-- An attempt while it holds a lock, which is released however it ends. -/
def holding {ε α : Type} (l : Lock) (p : Attempt ε α) : Attempt ε α :=
  ExceptT.mk (Program.holding l p.run)

end Attempt

end MeshLimiter
