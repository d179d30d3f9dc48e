import Mac802154.Library.Checked

namespace Mac802154.Library

-- A sequential program that calls operations of its surroundings, polls them in
-- loops and may fault. The answer to an operation decides how it goes on.
inductive Program (ω : Type) (ρ : ω → Type) : Type → Type 1 where
  | ret {α : Type} (a : α) : Program ω ρ α
  | perform {α : Type} (op : ω) (next : ρ op → Program ω ρ α) : Program ω ρ α
  | repeatUntil {α β : Type} (body : β → Program ω ρ (β × Bool)) (b : β)
      (next : β → Program ω ρ α) : Program ω ρ α
  | fault {α : Type} (why : Fault) : Program ω ρ α

variable {ω : Type} {ρ : ω → Type} {ε σ : Type} {α β : Type}

namespace Program

def bind : Program ω ρ α → (α → Program ω ρ β) → Program ω ρ β
  | ret a, f => f a
  | perform op next, f => perform op fun r => (next r).bind f
  | repeatUntil body b next, f => repeatUntil body b fun b' => (next b').bind f
  | fault why, _ => fault why

instance : Monad (Program ω ρ) where
  pure := ret
  bind := bind

-- An operation whose answer is the result.
def call (op : ω) : Program ω ρ (ρ op) :=
  perform op ret

def ofChecked : Checked α → Program ω ρ α
  | .ok a => ret a
  | .error why => fault why

-- One round of a loop, and what follows it.
def unroll (body : β → Program ω ρ (β × Bool)) (b : β) (next : β → Program ω ρ α) :
    Program ω ρ α :=
  (body b).bind fun (b', done) => if done then next b' else repeatUntil body b' next

-- A program that cannot fault, whatever the answers, and has no loops unless
-- they are allowed.
inductive Tame (loops : Bool) : {α : Type} → Program ω ρ α → Prop where
  | ret {α : Type} (a : α) : Tame loops (.ret a)
  | perform {α : Type} {op : ω} {next : ρ op → Program ω ρ α} (h : ∀ r, Tame loops (next r)) :
      Tame loops (.perform op next)
  | repeatUntil {α β : Type} {body : β → Program ω ρ (β × Bool)} {b : β} {next : β → Program ω ρ α}
      (hloops : loops = true) (hbody : ∀ b, Tame loops (body b)) (hnext : ∀ b, Tame loops (next b)) :
      Tame loops (.repeatUntil body b next)

def isRunning : Program ω ρ α → Bool
  | perform _ _ => true
  | repeatUntil _ _ _ => true
  | _ => false

end Program

-- The surroundings: how they answer an operation, and what may happen to them
-- by itself whenever they can be interrupted.
structure Machine (ω : Type) (ρ : ω → Type) (ε σ : Type) where
  perform : (op : ω) → σ → ρ op × σ
  interruptible : σ → Bool
  occur : ε → σ → σ

inductive Move (ε : Type) where
  | act
  | event (e : ε)

namespace Machine

variable (M : Machine ω ρ ε σ)

-- A program that has returned makes room at once for what comes after it, so
-- nothing happens while it stands.
def move : Move ε → Program ω ρ α × σ → Program ω ρ α × σ
  | .event e, (p, s) => if p.isRunning && M.interruptible s then (p, M.occur e s) else (p, s)
  | .act, (.perform op next, s) => (next (M.perform op s).1, (M.perform op s).2)
  | .act, (.repeatUntil body b next, s) => (.unroll body b next, s)
  | .act, (p, s) => (p, s)

-- A run under one interleaving of the program's steps with events.
def run (p : Program ω ρ α) (s : σ) : List (Move ε) → Program ω ρ α × σ
  | [] => (p, s)
  | m :: ms => let c := M.move m (p, s); run c.1 c.2 ms

-- What a specification asks of a run wherever it stands: `Q` holds of the
-- result once there is one, `I` holds all along, and there is no fault.
def Meets (I : σ → Prop) (Q : α → σ → Prop) : Program ω ρ α × σ → Prop
  | (.ret a, s) => I s ∧ Q a s
  | (.fault _, _) => False
  | (_, s) => I s

def Triple (I P : σ → Prop) (p : Program ω ρ α) (Q : α → σ → Prop) : Prop :=
  ∀ s, P s → ∀ ms, Meets I Q (M.run p s ms)

-- Events cannot take `P` away.
def Stable (P : σ → Prop) : Prop :=
  ∀ s e, P s → M.interruptible s → P (M.occur e s)

-- The run in which nothing happens by itself: the operations it performs, its
-- result and the state it ends in.
inductive Returns : {α : Type} → Program ω ρ α → σ → List ω → α → σ → Prop where
  | ret {α : Type} (a : α) (s : σ) : Returns (.ret a) s [] a s
  | perform {α : Type} {op : ω} {next : ρ op → Program ω ρ α} {s s' : σ} {ops : List ω} {a : α}
      (h : Returns (next (M.perform op s).1) (M.perform op s).2 ops a s') :
      Returns (.perform op next) s (op :: ops) a s'
  | repeatUntil {α β : Type} {body : β → Program ω ρ (β × Bool)} {b : β} {next : β → Program ω ρ α}
      {s s' : σ} {ops : List ω} {a : α} (h : Returns (.unroll body b next) s ops a s') :
      Returns (.repeatUntil body b next) s ops a s'

-- A program that leaves no room for an event until it has returned.
inductive Atomic (I : σ → Prop) : {α : Type} → Program ω ρ α → σ → List ω → α → σ → Prop where
  | ret {α : Type} (a : α) (s : σ) (h : I s) : Atomic I (.ret a) s [] a s
  | perform {α : Type} {op : ω} {next : ρ op → Program ω ρ α} {s s' : σ} {ops : List ω} {a : α}
      (hi : M.interruptible s = false) (h : I s)
      (hnext : Atomic I (next (M.perform op s).1) (M.perform op s).2 ops a s') :
      Atomic I (.perform op next) s (op :: ops) a s'

end Machine

end Mac802154.Library
