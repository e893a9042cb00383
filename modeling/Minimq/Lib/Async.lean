import Mathlib.Order.Monotone.Defs
import Mathlib.Order.Nat

/-! Cancellable programs over a scripted byte transport and a sampled clock. -/

namespace Async

/-- How the environment settles one awaited transport call. -/
inductive Reply (τ : Type) where
  /-- The call completes; the count bounds the bytes it moves. -/
  | ready (count : Nat)
  /-- The call completes with a transport error. -/
  | fail (error : τ)
  /-- A timer around the call fires before the call completes. -/
  | expire
  /-- The caller drops the pending operation at this await. -/
  | cancel
  deriving DecidableEq

/-- Why a program stopped before returning a value. -/
inductive Stop (ε : Type) where
  /-- The program returned an error. -/
  | error (error : ε)
  /-- The program was dropped at an await. -/
  | dropped
  /-- A timer fired at an await; the enclosing deadline resumes from here. -/
  | expired
  deriving DecidableEq

/-- One observable occurrence, in the order in which it happened. -/
inductive Happening (ω : Type) where
  /-- The transport accepted bytes. -/
  | accepted (bytes : List UInt8)
  /-- The transport was asked to drain what it has accepted. -/
  | flushing
  /-- The transport completed a flush. -/
  | flushed
  /-- The transport delivered bytes. -/
  | received (bytes : List UInt8)
  /-- The program passed a point of interest. -/
  | noted (event : ω)
  deriving DecidableEq

/-- The instants successive readings of a clock show. -/
structure Clock where
  /-- The instant shown by each reading. -/
  reading : Nat → Nat
  /-- Time does not run backwards. -/
  monotone : Monotone reading

/--
A program's own state together with the environment it runs in.

The environment is a script: one reply for each await, the bytes the peer will deliver, and the
instants the clock will show. A call whose replies run out is dropped at the next await.
-/
structure World (ω τ σ : Type) where
  /-- The state the program owns. -/
  self : σ
  /-- The answers to the awaits still to come. -/
  replies : List (Reply τ)
  /-- The bytes the peer has still to deliver. -/
  inbound : List UInt8
  clock : Clock
  /-- How often the clock was read. -/
  samples : Nat
  /-- What happened so far. -/
  trace : List (Happening ω)

/-- What an observer sees of a world at one moment; the rest of the script is still hidden. -/
structure Moment (ω σ : Type) where
  /-- The state the program owns. -/
  self : σ
  /-- What happened so far. -/
  trace : List (Happening ω)
  /-- The instant of the latest clock reading. -/
  time : Nat

/-- A program that may stop with an error of type `ε` and keeps its state when it stops. -/
abbrev Program (ω τ σ ε α : Type) := EStateM (Stop ε) (World ω τ σ) α

variable {ω τ σ ε ε' α β : Type}

namespace World

/-- The instant of the latest clock reading. -/
def time (world : World ω τ σ) : Nat := world.clock.reading (world.samples - 1)

/-- What an observer sees now. -/
def moment (world : World ω τ σ) : Moment ω σ := ⟨world.self, world.trace, world.time⟩

/-- Append one occurrence to the record. -/
def record (world : World ω τ σ) (event : Happening ω) : World ω τ σ :=
  { world with trace := world.trace ++ [event] }

end World

/-- Wait for the environment to settle the current call. -/
def await : Program ω τ σ ε (Except τ Nat) := fun world =>
  match world.replies with
  -- Without a reply the call stays pending until it is dropped.
  | [] => .error .dropped world
  | .cancel :: rest => .error .dropped { world with replies := rest }
  | .expire :: rest => .error .expired { world with replies := rest }
  | .ready count :: rest => .ok (.ok count) { world with replies := rest }
  | .fail error :: rest => .ok (.error error) { world with replies := rest }

/-- Offer bytes to the transport, which accepts some leading part of them. -/
def write (bytes : List UInt8) : Program ω τ σ ε (Except τ Nat) := do
  match ← await with
  | .error error => return .error error
  | .ok count =>
    -- A transport never accepts more than it was offered, and may accept nothing.
    let accepted := bytes.take count
    if accepted ≠ [] then modify fun world => world.record (.accepted accepted)
    return .ok accepted.length

/-- Ask the transport to drain what it has accepted. -/
def flush : Program ω τ σ ε (Except τ Unit) := do
  modify fun world => world.record .flushing
  match ← await with
  | .error error => return .error error
  | .ok _ =>
    modify fun world => world.record .flushed
    return .ok ()

/-- Ask the transport for at most `window` bytes; no byte means the stream has ended. -/
def read (window : Nat) : Program ω τ σ ε (Except τ (List UInt8)) := do
  match ← await with
  | .error error => return .error error
  | .ok count =>
    let chunk := (← get).inbound.take (min count window)
    modify fun world => { world with inbound := world.inbound.drop (min count window) }
    modify fun world => world.record (.received chunk)
    return .ok chunk

/-- Read the clock. -/
def now : Program ω τ σ ε Nat := fun world =>
  .ok (world.clock.reading world.samples) { world with samples := world.samples + 1 }

/-- Record that the program passed a point of interest. -/
def note (event : ω) : Program ω τ σ ε Unit :=
  modify fun world => world.record (.noted event)

/-- The program's own state. -/
def self : Program ω τ σ ε σ := fun world => .ok world.self world

/-- Change the program's own state. -/
def update (f : σ → σ) : Program ω τ σ ε Unit :=
  modify fun world => { world with self := f world.self }

/-- Run a computation on a part of the program's own state; the part is kept when it fails. -/
def zoom {ρ : Type} (part : σ → ρ) (replace : ρ → σ → σ) (action : EStateM ε' ρ α) :
    Program ω τ σ ε (Except ε' α) := fun world =>
  match action (part world.self) with
  | .ok value changed => .ok (.ok value) { world with self := replace changed world.self }
  | .error error changed => .ok (.error error) { world with self := replace changed world.self }

/-- Stop with an error. -/
def fail (error : ε) : Program ω τ σ ε α := throw (.error error)

/-- Return a value or stop with an error. -/
def ofExcept : Except ε α → Program ω τ σ ε α
  | .ok value => pure value
  | .error error => fail error

/-- Run a program and hand its error to the caller; being dropped is not an error. -/
def attempt (program : Program ω τ σ ε α) : Program ω τ σ ε' (Except ε α) := fun world =>
  match program world with
  | .ok value world => .ok (.ok value) world
  | .error (.error error) world => .ok (.error error) world
  | .error .dropped world => .error .dropped world
  | .error .expired world => .error .expired world

/-- Run a program under another error type. -/
def mapError (f : ε → ε') (program : Program ω τ σ ε α) : Program ω τ σ ε' α := do
  match ← attempt program with
  | .ok value => return value
  | .error error => fail (f error)

/-- Run a program under a deadline; no value means that the timer fired first. -/
def withDeadline (deadline : Nat) (program : Program ω τ σ ε α) :
    Program ω τ σ ε (Option α) := fun world =>
  match program world with
  | .ok value world => .ok (some value) world
  | .error .expired world =>
    -- The timer is ready only once the clock has reached the deadline.
    if deadline ≤ world.clock.reading world.samples then
      .ok none { world with samples := world.samples + 1 }
    else .error .dropped world
  | .error stop world => .error stop world

/-- Repeat a body that either continues with a new value or breaks with a result. -/
def iterate : Nat → (β → Program ω τ σ ε (β ⊕ α)) → β → Program ω τ σ ε α
  | 0, _, _ => throw .dropped
  | fuel + 1, body, value => do
    match ← body value with
    | .inl next => iterate fuel body next
    | .inr result => return result

/-- A number of rounds that no loop with one await in every other round can exceed. -/
def rounds : Program ω τ σ ε Nat := fun world => .ok (2 * world.replies.length + 3) world

end Async
