import Minimq.Client.Run

/-! An application that owns a client and lets a service use it. -/

namespace Minimq

open Async

/-- A service that works over a client: its state is `σ`, other inputs are of type `β`. -/
structure Component (τ σ β : Type) where
  /-- Learn that a connection was made. -/
  begin : ConnectEvent → σ → σ
  /-- Do some work with the client. -/
  step : List (Reply τ) → ClientWorld τ → σ → σ × ClientWorld τ
  /-- Take an input that does not concern the client. -/
  take : β → σ → σ

/-- An application with one service. -/
structure Application (τ σ : Type) where
  world : ClientWorld τ
  service : σ
  /-- Whether the service was told of the session in use. -/
  informed : Bool

/-- What an application can do. -/
inductive Act (π τ β : Type) where
  /-- Call an operation of the client; the service learns of a connection that is made. -/
  | call (invocation : Invocation π τ)
  /-- Let the service work. -/
  | step (replies : List (Reply τ))
  /-- Hand an input to the service. -/
  | take (input : β)

namespace Application

variable {π τ σ β : Type}

/-- The connection a call has made. -/
def connected : Except (Stop (PubError π τ)) Value → Option ConnectEvent
  | .ok (.event event) => some event
  | _ => none

/-- Whether the service knows the session in use after a call: one that was started over is known
only if the call reports so. -/
def knows (before after : ClientWorld τ) (event : Option ConnectEvent) (informed : Bool) : Bool :=
  if resets after.trace = resets before.trace then informed else event == some .connected

/-- One act of the application. -/
def perform (component : Component τ σ β) (act : Act π τ β) (application : Application τ σ) :
    Application τ σ :=
  let ⟨world, service, informed⟩ := application
  match act with
  | .call invocation =>
    let after := (invocation.perform world).2
    let event := connected (invocation.result world)
    ⟨after, event.elim service fun event => component.begin event service,
      knows world after event informed⟩
  | .step replies =>
    let (service, after) := component.step replies world service
    ⟨after, service, knows world after none informed⟩
  | .take input => ⟨world, component.take input service, informed⟩

/-- An application before its first act. -/
def start (config : ConfigBuilder) (clock : Clock) (service : σ) : Application τ σ :=
  ⟨Minimq.start config clock, service, true⟩

/-- Acts one after the other. -/
def run (component : Component τ σ β) (acts : List (Act π τ β)) (application : Application τ σ) :
    Application τ σ :=
  acts.foldl (fun application act => application.perform component act) application

end Application

end Minimq
