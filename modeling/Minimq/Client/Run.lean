import Minimq.Client.Operations

/-! Whole runs: an application calls one operation after the other in an arbitrary environment. -/

namespace Minimq

variable {π τ ε α : Type}

/-- The operations an application can call. -/
inductive Call (π : Type) where
  /-- Connect over a new transport that will deliver these bytes. -/
  | connect (inbound : Bytes)
  | drive
  | poll
  | recv
  | publish (publication : Publication π)
  | subscribe (topics : List TopicFilter) (properties : List Property)
  | unsubscribe (topics : List Utf8) (properties : List Property)
  | disconnectWith (disconnect : Disconnect)
  /-- Mark the connection dead, as `into_inner` does too. -/
  | handleDisconnect

/-- A call and the environment's answers to its awaits. -/
structure Invocation (π τ : Type) where
  call : Call π
  /-- How each of its awaits is settled; it is dropped when they run out. -/
  replies : List (Async.Reply τ)

/-- How a call ended. -/
inductive Outcome where
  | returned
  | failed
  | dropped
  deriving DecidableEq

/-- How a program ended, and the world it left behind. -/
def finish : EStateM.Result (Async.Stop ε) (ClientWorld τ) α → Outcome × ClientWorld τ
  | .ok _ world => (.returned, world)
  | .error (.error _) world => (.failed, world)
  -- A timer of the caller drops the operation like any other cancellation.
  | .error .dropped world => (.dropped, world)
  | .error .expired world => (.dropped, world)

/-- The program a call runs. -/
def Call.perform (world : ClientWorld τ) : Call π → Outcome × ClientWorld τ
  | .connect inbound => finish (Minimq.connect { world with inbound })
  | .drive => finish (Minimq.drive world)
  | .poll => finish (Minimq.poll world)
  | .recv => finish (Minimq.recv world)
  | .publish publication => finish (Minimq.publish publication world)
  | .subscribe topics properties => finish (Minimq.subscribe topics properties world)
  | .unsubscribe topics properties => finish (Minimq.unsubscribe topics properties world)
  | .disconnectWith disconnect => finish (Minimq.disconnectWith disconnect world)
  | .handleDisconnect => (.returned, { world with self := world.self.handleDisconnect })

/-- The errors after which a connection cannot be used any more. -/
def Error.isDeadly : Error τ → Bool
  | .transport _ | .writeZero | .disconnected | .peer .invalidPacket => true
  | _ => false

/-- The error of the session behind an error of a publication. -/
def PubError.sessionError : PubError π τ → Option (Error τ)
  | .session error => some error
  -- A payload that cannot be serialized is the caller's business.
  | .payload _ => none

/-- The error a program returned, seen as an error of the session. -/
def failureOf (view : ε → Option (Error τ)) :
    EStateM.Result (Async.Stop ε) (ClientWorld τ) α → Option (Error τ)
  | .error (.error error) _ => view error
  | _ => none

/-- The error of the session a call returns, if it returns one. -/
def Call.failure (world : ClientWorld τ) : Call π → Option (Error τ)
  | .connect inbound => failureOf some (Minimq.connect { world with inbound })
  | .drive => failureOf some (Minimq.drive world)
  | .poll => failureOf some (Minimq.poll world)
  | .recv => failureOf some (Minimq.recv world)
  | .publish publication => failureOf PubError.sessionError (Minimq.publish publication world)
  | .subscribe topics properties => failureOf some (Minimq.subscribe topics properties world)
  | .unsubscribe topics properties => failureOf some (Minimq.unsubscribe topics properties world)
  | .disconnectWith disconnect => failureOf some (Minimq.disconnectWith disconnect world)
  | .handleDisconnect => none

/-- Whether a call is an operation on an existing connection. -/
def Call.onHandle : Call π → Bool
  | .connect _ | .handleDisconnect => false
  | _ => true

/-- The error of the session one call returns, if it returns one. -/
def Invocation.failure (world : ClientWorld τ) (invocation : Invocation π τ) : Option (Error τ) :=
  invocation.call.failure { world with replies := invocation.replies }

/-- Make one call. -/
def Invocation.perform (world : ClientWorld τ) (invocation : Invocation π τ) :
    Outcome × ClientWorld τ :=
  invocation.call.perform { world with replies := invocation.replies }

/-- What a call returns. -/
inductive Value where
  | event (event : ConnectEvent)
  | inbound (publication : Option InboundPublish)
  | op (op : Option Op)
  | done

/-- The result of a program, seen as the result of a call. -/
def resultOf (failed : ε → PubError π τ) (returned : α → Value) :
    EStateM.Result (Async.Stop ε) (ClientWorld τ) α → Except (Async.Stop (PubError π τ)) Value
  | .ok value _ => .ok (returned value)
  | .error (.error error) _ => .error (.error (failed error))
  | .error .dropped _ => .error .dropped
  | .error .expired _ => .error .expired

/-- The result of a call. -/
def Call.result (world : ClientWorld τ) : Call π → Except (Async.Stop (PubError π τ)) Value
  | .connect inbound => resultOf .session .event (Minimq.connect { world with inbound })
  | .drive => resultOf .session .inbound (Minimq.drive world)
  | .poll => resultOf .session .inbound (Minimq.poll world)
  | .recv => resultOf .session (fun publication => .inbound (some publication)) (Minimq.recv world)
  | .publish publication => resultOf id .op (Minimq.publish publication world)
  | .subscribe topics properties =>
    resultOf .session (fun op => .op (some op)) (Minimq.subscribe topics properties world)
  | .unsubscribe topics properties =>
    resultOf .session (fun op => .op (some op)) (Minimq.unsubscribe topics properties world)
  | .disconnectWith disconnect =>
    resultOf .session (fun _ => .done) (Minimq.disconnectWith disconnect world)
  | .handleDisconnect => .ok .done

/-- The result of one call. -/
def Invocation.result (world : ClientWorld τ) (invocation : Invocation π τ) :
    Except (Async.Stop (PubError π τ)) Value :=
  invocation.call.result { world with replies := invocation.replies }

/-- The results of calls that are made one after the other. -/
def results (world : ClientWorld τ) :
    List (Invocation π τ) → List (Except (Async.Stop (PubError π τ)) Value)
  | [] => []
  | invocation :: rest =>
    invocation.call.result { world with replies := invocation.replies } ::
      results (invocation.perform world).2 rest

/-- The world before the first call. -/
def start (config : ConfigBuilder) (clock : Async.Clock) : ClientWorld τ where
  self := .new config
  replies := []
  inbound := []
  clock := clock
  samples := 0
  trace := []

/-- The world after a sequence of calls. -/
def run (world : ClientWorld τ) : List (Invocation π τ) → ClientWorld τ
  | [] => world
  | invocation :: rest => run (invocation.perform world).2 rest

/-- The session is started over. -/
def isReset : Async.Happening Event → Bool
  | .noted .reset => true
  | _ => false

/-- How often the session was started over. -/
def resets (trace : List (Async.Happening Event)) : Nat := trace.countP isReset

theorem run_append (world : ClientWorld τ) (first second : List (Invocation π τ)) :
    run world (first ++ second) = run (run world first) second := by
  induction first generalizing world with
  | nil => rfl
  | cons invocation rest ih => exact ih _

end Minimq
