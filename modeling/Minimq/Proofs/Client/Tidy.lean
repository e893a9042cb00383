import Minimq.Client.Transition
import Minimq.Proofs.Client.Inbound
import Minimq.Proofs.Client.Outbound

/-! The progress of tracked packets always agrees with the state of the connection. -/

namespace Minimq

open Hoare

variable {τ : Type} {control tracked : SendState → Prop}
variable {retained : FixedVec RetainedPacket maxRetained} {kind : OpKind}

namespace Handled

variable {packet : ReceivedPacket} {taken : Taken} {before after : Handling}

/-- What an inbound packet adds to a queue has not been started. -/
theorem holds (handled : Handled packet before taken after) (fresh : control (.write 0))
    (fresh' : tracked (.write 0)) (all : before.data.outbound.Holds control tracked) :
    after.data.outbound.Holds control tracked := by
  -- Removing an entry keeps the others, and a new one starts at its first byte.
  cases handled.requeued with
  | same kept => exact kept ▸ all
  | acked acked => exact all.ackPacket acked
  | released acked released => exact (all.ackPacket acked).queueRelease fresh' released
  | completed acked => exact all.ackRelease acked
  | queued queued _ => exact all.queueControl fresh queued

end Handled

namespace Connection

section Transitions

variable {connection : Connection} {step : OutboundStep} {current : WriteStep} {count now : Nat}

theorem afterWrite_outbound : (connection.afterWrite step current count now).outbound =
    connection.outbound.setWritten (current.written + count) current.bytes.length
      current.packet := by
  unfold afterWrite
  dsimp only
  split <;> rfl

theorem afterWrite_live :
    (connection.afterWrite step current count now).live = connection.live := by
  unfold afterWrite
  dsimp only
  split <;> rfl

theorem afterWrite_flushState :
    (connection.afterWrite step current count now).flushState = .dirty := by
  unfold afterWrite
  dsimp only
  split <;> rfl

/-- An inbound packet does what it can do, and a fatal error ends the connection. -/
theorem handle_taken (connection : Connection) (packet : ReceivedPacket) :
    ∃ taken state, Handled packet connection.session.handling taken state ∧
      ((connection.handle packet).2 = true ↔ taken = .ok true) ∧
      (connection.handle packet).1 =
        if taken.isFatal then (connection.setHandling state).handleDisconnect
        else connection.setHandling state := by
  -- The specification covers both ways to end, and only an error can be fatal.
  have spec := handlePacket_spec packet connection.session.handling
  unfold wp at spec
  unfold handle
  cases result : handlePacket packet connection.session.handling with
  | ok delivered state =>
    rw [result] at spec
    exact ⟨.ok delivered, state, spec, by simp, rfl⟩
  | error error state =>
    rw [result] at spec
    exact ⟨.error error, state, spec, by simp, rfl⟩

/-- An inbound packet does what it can do, and may end the connection. -/
theorem handle_cases (connection : Connection) (packet : ReceivedPacket) :
    ∃ taken state, Handled packet connection.session.handling taken state ∧
      ((connection.handle packet).1 = connection.setHandling state ∨
        (connection.handle packet).1 = (connection.setHandling state).handleDisconnect) := by
  obtain ⟨taken, state, handled, -, same⟩ := connection.handle_taken packet
  refine ⟨taken, state, handled, ?_⟩
  rw [same]
  split
  · exact .inr rfl
  · exact .inl rfl

theorem enlist_outbound {buf : Bytes} :
    (connection.enlist kind buf retained).outbound = { connection.outbound with buf, retained } := by
  unfold enlist
  dsimp only
  split <;> rfl

theorem enlist_live {buf : Bytes} :
    (connection.enlist kind buf retained).live = connection.live := by
  unfold enlist
  dsimp only
  split <;> rfl

theorem enlist_flushState {buf : Bytes} :
    (connection.enlist kind buf retained).flushState = connection.flushState := by
  unfold enlist
  dsimp only
  split <;> rfl

end Transitions

/-- How the progress of tracked packets agrees with the state of the connection. -/
structure Tidy (connection : Connection) : Prop where
  /-- Without a transport every packet is to be started over. -/
  armed : connection.live = false → connection.outbound.Holds (· = .write 0) (· = .write 0)
  /-- Control packets are forgotten when they are flushed. -/
  unsent : connection.outbound.Holds (· ≠ .sent) (fun _ => True)
  /-- Unless bytes are to be flushed, no packet waits for it. -/
  drained : connection.flushState = .clean → connection.outbound.Holds (· ≠ .flush) (· ≠ .flush)

namespace Tidy

variable {connection : Connection}

theorem of_armed {flushState : FlushState} {session : Session} {live : Bool}
    (armed : session.data.outbound.Holds (· = .write 0) (· = .write 0)) :
    Tidy ⟨session, live, flushState⟩ where
  armed _ := armed
  unsent := armed.mono (fun _ same => by simp [same]) (fun _ _ => trivial)
  drained _ := armed.mono (fun _ same => by simp [same]) (fun _ same => by simp [same])

theorem handleDisconnect : connection.handleDisconnect.Tidy :=
  of_armed (.armReplay rfl rfl)

/-- The session may change apart from its queues. -/
theorem of_same {session : Session} (tidy : connection.Tidy)
    (controls : session.data.outbound.pendingControl = connection.outbound.pendingControl)
    (releases : session.data.outbound.pendingRelease = connection.outbound.pendingRelease)
    (retained : session.data.outbound.retained = connection.outbound.retained) :
    Tidy { connection with session } := by
  have same {control tracked : SendState → Prop}
      (all : connection.outbound.Holds control tracked) :
      session.data.outbound.Holds control tracked :=
    ⟨controls ▸ all.control, releases ▸ all.release, retained ▸ all.retained⟩
  exact ⟨fun closed => same (tidy.armed closed), same tidy.unsent, fun clean => same (tidy.drained clean)⟩

/-- Nothing is queued on a quiet connection except what was sent before. -/
theorem controls_of_quiet (tidy : connection.Tidy) (quiet : connection.Quiet) :
    connection.outbound.pendingControl.toList = [] := by
  rw [List.eq_nil_iff_forall_not_mem]
  intro entry found
  have unwritten := (Outbound.nextStep_eq_none.mp quiet.1).control entry found
  have unsent := tidy.unsent.control entry found
  have drained := (tidy.drained quiet.2).control entry found
  -- Each state is excluded: nothing to write, nothing to flush, nothing sent is kept.
  cases state : entry.state with
  | write written => exact unwritten ⟨written, state⟩
  | flush => exact drained state
  | sent => exact unsent state

end Tidy

end Connection

/-- Transitions that write, flush, keep the connection alive or end it keep things tidy. -/
theorem Outflow.tidy {before after : ClientMoment} (step : Outflow τ before after)
    (tidy : before.self.Tidy) : after.self.Tidy := by
  -- Each queue keeps its rule: what is written is not sent before it is flushed.
  cases step with
  | tick later => exact tidy
  | disconnected => exact .handleDisconnect
  | flushing alive ready =>
    exact ⟨tidy.armed, tidy.unsent, fun clean => by simp at clean⟩
  | flushed alive flushing later =>
    refine ⟨fun closed => ?_, ?_, fun _ => ?_⟩
    · exact absurd (alive.symm.trans closed) (by simp)
    · exact tidy.unsent.completeFlush (fun _ unsent _ => unsent) (fun _ _ => trivial)
    · refine tidy.unsent.completeFlush (fun _ _ unflushed => unflushed) (fun state _ => ?_)
      cases state <;> simp [Outbound.flushedState]
  | pinged alive quiet due queued =>
    refine ⟨fun closed => ?_, ?_, fun clean => ?_⟩
    · exact absurd (alive.symm.trans closed) (by simp)
    · exact tidy.unsent.queueControl (by simp) queued
    · exact (tidy.drained clean).queueControl (by simp) queued
  | wrote alive idle next encoded positive within later =>
    refine ⟨fun closed => ?_, ?_, fun clean => ?_⟩
    · dsimp only at closed
      rw [Connection.afterWrite_live, alive] at closed
      simp at closed
    · dsimp only
      rw [Connection.afterWrite_outbound]
      refine tidy.unsent.setWritten ?_ trivial
      unfold SendState.setWritten
      split <;> simp
    · dsimp only at clean
      rw [Connection.afterWrite_flushState] at clean
      simp at clean

/-- Every transition keeps things tidy. -/
theorem Step.tidy {before after : ClientMoment} (step : Step τ before after)
    (tidy : before.self.Tidy) : after.self.Tidy := by
  -- The queues change only where the connection is live, or all packets start over.
  cases step with
  | outflow step => exact step.tidy tidy
  | upkeep step =>
    cases step <;> exact tidy.of_same rfl rfl rfl
  | opening step =>
    cases step with
    | preamble closed transport => exact tidy
    | reserved closed request fits =>
      obtain ⟨-, -, rfl⟩ := Outbound.room_of_setConnectWorkspace fits
      exact tidy.of_same rfl rfl rfl
    | untimed closed => exact tidy.of_same rfl rfl rfl
    | limited closed => exact tidy.of_same rfl rfl rfl
    | assigned closed anonymous request fits =>
      obtain ⟨-, -, rfl⟩ := Outbound.room_of_setConnectWorkspace fits
      exact tidy.of_same rfl rfl rfl
  | handled packet alive quiet =>
    obtain ⟨taken, state, handled, same | same⟩ := before.self.handle_cases packet
    · dsimp only
      rw [same]
      exact ⟨fun closed => absurd (alive.symm.trans closed) (by simp),
        handled.holds (by simp) trivial tidy.unsent,
        fun clean => handled.holds (by simp) (by simp) (tidy.drained clean)⟩
    · dsimp only
      rw [same]
      exact .handleDisconnect
  | admitted admissible =>
    refine ⟨fun closed => ?_, ?_, fun clean => ?_⟩
    · dsimp only at closed
      rw [Connection.enlist_live, admissible.alive] at closed
      simp at closed
    · dsimp only
      rw [Connection.enlist_outbound]
      exact tidy.unsent.retain trivial admissible.slot
    · dsimp only at clean ⊢
      rw [Connection.enlist_flushState] at clean
      rw [Connection.enlist_outbound]
      exact (tidy.drained clean).retain (by simp) admissible.slot
  | direct ready whole later => exact tidy.of_same rfl rfl rfl
  | broken ready part => exact .handleDisconnect
  | opened => exact .of_armed (.armReplay rfl rfl)
  | reset closed => exact .of_armed .clearInflight
  | connected closed later sized reserved quota limit state =>
    subst state
    exact .of_armed (tidy.armed closed)

end Minimq
