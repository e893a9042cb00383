import Minimq.Proofs.Client.Chapter
import Minimq.Proofs.Client.Progress

/-! A connection sends complete packets one behind the other, each within the broker's limit. -/

namespace Minimq

open Async History

variable {π τ : Type} {drain : List (Happening Event)} {chunks : List Bytes} {packet : Bytes}

/-- An occurrence that is not about bytes that are sent. -/
def Silent : Happening Event → Prop
  | .accepted _ | .noted (.wrote _ _ _ _) | .noted (.direct _) => False
  | _ => True

/--
What happens on an established connection, as far as it sends anything.

The packet in progress, if there is one, is written on from the position it has got to. A packet
that is not tracked is handed over while no other is in progress; if it is cut short, something may
follow only if packets may be torn.
-/
inductive Traffic (torn : Prop) (fits : Bytes → Prop) :
    (underway : Option WriteStep) → (cut : Bool) → List (Happening Event) → Prop where
  /-- Nothing has happened. -/
  | nil : Traffic torn fits none false []
  /-- Nothing is sent. -/
  | silent {underway : Option WriteStep} {cut : Bool} {back : List (Happening Event)}
      {event : Happening Event} (earlier : Traffic torn fits underway cut back)
      (silent : Silent event) : Traffic torn fits underway cut (back ++ [event])
  /-- The next bytes of a packet are accepted. -/
  | wrote {underway : Option WriteStep} {cut : Bool} {back : List (Happening Event)}
      {current : WriteStep} {count : Nat} (earlier : Traffic torn fits underway cut back)
      (whole : cut = true → torn) (resumes : Resumes underway current) (legal : fits current.bytes)
      (positive : 0 < count) (within : current.written + count ≤ current.bytes.length) :
      Traffic torn fits (current.after count) cut (back ++
        [.accepted ((current.bytes.drop current.written).take count),
          .noted (.wrote current.packet current.bytes current.written count)])
  /-- A packet is handed over as a whole. -/
  | direct {cut : Bool} {back : List (Happening Event)} {packet : Bytes} {chunks : List Bytes}
      (earlier : Traffic torn fits none cut back) (whole : cut = true → torn) (legal : fits packet)
      (complete : chunks.flatten = packet) :
      Traffic torn fits none cut (back ++ .noted (.direct packet) :: chunks.map .accepted)
  /-- A packet is cut short. -/
  | cut {cut : Bool} {back : List (Happening Event)} {packet : Bytes} {chunks : List Bytes}
      (earlier : Traffic torn fits none cut back) (whole : cut = true → torn) (legal : fits packet)
      (part : chunks.flatten <+: packet) :
      Traffic torn fits none true (back ++ .noted (.direct packet) :: chunks.map .accepted)

/-- Several occurrences that send nothing. -/
theorem Traffic.append {torn : Prop} {fits : Bytes → Prop} {underway : Option WriteStep}
    {cut : Bool} {back events : List (Happening Event)}
    (traffic : Traffic torn fits underway cut back) (silent : ∀ event ∈ events, Silent event) :
    Traffic torn fits underway cut (back ++ events) := by
  induction events using List.reverseRecOn with
  | nil => simpa using traffic
  | append_singleton events last ih =>
    rw [← List.append_assoc]
    exact .silent (ih fun event found => silent event (List.mem_append_left _ found))
      (silent last (by simp))

/-- A complete packet that the broker accepts. -/
def Permitted (ack : ConnAck) (packet : Bytes) : Prop :=
  EncodedPacket packet ∧ exceeds ack.maximumPacketSize packet.length = false

section Sending

variable {torn : Prop} {base events : List (Happening Event)} {before after : ClientMoment}

/-- What was sent on a connection, and what is left of the packet in progress. -/
def Sending (torn : Prop) : Chronicle := fun connection _ _ ack back =>
  ∃ underway cut, Traffic torn (Permitted ack) underway cut back ∧
    (connection.live = true → connection.Follows underway ∧ (cut = true → torn))

/-- Nothing is sent. -/
theorem Throughout.silent (all : Throughout (Sending torn) base before)
    (trace : after.trace = before.trace ++ events)
    (silent : ∀ event ∈ events, Silent event ∧ ¬ Starts event)
    (follows : after.self.live = true → before.self.live = true ∧
      ∀ underway, before.self.Follows underway → after.self.Follows underway) :
    Throughout (Sending torn) base after := by
  refine all.append trace (fun event found => (silent event found).2) fun latest known => ?_
  obtain ⟨underway, cut, traffic, now⟩ := known
  refine ⟨underway, cut, traffic.append fun event found => (silent event found).1, fun live => ?_⟩
  obtain ⟨alive, kept⟩ := follows live
  exact ⟨kept underway (now alive).1, (now alive).2⟩

/-- Bytes of the next packet are accepted. -/
theorem Throughout.wrote {step : OutboundStep} {current : WriteStep} {count now : Nat}
    (all : Throughout (Sending torn) base before) (grounded : Grounded before)
    (alive : before.self.live = true) (next : before.self.outbound.nextStep = some step)
    (encoded : (writeStep before.self.session step : Except (Error τ) WriteStep) = .ok current)
    (positive : 0 < count) (within : count ≤ (current.bytes.drop current.written).length) :
    Throughout (Sending torn) base ⟨before.self.afterWrite step current count now,
      before.trace ++ [.accepted ((current.bytes.drop current.written).take count),
        .noted (.wrote current.packet current.bytes current.written count)], now⟩ := by
  refine all.append rfl (by simp [Starts]) fun latest known => ?_
  obtain ⟨underway, cut, traffic, link⟩ := known
  obtain ⟨follows, whole⟩ := link alive
  obtain ⟨files, archived⟩ := grounded.archived
  -- The limit was announced when this connection was established.
  have sized := writeStep_sized encoded
  rw [show before.self.session.runtime.maximumPacketSize = _ from grounded.sized alive latest]
    at sized
  -- The bytes come from the archive, where every packet is well formed.
  have loaded : current = before.self.outbound.load step := writeStep_eq_load encoded
  have legal : EncodedPacket current.bytes := by
    rw [loaded]
    exact archived.stored.encoded (Outbound.at_of_nextStep next).1
  have resumes : Resumes underway current := by
    rw [loaded]
    exact follows.resumes next
  rw [List.length_drop] at within
  refine ⟨current.after count, cut, .wrote traffic whole resumes ⟨legal, sized⟩ positive (by omega),
    fun _ => ⟨?_, whole⟩⟩
  rw [loaded]
  exact follows.wrote next grounded.identified positive

/-- A packet that is not tracked is handed over, as a whole or in part. -/
theorem Throughout.handover (cut : Bool) (all : Throughout (Sending torn) base before)
    (grounded : Grounded before) (ready : Ready before.self packet)
    (part : chunks.flatten <+: packet) (complete : cut = false → chunks.flatten = packet)
    (drained : ∀ event ∈ drain, Silent event ∧ ¬ Starts event)
    (trace : after.trace = before.trace ++ handover packet chunks drain)
    (follows : after.self.live = true → after.self.Follows none ∧ (cut = true → torn)) :
    Throughout (Sending torn) base after := by
  -- The bytes of a packet written directly begin no connection.
  have plain : ∀ event ∈ Minimq.handover packet chunks drain, ¬ Starts event := by
    intro event found
    rw [Minimq.handover, List.cons_append, List.mem_cons, List.mem_append] at found
    rcases found with rfl | found | found
    · simp [Starts]
    · exact (routine_map .accepted chunks event found).not_starts
    · exact (drained event found).2
  refine all.append trace plain fun {front state ack back} latest known => ?_
  obtain ⟨underway, earlier, traffic, link⟩ := known
  obtain ⟨before', whole⟩ := link ready.alive
  -- Nothing else is under way on a quiet connection, so the packet starts fresh.
  obtain ⟨rfl, -⟩ := before'.of_nextStep ready.quiet.1
  have sized := ready.sized
  rw [grounded.sized ready.alive latest] at sized
  have legal : Permitted ack packet := ⟨ready.legal, sized⟩
  rw [Minimq.handover, ← List.append_assoc]
  cases cut with
  | true =>
    exact ⟨none, true, (Traffic.cut traffic whole legal part).append fun event found =>
      (drained event found).1, follows⟩
  | false =>
    exact ⟨none, earlier, (Traffic.direct traffic whole legal (complete rfl)).append
      fun event found => (drained event found).1, fun live => ⟨(follows live).1, whole⟩⟩

theorem Partly.part (partly : Partly packet chunks drain) : chunks.flatten <+: packet := by
  cases partly with
  | some part => exact part
  | accepted whole => rw [whole]
  | flushed whole => rw [whole]

theorem Partly.silent
    (partly : Partly packet chunks drain) : ∀ event ∈ drain, Silent event ∧ ¬ Starts event := by
  cases partly <;> simp [Silent, Starts]

/-- Writing, flushing and keepalive send packets one behind the other. -/
theorem Outflow.sending (step : Outflow τ before after) (grounded : Grounded before)
    (all : Throughout (Sending torn) base before) : Throughout (Sending torn) base after := by
  cases step with
  | tick later => exact all
  | wrote alive idle next encoded positive within later =>
    exact all.wrote grounded alive next encoded positive within
  | flushing alive ready =>
    refine all.silent rfl (by simp [Silent, Starts]) fun _ => ⟨alive, fun underway follows => ?_⟩
    -- A packet in progress would have to be written first.
    have none : underway = none := by
      by_contra some
      have dirty := follows.unflushed some
      rcases ready with flushing | ⟨-, empty⟩
      · rw [dirty] at flushing
        cases flushing
      · exact some (follows.of_nextStep empty).1
    exact ⟨follows.single, follows.same, fun some => absurd none some⟩
  | flushed alive flushing later =>
    refine all.silent rfl (by simp [Silent, Starts]) fun _ => ⟨alive, fun underway follows => ?_⟩
    have none : underway = none := by
      by_contra some
      rw [follows.unflushed some] at flushing
      cases flushing
    subst none
    have zero : before.self.outbound.started = 0 := by
      rw [← Outbound.stepFor_true_eq_none]
      simpa using follows.same
    refine .of_started (Outbound.started_eq_zero.mpr ?_)
    refine (Outbound.started_eq_zero.mp zero).completeFlush (fun _ held _ => held) ?_
    intro state held
    cases state <;> simp_all [Outbound.flushedState, SendState.inProgress]
  | disconnected => exact all.silent (List.append_nil _).symm (by simp) fun live => by cases live
  | pinged alive quiet due queued =>
    refine all.silent (List.append_nil _).symm (by simp) fun _ => ⟨alive, fun underway follows => ?_⟩
    obtain ⟨rfl, zero⟩ := follows.of_nextStep quiet.1
    refine .of_started (Outbound.started_eq_zero.mpr ?_)
    exact (Outbound.started_eq_zero.mp zero).queueControl rfl queued

theorem silent_received (chunks : List Bytes) :
    ∀ event ∈ chunks.map (Happening.received (ω := Event)), Silent event ∧ ¬ Starts event := by
  intro event found
  obtain ⟨bytes, -, rfl⟩ := List.mem_map.mp found
  simp [Silent, Starts]

/-- Every transition sends packets one behind the other. -/
theorem Step.sending (step : Step τ before after) (grounded : Grounded before)
    (all : Throughout (Sending torn) base before) : Throughout (Sending torn) base after := by
  -- Bytes are sent by writes and direct packets, and every other step is silent.
  cases step with
  | outflow step => exact step.sending grounded all
  | upkeep step =>
    cases step with
    | reading =>
      exact all.silent rfl (silent_received _) fun live =>
        ⟨live, fun underway follows => follows.of_same rfl ⟨rfl, rfl⟩ rfl⟩
    | scratched kept =>
      exact all.silent (List.append_nil _).symm (by simp) fun live =>
        ⟨live, fun underway follows => follows.of_same rfl kept rfl⟩
    | skipped =>
      exact all.silent (List.append_nil _).symm (by simp) fun live =>
        ⟨live, fun underway follows => follows.of_same rfl ⟨rfl, rfl⟩ rfl⟩
  | opening step =>
    exact all.opening step fun trace => all.silent trace (by simp) fun live =>
      absurd (step.dead.symm.trans live) Bool.false_ne_true
  | handled packet alive quiet =>
    refine all.silent rfl (by simp [Silent, Starts]) fun live => ⟨alive, fun underway follows => ?_⟩
    -- A packet is handled when nothing is under way, and it writes nothing.
    obtain ⟨rfl, zero⟩ := follows.of_nextStep quiet.1
    obtain ⟨taken, state, handled, same | same⟩ := before.self.handle_cases packet
    · dsimp only
      rw [same]
      exact .of_started (Outbound.started_eq_zero.mpr
        (handled.holds rfl rfl (Outbound.started_eq_zero.mp zero)))
    · dsimp only at live
      rw [same] at live
      cases live
  | admitted admissible =>
    exact all.silent rfl (by simp [Silent, Starts]) fun _ =>
      ⟨admissible.alive, fun underway follows => follows.enlist admissible⟩
  | direct ready whole later =>
    refine all.handover false grounded ready (by rw [whole]) (fun _ => whole)
      (by simp [Silent, Starts]) rfl fun live => ⟨.of_started ?_, by simp⟩
    exact Outbound.stepFor_true_eq_none.mp (Option.or_eq_none_iff.mp ready.quiet.1).1
  | broken ready part =>
    exact all.handover true grounded ready part.part (by simp) part.silent rfl
      fun live => by cases live
  | opened => exact all.opened rfl
  | reset closed =>
    refine all.silent rfl (by simp [Silent, Starts]) fun live => ?_
    have live : before.self.live = true := live
    rw [closed] at live
    cases live
  | connected closed later sized reserved quota limit state =>
    subst state
    refine all.connected rfl ?_ ⟨none, false, .nil, fun _ => ⟨.of_started ?_, by simp⟩⟩
    · rintro front state ack back ⟨underway, cut, traffic, link⟩
      exact ⟨underway, cut, traffic.silent trivial, link⟩
    · -- A connection begins with every packet to be started over.
      refine Outbound.started_eq_zero.mpr ((grounded.sparse.tidy.armed closed).mono ?_ ?_)
      all_goals exact fun _ same => same ▸ rfl

theorem Torn.sending (dropped : Torn before after) (tearing : torn) (grounded : Grounded before)
    (all : Throughout (Sending torn) base before) : Throughout (Sending torn) base after := by
  cases dropped with
  | torn ready part =>
    refine all.handover true grounded ready part.part (by simp) part.silent rfl
      fun live => ⟨.of_started ?_, fun _ => tearing⟩
    exact Outbound.stepFor_true_eq_none.mp (Option.or_eq_none_iff.mp ready.quiet.1).1

theorem Move.sending (move : Move τ before after) (grounded : Grounded before)
    (all : Throughout (Sending True) base before) : Throughout (Sending True) base after := by
  cases move with
  | step step => exact step.sending grounded all
  | torn torn => exact torn.sending trivial grounded all

end Sending

/--
On every connection of every run only packets within the broker's limit are sent.

Every byte that the transport accepts after the broker's answer belongs to such a packet.
-/
theorem run_traffic_within_limit (config : ConfigBuilder) (clock : Clock)
    (calls : List (Invocation π τ)) {front back : List (Happening Event)} {state : Handling}
    {ack : ConnAck} (chapter : Chapter Starts (run (start config clock) calls).trace front
      (.noted (.connected state ack)) back) :
    ∃ underway cut, Traffic True (Permitted ack) underway cut back := by
  have told : Grounded (run (start config clock) calls).moment ∧
      Throughout (Sending True) [] (run (start config clock) calls).moment := by
    refine run_moves (P := fun moment => Grounded moment ∧ Throughout (Sending True) [] moment)
      ⟨run_grounded config clock ([] : List (Invocation π τ)), Told.nil⟩ ?_ calls
    intro before after move ⟨grounded, all⟩
    exact ⟨move.grounded grounded, move.sending grounded all⟩
  obtain ⟨connection, underway, cut, traffic, -⟩ := told.2.each chapter List.nil_prefix state ack rfl
  exact ⟨underway, cut, traffic⟩

/-- A publication on a connection of a small client. -/
theorem run_traffic_within_limit_publication : ∃ front state ack back,
    Chapter Starts (run (start (smallConfig 0) (steppingClock 0 0)) sentPublication).trace front
      (.noted (.connected state ack)) back ∧
    ∃ underway cut, Traffic True (Permitted ack) underway cut back := by
  obtain ⟨front, state, ack, back, trace, last⟩ := run_connected (smallConfig 0) (steppingClock 0 0)
    sentPublication (by decide +kernel)
  have chapter : Chapter Starts _ front (.noted (.connected state ack)) back :=
    .latest ⟨trace, .inr ⟨state, ack, rfl⟩, last⟩
  exact ⟨front, state, ack, back, chapter, run_traffic_within_limit _ _ _ chapter⟩

end Minimq
