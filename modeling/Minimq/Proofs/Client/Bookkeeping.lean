import Minimq.Proofs.Client.Traffic

/-! The bookkeeping of outbound packets: the next step goes on with the right one. -/

namespace Minimq

open Async History

variable {π τ : Type} {slot : Slot}

/-- The length of the packet of a step. -/
def OutboundStep.len : OutboundStep → Nat
  | .control _ action _ => action.wire.length
  | .release packetId reason _ => (releaseWire packetId reason).length
  | .retained _ _ len _ => len

@[simp] theorem OutboundStep.len_advance (step : OutboundStep) (written : Nat) :
    (step.advance written).len = step.len := by
  cases step <;> rfl

@[simp] theorem OutboundStep.written_advance (step : OutboundStep) (written : Nat) :
    (step.advance written).written = written := by
  cases step <;> rfl

/-- Whether a packet is still to be written, from its start or from some position. -/
def Slot.unsent (slot : Slot) : Option OutboundStep :=
  match slot.2 with
  | .write written => some (slot.1.advance written)
  | .flush | .sent => none

/-- Whether the position of a packet lies strictly between its start and its end. -/
def Slot.halfway (slot : Slot) : Bool :=
  match slot.2 with
  | .write written => decide (0 < written ∧ written < slot.1.len)
  | .flush | .sent => false

/-- A packet that is halfway is in progress. -/
theorem Slot.inProgress_of_halfway (halfway : slot.halfway = true) : slot.2.inProgress = true := by
  -- Some bytes are written, so the position is not zero.
  obtain ⟨step, state⟩ := slot
  cases state with
  | write written =>
    have bounds : 0 < written ∧ written < step.len := of_decide_eq_true halfway
    simp only [SendState.inProgress, bne_iff_ne]
    omega
  | flush => cases halfway
  | sent => cases halfway

namespace Outbound

variable {outbound : Outbound} {step : OutboundStep}

theorem length_load_le : (outbound.load step).bytes.length ≤ step.len := by
  cases step with
  | control index action written => exact Nat.le_refl _
  | release packetId reason written => exact Nat.le_refl _
  | retained packetId offset len written => exact List.length_take_le _ _

/-- Two ways to choose that agree on every member of a list choose the same. -/
theorem findSome?_congr {α β : Type} {list : List α} {choose other : α → Option β}
    (agree : ∀ member ∈ list, choose member = other member) :
    list.findSome? choose = list.findSome? other := by
  induction list with
  | nil => rfl
  | cons first rest ih =>
    rw [List.findSome?_cons, List.findSome?_cons, agree first (.head _),
      ih fun member found => agree member (.tail _ found)]

/-- Without a packet in progress, the next step starts the first one to be written. -/
theorem nextStep_of_idle (idle : outbound.started = 0) :
    outbound.nextStep = outbound.slots.findSome? Slot.unsent := by
  rw [nextStep, stepFor_true_eq_none.mpr idle, Option.none_or, stepFor_eq]
  -- Without a packet in progress, both ways to choose agree on every packet.
  have agree : ∀ slot ∈ outbound.slots, Slot.pick false slot = slot.unsent := by
    intro slot member
    have fresh : slot.2.inProgress = false := by
      simpa using List.countP_eq_zero.mp idle slot member
    obtain ⟨step, state⟩ := slot
    cases state with
    | write written =>
      have zero : written = 0 := by simpa [SendState.inProgress] using fresh
      subst zero
      rfl
    | flush => rfl
    | sent => rfl
  exact findSome?_congr agree

/-- The only packet in progress is found by the first pass. -/
theorem stepFor_of_inProgress (single : outbound.started ≤ 1)
    (member : slot ∈ outbound.slots) (progress : slot.2.inProgress = true) :
    outbound.stepFor true = slot.unsent ∧ slot.unsent.isSome := by
  -- It is the only packet in progress, so the first pass skips all in front of it.
  obtain ⟨front, back, split⟩ := List.append_of_mem member
  rw [started, split, List.countP_append, List.countP_cons, if_pos progress] at single
  have before : ∀ other ∈ front, other.2.inProgress = false := by
    have none : front.countP (·.2.inProgress) = 0 := by omega
    intro other found
    simpa using List.countP_eq_zero.mp none other found
  have skipped : front.findSome? (Slot.pick true) = none := by
    rw [List.findSome?_eq_none_iff]
    intro other found
    rw [Slot.pick, SendState.writeOffset_true.mpr (before other found), Option.map_none]
  have chosen : Slot.pick true slot = slot.unsent ∧ slot.unsent.isSome := by
    obtain ⟨step, state⟩ := slot
    cases state with
    | write written =>
      have positive : (written != 0) = true := progress
      exact ⟨by simp [Slot.pick, Slot.unsent, SendState.writeOffset, positive], rfl⟩
    | flush => cases progress
    | sent => cases progress
  refine ⟨?_, chosen.2⟩
  obtain ⟨step, found⟩ := Option.isSome_iff_exists.mp chosen.2
  rw [stepFor_eq, split, List.findSome?_append, skipped, Option.none_or, List.findSome?_cons,
    chosen.1, found]

theorem nextStep_of_inProgress (single : outbound.started ≤ 1)
    (member : slot ∈ outbound.slots) (progress : slot.2.inProgress = true) :
    outbound.nextStep = slot.unsent := by
  obtain ⟨first, some⟩ := stepFor_of_inProgress single member progress
  rw [nextStep, first, Option.or_of_isSome some]

end Outbound

/-- At most one packet is in progress, and its position is before its end. -/
structure Connection.Orderly (connection : Connection) : Prop where
  /-- At most one packet is in progress. -/
  single : connection.outbound.started ≤ 1
  /-- The first pass finds a packet that is not complete. -/
  short : ∀ step, connection.outbound.stepFor true = some step → step.written < step.len

/-- What is left of a packet after a write is not complete. -/
theorem Traffic.short {torn : Prop} {fits : Bytes → Prop} {underway : Option WriteStep} {cut : Bool}
    {back : List (Happening Event)} (traffic : Traffic torn fits underway cut back) :
    ∀ current, underway = some current → current.written < current.bytes.length := by
  -- Only a write leaves something in progress.
  induction traffic with
  | nil => exact nofun
  | silent earlier silent ih => exact ih
  | direct earlier whole legal complete ih => exact nofun
  | cut earlier whole legal part ih => exact nofun
  | @wrote underway cut back current count earlier whole resumes legal positive within ih =>
    intro rest left
    unfold WriteStep.after at left
    split at left
    · cases left
    · cases left
      exact Nat.lt_of_not_le ‹_›

/-- What was sent on a live connection leaves its bookkeeping in order. -/
theorem Connection.Follows.orderly {connection : Connection} {underway : Option WriteStep}
    (follows : connection.Follows underway)
    (short : ∀ current, underway = some current → current.written < current.bytes.length) :
    connection.Orderly := by
  refine ⟨follows.single, fun step first => ?_⟩
  have same := follows.same
  rw [first, Option.map_some] at same
  have less := short _ same.symm
  rw [Outbound.load_written] at less
  exact Nat.lt_of_lt_of_le less Outbound.length_load_le

section Moves

variable {config : ConfigBuilder} {clock : Clock} {moment : ClientMoment}

/-- Every move keeps what is known about the state and about what was sent. -/
theorem Moves.sending (moves : Moves τ (start config clock : ClientWorld τ).moment moment) :
    Grounded moment ∧ Throughout (Sending True) [] moment := by
  refine moves.keep (P := fun moment => Grounded moment ∧ Throughout (Sending True) [] moment)
    (fun step known => ?_) (fun torn known => ?_) ⟨run_grounded config clock
      ([] : List (Invocation Unit τ)), Told.nil⟩
  · exact ⟨(Move.step step).grounded known.1, (Move.step step).sending known.1 known.2⟩
  · have move : Move τ _ _ := .torn torn
    exact ⟨move.grounded known.1, move.sending known.1 known.2⟩

/-- The packet in progress on a live connection is the one that was written last. -/
theorem Moves.follows (moves : Moves τ (start config clock : ClientWorld τ).moment moment)
    (alive : moment.self.live = true) : ∃ underway, moment.self.Follows underway ∧
      ∀ current, underway = some current → current.written < current.bytes.length := by
  obtain ⟨grounded, all⟩ := moves.sending
  obtain ⟨state, ack, established⟩ := grounded.established alive
  obtain ⟨front, back, split, last⟩ := established.since
  obtain ⟨underway, cut, traffic, link⟩ :=
    all.now ⟨split, .inr ⟨state, ack, rfl⟩, last⟩ List.nil_prefix state ack rfl
  exact ⟨underway, (link alive).1, traffic.short⟩

/-- Every move leaves the bookkeeping in order. -/
theorem Moves.orderly (moves : Moves τ (start config clock : ClientWorld τ).moment moment) :
    moment.self.Orderly := by
  cases alive : moment.self.live with
  | false =>
    -- Without a transport every packet is to be started over.
    have zero : moment.self.outbound.started = 0 :=
      Outbound.started_eq_zero.mpr ((moves.sending.1.sparse.tidy.armed alive).mono
        (fun _ same => same ▸ rfl) (fun _ same => same ▸ rfl))
    refine ⟨by omega, fun step first => ?_⟩
    rw [Outbound.stepFor_true_eq_none.mpr zero] at first
    cases first
  | true =>
    obtain ⟨underway, follows, short⟩ := moves.follows alive
    exact follows.orderly short

end Moves

/-- A packet in progress is halfway. -/
theorem Connection.Orderly.halfway {connection : Connection}
    (orderly : connection.Orderly) (member : slot ∈ connection.outbound.slots)
    (progress : slot.2.inProgress = true) : slot.halfway = true := by
  -- It is the next to be written, and what is next is never written in full.
  obtain ⟨first, -⟩ := Outbound.stepFor_of_inProgress orderly.single member progress
  obtain ⟨step, state⟩ := slot
  cases state with
  | write written =>
    have less := orderly.short _ first
    rw [OutboundStep.written_advance, OutboundStep.len_advance] at less
    have positive : (written != 0) = true := progress
    rw [bne_iff_ne] at positive
    exact decide_eq_true ⟨by omega, less⟩
  | flush => cases progress
  | sent => cases progress

/--
In every state that a client can reach, the bookkeeping of outbound packets is in order.

At most one packet is halfway, and the next step goes on with it; otherwise it starts the first one
that is to be written. What is accounted for at the packet of the next step changes no other one.
-/
theorem bookkeeping_right (config : ConfigBuilder) (clock : Clock) :
    (∀ calls : List (Invocation π τ), Moves τ (start config clock : ClientWorld τ).moment
      (run (start config clock) calls).moment) ∧
    ∀ moment, Moves τ (start config clock : ClientWorld τ).moment moment →
      moment.self.outbound.slots.countP Slot.halfway ≤ 1 ∧
      (∀ slot ∈ moment.self.outbound.slots, slot.halfway = true →
        moment.self.outbound.nextStep = slot.unsent) ∧
      ((∀ slot ∈ moment.self.outbound.slots, slot.halfway = false) →
        moment.self.outbound.nextStep = moment.self.outbound.slots.findSome? Slot.unsent) ∧
      (moment.self.outbound.nextStep = none ↔
        ∀ slot ∈ moment.self.outbound.slots, slot.unsent = none) ∧
      ∀ step, moment.self.outbound.nextStep = some step →
        ∃ front back, moment.self.outbound.slots =
            front ++ (step.advance 0, .write step.written) :: back ∧
          ∀ written len, step.written < written →
            SendState.setWritten written len ≠ .write step.written ∧
            (moment.self.outbound.setWritten written len step.packet).slots =
              front ++ (step.advance 0, .setWritten written len) :: back := by
  refine ⟨fun calls => ((settled_start config clock).run calls).moves, fun moment moves => ?_⟩
  have grounded := moves.sending.1
  have orderly := moves.orderly
  have fewer : moment.self.outbound.slots.countP Slot.halfway ≤ moment.self.outbound.started :=
    List.countP_mono_left fun slot _ halfway => Slot.inProgress_of_halfway halfway
  have idle : (∀ slot ∈ moment.self.outbound.slots, slot.halfway = false) →
      moment.self.outbound.started = 0 := by
    intro none
    refine List.countP_eq_zero.mpr fun slot member progress => ?_
    have halfway := orderly.halfway member progress
    rw [none slot member] at halfway
    cases halfway
  refine ⟨Nat.le_trans fewer orderly.single, ?_, ?_, ?_, ?_⟩
  · intro slot member halfway
    exact Outbound.nextStep_of_inProgress orderly.single member (Slot.inProgress_of_halfway halfway)
  · intro none
    exact Outbound.nextStep_of_idle (idle none)
  · by_cases zero : moment.self.outbound.started = 0
    · rw [Outbound.nextStep_of_idle zero, List.findSome?_eq_none_iff]
    · -- A packet in progress is neither sent nor overlooked.
      obtain ⟨slot, member, progress⟩ := List.countP_pos_iff.mp (Nat.pos_of_ne_zero zero)
      obtain ⟨-, some⟩ := Outbound.stepFor_of_inProgress orderly.single member progress
      have next := Outbound.nextStep_of_inProgress orderly.single member progress
      constructor
      · intro none
        rw [← next, none] at some
        cases some
      · intro sent
        rw [sent slot member] at some
        cases some
  · intro step next
    obtain ⟨front, back, split, changed⟩ :=
      (Outbound.at_of_nextStep next).1.slots grounded.identified
    refine ⟨front, back, split, fun written len more => ⟨?_, changed written len⟩⟩
    unfold SendState.setWritten
    split
    · simp
    · simp only [ne_eq, SendState.write.injEq]
      omega

end Minimq
