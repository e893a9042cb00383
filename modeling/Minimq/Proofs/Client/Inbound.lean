import Minimq.Lib.Hoare
import Minimq.Proofs.Client.Outbound

/-! What an inbound packet can do to a session. -/

namespace Minimq

open Hoare

variable {Q : Unit → Handling → Prop} {packetId : UInt16}

/-- The state after an outbound change. -/
def Handling.setOutbound (state : Handling) (outbound : Outbound) : Handling :=
  { state with data := { state.data with outbound } }

/-- The state after the inbound handshakes changed. -/
def Handling.setPending (state : Handling) (ids : FixedVec UInt16 maxInboundQos2) : Handling :=
  { state with data := { state.data with pendingServerPacketIds := ids } }

/-- The state after the quota of a publication was returned. -/
def Handling.returnQuota (state : Handling) : Handling :=
  { state with runtime := { state.runtime with
    sendQuota := min (min (state.runtime.sendQuota + 1) 65535) state.runtime.maxSendQuota } }

/-- How a packet was taken: the outcome of its handler. -/
abbrev Taken := Except (Error Empty) Bool

/-- Whether the outcome ends the connection. -/
def Taken.isFatal : Taken → Bool
  | .ok _ => false
  | .error error => error.isFatal

/-- The packet is a QoS 2 publication with an identifier. -/
def ReceivedPacket.IsOnce (packetId : UInt16) (packet : ReceivedPacket) : Prop :=
  ∃ info, packet = .publish info ∧ info.qos = .exactlyOnce ∧ info.packetId = some packetId

/-- How a packet can change the set of inbound handshakes. -/
inductive Handshakes (packet : ReceivedPacket) (before : FixedVec UInt16 maxInboundQos2)
    (taken : Taken) : FixedVec UInt16 maxInboundQos2 → Prop where
  /-- Nothing changes, and no QoS 2 publication is delivered. -/
  | same (plain : taken = .ok true → ∀ packetId, ¬ packet.IsOnce packetId) :
      Handshakes packet before taken before
  /-- A handshake begins. -/
  | began {packetId : UInt16} {after : FixedVec UInt16 maxInboundQos2}
      (publish : packet.IsOnce packetId) (fresh : packetId ∉ before.toList)
      (pushed : before.push packetId = some after) : Handshakes packet before taken after
  /-- A handshake ends. -/
  | ended {rel : PubRel} {index : Nat} (release : packet = .pubRel rel)
      (found : before.toList[index]? = some rel.packetId) :
      Handshakes packet before taken (before.swapRemove index)

/-- The subscription request a packet acknowledges. -/
inductive ReceivedPacket.Answers : ReceivedPacket → OpKind → UInt16 → Prop where
  | subAck (ack : SubAck) : Answers (.subAck ack) .subscribe ack.packetId
  | unsubAck (ack : SubAck) : Answers (.unsubAck ack) .unsubscribe ack.packetId

/-- What an inbound packet can do to a session. -/
inductive Handled (packet : ReceivedPacket) (before : Handling) (taken : Taken) :
    Handling → Prop where
  /-- The packet is stale, malformed or needs no bookkeeping. -/
  | ignored (plain : taken = .ok true → ∀ packetId, ¬ packet.IsOnce packetId) :
      Handled packet before taken before
  /-- A subscription request is acknowledged. -/
  | answered {kind : OpKind} {packetId : UInt16} {outbound : Outbound}
      (undelivered : taken ≠ .ok true) (request : kind.isPublish = false)
      (acked : before.data.outbound.ackPacket kind packetId = some outbound)
      (answers : packet.Answers kind packetId) :
      Handled packet before taken (before.setOutbound outbound)
  /-- A QoS 1 publication ends. -/
  | published {ack : PubAck} {outbound : Outbound} (undelivered : taken ≠ .ok true)
      (same : packet = .pubAck ack)
      (acked : before.data.outbound.ackPacket .publishAtLeastOnce ack.packetId = some outbound) :
      Handled packet before taken (before.setOutbound outbound).returnQuota
  /-- A QoS 2 publication is refused. -/
  | refused {rec : PubRec} {outbound : Outbound} (undelivered : taken ≠ .ok true)
      (same : packet = .pubRec rec) (failure : rec.reason.code.isSuccess = false)
      (acked : before.data.outbound.ackPacket .publishExactlyOnce rec.packetId = some outbound) :
      Handled packet before taken (before.setOutbound outbound).returnQuota
  /-- A QoS 2 publication was received, but its PUBREL exceeds the limit of the broker. -/
  | oversized {rec : PubRec} {outbound : Outbound} {error : ProtocolError}
      (same : packet = .pubRec rec) (success : rec.reason.code.isSuccess = true)
      (acked : before.data.outbound.ackPacket .publishExactlyOnce rec.packetId = some outbound)
      (sized : checkPubrelSize before.runtime.maximumPacketSize rec.packetId .success =
        .error error)
      (failed : taken = .error error.toError) :
      Handled packet before taken (before.setOutbound outbound).returnQuota
  /-- A QoS 2 publication was received, but its release cannot be tracked. -/
  | untracked {rec : PubRec} {outbound : Outbound} (same : packet = .pubRec rec)
      (success : rec.reason.code.isSuccess = true)
      (acked : before.data.outbound.ackPacket .publishExactlyOnce rec.packetId = some outbound)
      (sized : checkPubrelSize before.runtime.maximumPacketSize rec.packetId .success = .ok ())
      (full : before.data.outbound.pendingRelease.toList.length = maxPendingRelease)
      (failed : taken = .error (.resource .inflightExhausted)) :
      Handled packet before taken (before.setOutbound outbound).returnQuota
  /-- A QoS 2 publication turns into a pending release. -/
  | released {rec : PubRec} {outbound queued : Outbound} (undelivered : taken ≠ .ok true)
      (same : packet = .pubRec rec) (success : rec.reason.code.isSuccess = true)
      (acked : before.data.outbound.ackPacket .publishExactlyOnce rec.packetId = some outbound)
      (sized : checkPubrelSize before.runtime.maximumPacketSize rec.packetId .success = .ok ())
      (released : outbound.queueRelease rec.packetId .success = .ok queued) :
      Handled packet before taken (before.setOutbound queued).returnQuota
  /-- A QoS 2 publication ends. -/
  | completed {comp : PubComp} {outbound : Outbound} (undelivered : taken ≠ .ok true)
      (same : packet = .pubComp comp)
      (acked : before.data.outbound.ackRelease comp.packetId = some outbound) :
      Handled packet before taken (before.setOutbound outbound)
  /-- The inbound handshakes change. -/
  | pending {ids : FixedVec UInt16 maxInboundQos2}
      (changed : Handshakes packet before.data.pendingServerPacketIds taken ids) :
      Handled packet before taken (before.setPending ids)
  /-- An acknowledgement is queued. -/
  | queued {ids : FixedVec UInt16 maxInboundQos2} {action : ControlAction} {outbound : Outbound}
      (changed : Handshakes packet before.data.pendingServerPacketIds taken ids)
      (queued : before.data.outbound.queueControl action = .ok outbound)
      (answer : action ≠ .pingReq) :
      Handled packet before taken ((before.setPending ids).setOutbound outbound)
  /-- The PINGRESP arrived. -/
  | ponged (undelivered : taken ≠ .ok true) (same : packet = .pingResp) :
      Handled packet before taken
        { before with runtime := { before.runtime with pingTimeout := none } }

/-- How an inbound packet can change the queues of a session. -/
inductive Requeued (before after : Outbound) : Prop where
  | same (kept : after = before)
  | acked {kind : OpKind} {packetId : UInt16} (acked : before.ackPacket kind packetId = some after)
  | released {packetId : UInt16} {between : Outbound}
      (acked : before.ackPacket .publishExactlyOnce packetId = some between)
      (released : between.queueRelease packetId .success = .ok after)
  | completed {packetId : UInt16} (acked : before.ackRelease packetId = some after)
  | queued {action : ControlAction} (queued : before.queueControl action = .ok after)
      (answer : action ≠ .pingReq)

theorem Handled.requeued {packet : ReceivedPacket} {before after : Handling} {taken : Taken}
    (handled : Handled packet before taken after) :
    Requeued before.data.outbound after.data.outbound := by
  -- Five packets acknowledge a tracked one, and differ in what they report.
  cases handled with
  | ignored | pending | ponged => exact .same rfl
  | answered _ _ acked => exact .acked acked
  | published _ _ acked => exact .acked acked
  | refused _ _ _ acked => exact .acked acked
  | oversized _ _ acked => exact .acked acked
  | untracked _ _ acked => exact .acked acked
  | released _ _ _ acked _ released => exact .released acked released
  | completed _ _ acked => exact .completed acked
  | queued _ queued answer => exact .queued queued answer

section Handlers

variable {state : Handling} {E : Error Empty → Handling → Prop}

namespace Handler

theorem wp_protocol {α : Type} {Q : α → Handling → Prop} (result : Except ProtocolError α)
    (fine : ∀ value, result = .ok value → Q value state)
    (failed : ∀ error, result = .error error → E error.toError state) :
    wp (protocol result) Q E state := by
  cases result with
  | ok value => exact fine value rfl
  | error error => exact failed error rfl

theorem wp_require (code : ReasonCode) (fine : code.isSuccess = true → Q () state)
    (failed : code.isSuccess = false → E (.peer (.rejected code)) state) :
    wp (require code) Q E state := by
  unfold require ReasonCode.asResult
  cases success : code.isSuccess with
  | true => exact fine success
  | false => exact failed success

theorem wp_requireAll (codes : Bytes) (fine : Q () state)
    (failed : ∀ code, E (.peer (.rejected code)) state) : wp (requireAll codes) Q E state := by
  induction codes with
  | nil => exact fine
  | cons code rest ih =>
    simp only [requireAll, wp_bind]
    exact wp_require _ (fun _ => ih) (fun _ => failed _)

/-- Dropping an acknowledged packet. -/
theorem wp_ackPacket {Q : Bool → Handling → Prop} {kind : OpKind}
    (stale : state.data.outbound.ackPacket kind packetId = none → Q false state)
    (acked : ∀ outbound, state.data.outbound.ackPacket kind packetId = some outbound →
      Q true (state.setOutbound outbound)) :
    wp (ackPacket kind packetId) Q E state := by
  unfold ackPacket
  simp only [wp_bind, wp_get]
  cases found : state.data.outbound.ackPacket kind packetId with
  | none => exact stale found
  | some outbound => exact acked outbound found

/-- Dropping a completed publication. -/
theorem wp_ackRelease {Q : Bool → Handling → Prop}
    (stale : state.data.outbound.ackRelease packetId = none → Q false state)
    (acked : ∀ outbound, state.data.outbound.ackRelease packetId = some outbound →
      Q true (state.setOutbound outbound)) :
    wp (ackRelease packetId) Q E state := by
  unfold ackRelease
  simp only [wp_bind, wp_get]
  cases found : state.data.outbound.ackRelease packetId with
  | none => exact stale found
  | some outbound => exact acked outbound found

@[simp] theorem wp_returnQuota : wp returnQuota Q E state ↔ Q () state.returnQuota := Iff.rfl

theorem wp_queueControl {action : ControlAction}
    (failed : ∀ error : ProtocolError, E error.toError state)
    (queued : ∀ outbound, state.data.outbound.queueControl action = .ok outbound →
      Q () (state.setOutbound outbound)) :
    wp (queueControl action) Q E state := by
  unfold queueControl
  simp only [wp_bind, wp_get]
  refine wp_protocol _ (fun value sized => ?_) (fun error _ => failed error)
  simp only [wp_bind, wp_get]
  exact wp_protocol _ queued (fun error _ => failed error)

theorem wp_queueRelease {reason : ReasonCode}
    (failed : ∀ error, state.data.outbound.queueRelease packetId reason = .error error →
      E error.toError state)
    (queued : ∀ outbound, state.data.outbound.queueRelease packetId reason = .ok outbound →
      Q () (state.setOutbound outbound)) :
    wp (queueRelease packetId reason) Q E state := by
  unfold queueRelease
  simp only [wp_bind, wp_get]
  exact wp_protocol _ queued failed

end Handler

end Handlers

theorem ReceivedPacket.not_isOnce {packet : ReceivedPacket}
    (other : ∀ info, packet = .publish info → info.qos ≠ .exactlyOnce) :
    ¬ packet.IsOnce packetId := fun ⟨info, same, level, _⟩ => other info same level

/-- An inbound publication changes at most the inbound handshakes and queues an answer. -/
theorem Handler.publish_spec (info : Publish) (state : Handling) :
    wp (Handler.publish info) (fun delivered => Handled (.publish info) state (.ok delivered))
      (fun error => Handled (.publish info) state (.error error)) state := by
  -- What is known of the identifier decides whether a handshake begins.
  unfold Handler.publish Handler.requirePacketId
  cases level : info.qos with
  | atMostOnce =>
    exact .ignored fun _ _ => ReceivedPacket.not_isOnce fun _ same => by cases same; simp [level]
  | atLeastOnce =>
    cases info.packetId with
    | none => exact .ignored (by simp)
    | some packetId =>
      simp only [wp_bind, wp_pure, wp_get]
      refine Handler.wp_queueControl (fun _ => .ignored (by simp)) (fun _ queued => ?_)
      exact .queued (.same fun _ _ => ReceivedPacket.not_isOnce fun _ same => by
        cases same; simp [level]) queued (by simp)
  | exactlyOnce =>
    cases identified : info.packetId with
    | none => exact .ignored (by simp)
    | some packetId =>
      simp only [wp_bind, wp_pure, wp_get, wp_ite]
      split
      · rename_i known
        exact Handler.wp_queueControl (fun _ => .ignored (by simp))
          (fun _ queued => .queued (.same (by simp only [known]; simp)) queued (by simp))
      · rename_i fresh
        simp only [List.contains_iff_mem] at fresh
        have once : (ReceivedPacket.publish info).IsOnce packetId := ⟨info, rfl, level, identified⟩
        cases pushed : state.data.pendingServerPacketIds.push packetId with
        | some ids =>
          simp only [wp_bind, wp_set, wp_pure]
          exact Handler.wp_queueControl (fun _ => .pending (.began once fresh pushed))
            (fun _ queued => .queued (.began once fresh pushed) queued (by simp))
        | none =>
          simp only [wp_bind, wp_pure]
          exact Handler.wp_queueControl (fun _ => .ignored (by simp))
            (fun _ queued => .queued (.same (by
              have refused : ReasonCode.receiveMaxExceeded.isSuccess = false := by decide
              simp [refused])) queued (by simp))

/-- Every inbound packet does one of these things, whether or not it ends in an error. -/
theorem handlePacket_spec (packet : ReceivedPacket) (state : Handling) :
    wp (handlePacket packet) (fun delivered => Handled packet state (.ok delivered))
      (fun error => Handled packet state (.error error)) state := by
  cases packet with
  | connAck ack => exact .ignored (by simp)
  | disconnect disconnect => exact .ignored (by simp)
  | pingResp => exact .ponged (by simp) rfl
  | publish info => exact Handler.publish_spec info state
  | subAck ack | unsubAck ack =>
    simp only [handlePacket, Handler.subAck, wp_bind]
    refine Handler.wp_ackPacket (fun _ => .ignored (by simp)) (fun outbound acked => ?_)
    simp only [if_true, wp_bind]
    exact Handler.wp_requireAll _ (.answered (by simp) rfl acked (by constructor))
      (fun _ => .answered (by simp) rfl acked (by constructor))
  | pubAck ack =>
    simp only [handlePacket, Handler.pubAck, wp_bind]
    refine Handler.wp_ackPacket (fun _ => .ignored (by simp)) (fun outbound acked => ?_)
    simp only [if_true, wp_bind, Handler.wp_returnQuota]
    exact Handler.wp_require _ (fun _ => .published (by simp) rfl acked)
      (fun _ => .published (by simp) rfl acked)
  | pubComp comp =>
    simp only [handlePacket, Handler.pubComp, wp_bind]
    refine Handler.wp_ackRelease (fun _ => .ignored (by simp)) (fun outbound acked => ?_)
    simp only [if_true, wp_bind]
    exact Handler.wp_require _ (fun _ => .completed (by simp) rfl acked)
      (fun _ => .completed (by simp) rfl acked)
  | pubRec rec =>
    simp only [handlePacket, Handler.pubRec, wp_bind]
    refine Handler.wp_ackPacket (fun _ => ?_) (fun outbound acked => ?_)
    · simp only [Bool.false_eq_true, if_false, wp_bind, wp_get, wp_ite, wp_pure]
      split
      · exact Handler.wp_require _ (fun _ => .ignored (by simp)) (fun _ => .ignored (by simp))
      · exact .ignored (by simp)
    · simp only [if_true, wp_bind, Handler.wp_returnQuota]
      refine Handler.wp_require _ (fun success => ?_)
        (fun failure => .refused (by simp) rfl failure acked)
      simp only [wp_bind, wp_get]
      refine Handler.wp_protocol _ (fun _ sized => ?_)
        (fun _ sized => .oversized rfl success acked sized rfl)
      rw [wp_bind]
      refine Handler.wp_queueRelease (fun error failed => ?_)
        (fun queued pushed => .released (by simp) rfl success acked sized pushed)
      -- The release queue is the one it was before the publication left the arena.
      obtain ⟨full, rfl⟩ := Outbound.full_of_queueRelease failed
      have full : outbound.pendingRelease.toList.length = maxPendingRelease := full
      rw [Outbound.pendingRelease_of_ackPacket acked] at full
      exact .untracked rfl success acked sized full rfl
  | pubRel rel =>
    simp only [handlePacket, Handler.pubRel, wp_bind, wp_get]
    cases found : state.data.pendingServerPacketIds.toList.findIdx? (· == rel.packetId) with
    | some index =>
      obtain ⟨within, matched, -⟩ := List.findIdx?_eq_some_iff_getElem.mp found
      have here : state.data.pendingServerPacketIds.toList[index]? = some rel.packetId :=
        List.getElem?_eq_some_iff.mpr ⟨within, by simpa using matched⟩
      simp only [wp_bind, wp_set, wp_pure]
      exact Handler.wp_queueControl (fun _ => .pending (.ended rfl here))
        (fun _ queued => .queued (.ended rfl here) queued (by simp))
    | none =>
      simp only [wp_bind, wp_pure]
      exact Handler.wp_queueControl (fun _ => .ignored (by simp))
        (fun _ queued => .queued (.same (by simp)) queued (by simp))

end Minimq
