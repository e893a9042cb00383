import Minimq.Proofs.Codec.Fields

/-! Decoding never looks behind the end of its slice, and never goes back. -/

namespace Minimq

open Hoare

namespace Deserializer

variable {α β : Type} {buf : Bytes} {low : Nat}

/-- A position in a slice, not before another one. -/
structure Between (buf : Bytes) (low : Nat) (deserializer : Deserializer) : Prop where
  /-- The slice is the same. -/
  slice : deserializer.buf = buf
  /-- The position is not before. -/
  past : low ≤ deserializer.index
  /-- The position is not behind the end. -/
  within : deserializer.index ≤ buf.length

/-- A reader that moves forward and stays in the slice, whether it fails or not. -/
def Forward (buf : Bytes) (low : Nat) (reader : Read α) : Prop :=
  ∀ deserializer, Between buf low deserializer →
    wp reader (fun _ => Between buf low) (fun _ => Between buf low) deserializer

theorem forward_pure (value : α) : Forward buf low (pure value : Read α) := fun _ between => between

theorem forward_throw (error : DeError) : Forward buf low (throw error : Read α) :=
  fun _ between => between

theorem Forward.bind {reader : Read α} {next : α → Read β} (first : Forward buf low reader)
    (then' : ∀ value, Forward buf low (next value)) : Forward buf low (reader >>= next) := by
  intro deserializer between
  rw [wp_bind]
  exact wp_mono (first deserializer between) then' (fun _ _ => id)

theorem Forward.ite {c : Prop} [Decidable c] {reader other : Read α}
    (yes : Forward buf low reader) (no : Forward buf low other) :
    Forward buf low (if c then reader else other) := by
  split
  · exact yes
  · exact no

theorem Between.advance {deserializer : Deserializer} {count : Nat}
    (between : Between buf low deserializer) (enough : count ≤ deserializer.remainder.length) :
    Between buf low { deserializer with index := deserializer.index + count } := by
  have within := between.within
  have past := between.past
  rw [length_remainder, len, between.slice] at enough
  exact ⟨between.slice, by dsimp only; omega, by dsimp only; omega⟩

theorem forward_tryTakeN (count : Nat) : Forward buf low (tryTakeN count) := by
  intro deserializer between
  unfold tryTakeN
  simp only [wp_bind, wp_get, wp_ite, wp_throw, wp_set, wp_pure]
  split
  · exact between
  · exact between.advance (by rw [length_remainder]; omega)

theorem forward_pop : Forward buf low pop := by
  intro deserializer between
  unfold pop
  simp only [wp_bind, wp_get]
  split
  · exact between
  · rename_i left
    exact between.advance (by rw [left]; simp)

theorem forward_readU16 : Forward buf low readU16 := by
  intro deserializer between
  unfold readU16
  simp only [wp_bind, wp_get]
  split
  · rename_i left
    exact between.advance (by rw [left]; simp)
  · exact between

theorem forward_readU32 : Forward buf low readU32 := by
  intro deserializer between
  unfold readU32
  simp only [wp_bind, wp_get]
  split
  · rename_i left
    exact between.advance (by rw [left]; simp)
  · exact between

theorem forward_readVarintLoop (invalid : DeError) (remaining index value : Nat) :
    Forward buf low (readVarintLoop pop invalid remaining index value) := by
  induction remaining generalizing index value with
  | zero => exact forward_throw _
  | succ remaining ih =>
    refine forward_pop.bind fun byte => .ite (forward_throw _) (.ite ?_ (ih _ _))
    exact .ite (forward_throw _) (forward_pure _)

theorem forward_announce (length : Option Nat) :
    Forward buf low (modify fun deserializer => { deserializer with nextBytesLen := length }) :=
  fun _ between => ⟨between.slice, between.past, between.within⟩

theorem forward_bool : Forward buf low bool :=
  forward_pop.bind fun _ => .ite (forward_pure _) (.ite (forward_pure _) (forward_throw _))

theorem forward_str : Forward buf low str := by
  refine forward_readU16.bind fun length => (forward_tryTakeN _).bind fun bytes => ?_
  split
  · exact forward_pure _
  · exact forward_throw _

theorem forward_bytes : Forward buf low bytes := by
  intro deserializer between
  unfold bytes
  simp only [wp_bind, wp_get, wp_set]
  have idle : Between buf low { deserializer with nextBytesLen := none } :=
    ⟨between.slice, between.past, between.within⟩
  split
  · exact forward_tryTakeN _ _ idle
  · exact (forward_readU16.bind fun length => forward_tryTakeN _) _ idle

theorem forward_option {field : Read α} (forward : Forward buf low field) :
    Forward buf low (option field) := by
  intro deserializer between
  unfold option
  simp only [wp_bind, wp_get, wp_ite, wp_pure]
  split
  · exact between
  · exact forward _ between

theorem forward_properties : Forward buf low properties := by
  refine (forward_readVarintLoop _ _ _ _).bind fun length => (forward_announce _).bind fun _ =>
    .ite (forward_pure _) ?_
  -- The block is taken whole and the length in front of it is announced.
  intro deserializer between
  rw [wp_bind, wp_get]
  refine (forward_bytes.bind fun block => ?_) _ between
  intro after between
  rw [wp_bind, wp_get]
  refine Forward.ite ((forward_throw _).bind fun _ => (forward_announce _).bind fun _ =>
    forward_pure _) ((forward_announce _).bind fun _ => forward_pure _) _ between

theorem forward_propertyValue (identifier : Nat) :
    Forward buf low (propertyValue identifier) := by
  unfold propertyValue
  -- Each identifier has one kind of value; one has two strings and others fail.
  split
  case h_28 => exact forward_throw _
  case h_23 => exact forward_str.bind fun _ => forward_str.bind fun _ => forward_pure _
  all_goals first
    | exact forward_pop.bind fun _ => forward_pure _
    | exact forward_readU16.bind fun _ => forward_pure _
    | exact forward_readU32.bind fun _ => forward_pure _
    | exact forward_str.bind fun _ => forward_pure _
    | exact forward_bytes.bind fun _ => forward_pure _
    | exact (forward_readVarintLoop _ _ _ _).bind fun _ => forward_pure _

/-- Reading a property takes at least one byte, unless there is none. -/
theorem property_advances (byte : UInt8) (block : Bytes) :
    wp property (fun _ => Between (byte :: block) 1) (fun _ => Between (byte :: block) 1)
      (new (byte :: block)) := by
  have first : Between (byte :: block) 1 { new (byte :: block) with index := 1 } :=
    ⟨rfl, Nat.le_refl 1, by simp⟩
  -- After the first byte nothing is read backwards.
  have rest : Forward (byte :: block) 1 (do
      let value := 0 ||| ((byte &&& 0x7F).toNat <<< (0 * 7))
      let identifier ← (if value > mqttVarintMax then throw .badVarint
        else if byte &&& 0x80 = 0 then
          if 0 * 7 ≠ 0 ∧ (byte &&& 0x7F).toNat = 0 then throw .badVarint else return value
        else readVarintLoop pop .badVarint 3 1 value : Read Nat)
      propertyValue identifier) := by
    refine Forward.bind (.ite (forward_throw _) (.ite (.ite (forward_throw _) (forward_pure _)) ?_))
      forward_propertyValue
    exact forward_readVarintLoop _ _ _ _
  exact rest _ first

theorem forward_reasonCode : Forward buf low reasonCode := forward_pop.bind fun _ => forward_pure _

theorem forward_reason : Forward buf low reason :=
  (forward_option (forward_reasonCode.bind fun _ => (forward_option forward_properties).bind fun _ =>
    forward_pure _)).bind fun _ => forward_pure _

theorem forward_ack : Forward buf low ack :=
  forward_readU16.bind fun _ => forward_reason.bind fun _ => forward_pure _

theorem forward_subAck : Forward buf low subAck :=
  forward_readU16.bind fun _ => forward_properties.bind fun _ => forward_pure _

theorem forward_connAck : Forward buf low connAck :=
  forward_bool.bind fun _ => forward_reasonCode.bind fun _ => forward_properties.bind fun _ =>
    forward_pure _

theorem forward_disconnect : Forward buf low disconnect :=
  (forward_option forward_reasonCode).bind fun _ => (forward_option forward_properties).bind fun _ =>
    forward_pure _

end Deserializer

namespace ReceivedPacket

open Deserializer

variable {buf : Bytes} {low : Nat}

theorem forward_publishFields (header : FixedHeader) : Forward buf low (publishFields header) := by
  unfold publishFields
  split
  · exact forward_throw _
  · refine forward_str.bind fun topic => .ite ((forward_pure _).bind fun _ => ?_) ?_
    · exact forward_properties.bind fun _ => forward_pure _
    · rw [map_eq_pure_bind]
      exact (forward_readU16.bind fun _ => forward_pure _).bind fun _ =>
        forward_properties.bind fun _ => forward_pure _

theorem forward_fields (header : FixedHeader) (kind : MessageType) :
    Forward buf low (fields header kind) := by
  -- What a client never receives is refused without reading on.
  cases kind with
  | connAck => exact forward_connAck.bind fun _ => forward_pure _
  | publish => exact (forward_publishFields header).bind fun _ => forward_pure _
  | pubAck | pubRec | pubRel | pubComp => exact forward_ack.bind fun _ => forward_pure _
  | subAck | unsubAck => exact forward_subAck.bind fun _ => forward_pure _
  | pingResp => exact forward_pure _
  | disconnect => exact forward_disconnect.bind fun _ => forward_pure _
  | _ => exact forward_throw _

theorem forward_deserialize : Forward buf low deserialize := by
  refine forward_pop.bind fun byte => (forward_readVarintLoop _ _ _ _).bind fun _ => ?_
  split
  · exact forward_throw _
  · exact .ite (forward_fields _ _) (forward_throw _)

end ReceivedPacket

end Minimq
