import Minimq.Lib.Grammar
import Minimq.Codec.ReceivedPacket
import Minimq.Proofs.Codec.Framing
import Minimq.Proofs.Codec.Serializer

/-! Every field is read as exactly the bytes it is written as. -/

namespace Minimq

open Hoare Grammar

section Integers

/-- A 16-bit integer is put together from the bytes it is written as. -/
theorem join_u16Bytes (value : UInt16) :
    ((value >>> 8).toUInt8.toUInt16 <<< 8) ||| value.toUInt8.toUInt16 = value := by
  -- Bit by bit, each comes from one of the two bytes.
  apply UInt16.toBitVec_inj.mp
  ext position within
  simp only [UInt16.toBitVec_or, UInt16.toBitVec_shiftLeft, UInt8.toBitVec_toUInt16,
    UInt16.toBitVec_toUInt8, UInt16.toBitVec_shiftRight, UInt16.toBitVec_ofNat,
    BitVec.ofNat_eq_ofNat, BitVec.reduceMod, BitVec.ushiftRight_eq', BitVec.toNat_ofNat,
    Nat.reducePow, Nat.reduceMod, BitVec.shiftLeft_eq', BitVec.getElem_or,
    BitVec.getElem_shiftLeft, BitVec.getElem_setWidth, BitVec.getLsbD_setWidth,
    BitVec.getLsbD_ushiftRight]
  grind

/-- Two bytes are what their 16-bit integer is written as. -/
theorem u16Bytes_join (high low : UInt8) :
    u16Bytes ((high.toUInt16 <<< 8) ||| low.toUInt16) = [high, low] := by
  simp only [u16Bytes, List.cons.injEq, and_true, ← UInt8.toBitVec_inj]
  -- Every bit of a byte comes from one place in the integer.
  constructor <;>
  · ext position within
    simp only [UInt16.toBitVec_toUInt8, UInt16.toBitVec_shiftRight, UInt16.toBitVec_or,
      UInt16.toBitVec_shiftLeft, UInt8.toBitVec_toUInt16, UInt16.toBitVec_ofNat,
      BitVec.ofNat_eq_ofNat, BitVec.reduceMod, BitVec.shiftLeft_eq', BitVec.toNat_ofNat,
      Nat.reducePow, Nat.reduceMod, BitVec.ushiftRight_eq', BitVec.getElem_setWidth,
      BitVec.getLsbD_ushiftRight, BitVec.getLsbD_or, BitVec.getLsbD_shiftLeft,
      BitVec.getLsbD_setWidth]
    grind

/-- A 32-bit integer is put together from the bytes it is written as. -/
theorem join_u32Bytes (value : UInt32) :
    ((value >>> 24).toUInt8.toUInt32 <<< 24) ||| ((value >>> 16).toUInt8.toUInt32 <<< 16) |||
      ((value >>> 8).toUInt8.toUInt32 <<< 8) ||| value.toUInt8.toUInt32 = value := by
  -- Bit by bit, each comes from one of the four bytes.
  apply UInt32.toBitVec_inj.mp
  ext position within
  simp only [UInt32.toBitVec_or, UInt32.toBitVec_shiftLeft, UInt8.toBitVec_toUInt32,
    UInt32.toBitVec_toUInt8, UInt32.toBitVec_shiftRight, UInt32.toBitVec_ofNat,
    BitVec.ofNat_eq_ofNat, BitVec.reduceMod, BitVec.ushiftRight_eq', BitVec.toNat_ofNat,
    Nat.reducePow, Nat.reduceMod, BitVec.shiftLeft_eq', BitVec.getElem_or,
    BitVec.getElem_shiftLeft, BitVec.getElem_setWidth, BitVec.getLsbD_setWidth,
    BitVec.getLsbD_ushiftRight]
  grind

/-- Four bytes are what their 32-bit integer is written as. -/
theorem u32Bytes_join (first second third fourth : UInt8) :
    u32Bytes ((first.toUInt32 <<< 24) ||| (second.toUInt32 <<< 16) ||| (third.toUInt32 <<< 8) |||
      fourth.toUInt32) = [first, second, third, fourth] := by
  simp only [u32Bytes, List.cons.injEq, and_true, ← UInt8.toBitVec_inj]
  refine ⟨?_, ?_, ?_, ?_⟩ <;>
  · -- Every bit of a byte comes from one place of the integer.
    ext position within
    simp only [UInt32.toBitVec_toUInt8, UInt32.toBitVec_shiftRight, UInt32.toBitVec_or,
      UInt32.toBitVec_shiftLeft, UInt8.toBitVec_toUInt32, UInt32.toBitVec_ofNat,
      BitVec.ofNat_eq_ofNat, BitVec.reduceMod, BitVec.shiftLeft_eq', BitVec.toNat_ofNat,
      Nat.reducePow, Nat.reduceMod, BitVec.ushiftRight_eq', BitVec.getElem_setWidth,
      BitVec.getLsbD_ushiftRight, BitVec.getLsbD_or, BitVec.getLsbD_shiftLeft,
      BitVec.getLsbD_setWidth]
    grind

end Integers

section Varint

variable {ε σ : Type} {view : σ → Bytes} {good : σ → Prop} {read : EStateM ε σ UInt8}

/-- What is left of a variable byte integer when some groups have been read. -/
def varintGroups (remaining index value : Nat) : Grammar UInt8 Nat := fun input found rest =>
  ∃ high len, varintPrefix remaining (index == 0) input = .found high len ∧
    found = value + 128 ^ index * high ∧ rest = input.drop len

theorem group_lt {value index : Nat} (small : value < 128 ^ index) (byte : UInt8) :
    value + 128 ^ index * (byte &&& 0x7F).toNat < 128 ^ (index + 1) := by
  have part : (byte &&& 0x7F).toNat ≤ 127 := by rw [toNat_and_data]; omega
  have := Nat.mul_le_mul_left (128 ^ index) part
  rw [Nat.pow_succ]
  omega

/-- The loop reads the remaining groups. -/
theorem readVarintLoop_reads (byte : Reads view good read (code fun byte => some [byte]))
    (invalid : ε) {remaining index value : Nat} (budget : remaining + index = mqttVarintMaxBytes)
    (small : value < 128 ^ index) :
    Reads view good (readVarintLoop read invalid remaining index value)
      (varintGroups remaining index value) := by
  induction remaining generalizing index value with
  | zero =>
    refine (Reads.throw invalid).congr fun input found rest => ⟨False.elim, ?_⟩
    rintro ⟨high, len, none, -⟩
    simp [varintPrefix] at none
  | succ remaining ih =>
    -- The grammar behind a byte depends on its two parts.
    let following (byte : UInt8) : Grammar UInt8 Nat :=
      let part := (byte &&& 0x7F).toNat
      if byte &&& 0x80 = 0 then
        if index * 7 ≠ 0 ∧ part = 0 then never else unit (value + 128 ^ index * part)
      else varintGroups remaining (index + 1) (value + 128 ^ index * part)
    have power : 128 ^ (index + 1) ≤ 128 ^ mqttVarintMaxBytes :=
      Nat.pow_le_pow_right (by decide) (by omega)
    refine Reads.congr (byte.bind (show ∀ byte, Reads view good _ (following byte) from
      fun byte => ?_)) fun input found rest => ?_
    · have sum := group_lt small byte
      have within : ¬ value + 128 ^ index * (byte &&& 0x7F).toNat > mqttVarintMax := by
        simp only [mqttVarintMax, mqttVarintMaxBytes] at power ⊢
        omega
      simp only [or_group small, if_neg within]
      refine Reads.ite (fun _ => ?_) (fun _ => ih (by omega) sum)
      exact Reads.ite (fun _ => .throw _) (fun _ => .pure _)
    · constructor
      · rintro ⟨byte, middle, front, behind⟩
        obtain rfl := code_total.mp front
        simp only [following, List.cons_append, List.nil_append] at behind ⊢
        by_cases last : byte &&& 0x80 = 0
        · simp only [if_pos last] at behind
          split at behind
          · exact behind.elim
          · obtain ⟨rfl, rfl⟩ := behind
            rename_i canonical
            refine ⟨(byte &&& 0x7F).toNat, 1, ?_, rfl, rfl⟩
            simp only [varintPrefix, if_pos last]
            rw [if_neg]
            simpa using canonical
        · simp only [if_neg last] at behind
          obtain ⟨high, len, inner, rfl, rfl⟩ := behind
          refine ⟨(byte &&& 0x7F).toNat + 128 * high, len + 1, ?_, ?_, rfl⟩
          · rw [show (index + 1 == 0) = false by simp] at inner
            simp only [varintPrefix, if_neg last, inner]
          · rw [Nat.pow_succ, Nat.mul_add, Nat.mul_assoc, Nat.add_assoc]
      · rintro ⟨high, len, found, rfl, rfl⟩
        cases input with
        | nil => simp [varintPrefix] at found
        | cons byte tail =>
          refine ⟨byte, tail, code_total.mpr rfl, ?_⟩
          simp only [varintPrefix] at found
          simp only [following]
          by_cases last : byte &&& 0x80 = 0
          · simp only [if_pos last] at found ⊢
            split at found
            · simp at found
            · rename_i canonical
              simp only [VarintPrefix.found.injEq] at found
              obtain ⟨rfl, rfl⟩ := found
              rw [if_neg (by simpa using canonical)]
              exact ⟨rfl, rfl⟩
          · simp only [if_neg last] at found ⊢
            split at found
            · rename_i inner
              simp only [VarintPrefix.found.injEq] at found
              obtain ⟨rfl, rfl⟩ := found
              refine ⟨_, _, inner, ?_, rfl⟩
              rw [Nat.pow_succ, Nat.mul_add, Nat.mul_assoc, Nat.add_assoc]
            · rename_i other
              exact absurd found (other _ _)

/-- A variable byte integer is read as it is written. -/
theorem readMqttU32Varint_reads (byte : Reads view good read (code fun byte => some [byte]))
    (invalid : ε) :
    Reads view good (readMqttU32Varint read invalid) (code writeMqttU32Varint) := by
  refine (readVarintLoop_reads byte invalid rfl (by decide)).congr fun input value rest => ?_
  -- The loop finds an integer exactly if the writer spells it.
  constructor
  · rintro ⟨high, len, found, rfl, rfl⟩
    obtain ⟨field, written, ⟨rest, rfl⟩, rfl⟩ := varintPrefix_eq_found.mp found
    exact ⟨field, by simpa using written, by simp⟩
  · rintro ⟨field, written, rfl⟩
    refine ⟨value, field.length, varintPrefix_eq_found.mpr ⟨field, written, ?_, rfl⟩, ?_, ?_⟩
    · exact ⟨rest, rfl⟩
    · simp
    · simp

end Varint

section Tokens

/-- Bytes behind their 16-bit length. -/
def counted (bytes : Bytes) : Option Bytes :=
  if bytes.length ≤ 65535 then some (u16Bytes (UInt16.ofNat bytes.length) ++ bytes) else none

theorem tokenBytes_push (bytes : Bytes) : tokenBytes [.push bytes] = some bytes := by
  simp [tokenBytes]

theorem tokenBytes_bytes (data : Bytes) :
    tokenBytes (data.map fun byte => .push [byte]) = some data := by
  induction data with
  | nil => rfl
  | cons byte data ih => simp [tokenBytes, ih]

theorem tokenBytes_binaryTokens (data : Bytes) : tokenBytes (binaryTokens data) = counted data := by
  unfold binaryTokens counted
  split
  · simp [tokenBytes, tokenBytes_bytes]
  · rfl

theorem tokenBytes_utf8Tokens (text : Utf8) :
    tokenBytes (utf8Tokens text) = counted text.bytes := by
  unfold utf8Tokens counted Utf8.len
  split <;> simp [tokenBytes]

theorem tokenBytes_varintTokens (value : Nat) :
    tokenBytes (varintTokens value) = writeMqttU32Varint value := by
  unfold varintTokens
  cases writeMqttU32Varint value with
  | none => rfl
  | some encoded => exact tokenBytes_bytes encoded

theorem length_counted {data : Bytes} (short : data.length ≤ 65535) :
    (counted data).map List.length = some (2 + data.length) := by
  rw [counted, if_pos short]
  simp [u16Bytes]
  omega

theorem tokensLength_utf8 {text : Utf8} (short : text.len ≤ 65535) :
    tokensLength (utf8Tokens text) = some (2 + text.len) := by
  rw [tokensLength, tokenBytes_utf8Tokens, length_counted short, Utf8.len]

theorem tokensLength_binary {data : Bytes} (short : data.length ≤ 65535) :
    tokensLength (binaryTokens data) = some (2 + data.length) := by
  rw [tokensLength, tokenBytes_binaryTokens, length_counted short]

theorem tokensLength_varint {value : Nat} (small : value ≤ mqttVarintMax) :
    tokensLength (varintTokens value) = some (encodedLen value) := by
  rw [tokensLength, tokenBytes_varintTokens]
  cases written : writeMqttU32Varint value with
  | none => exact absurd (writeMqttU32Varint_eq_none.mp written) (by omega)
  | some encoded => rw [Option.map_some, encodedLen_eq written]

end Tokens

namespace Deserializer

variable {P : Option Nat → Prop}

/-- A reader that accepts exactly a grammar, whenever the announced length meets a condition. -/
abbrev Accepts {α : Type} (P : Option Nat → Prop) (reader : Read α) (grammar : Grammar UInt8 α) :
    Prop :=
  Reads remainder (fun deserializer => P deserializer.nextBytesLen) reader grammar

theorem remainder_advance (deserializer : Deserializer) (count : Nat) :
    ({ deserializer with index := deserializer.index + count } : Deserializer).remainder =
      deserializer.remainder.drop count := by
  simp [remainder, List.drop_drop]

theorem length_remainder (deserializer : Deserializer) :
    deserializer.remainder.length = deserializer.len := by
  simp [remainder, len]

theorem pop_accepts : Accepts P pop (code fun byte => some [byte]) where
  sound {s value s'} ok read := by
    unfold pop at read
    simp only [bind_apply, get_apply] at read
    -- There is a byte to take, or the reader fails.
    cases left : s.remainder with
    | nil => simp [left] at read
    | cons byte rest =>
      simp only [left, bind_apply, set_apply, pure_apply, EStateM.Result.ok.injEq] at read
      obtain ⟨rfl, rfl⟩ := read
      refine ⟨code_total.mpr ?_, ok⟩
      rw [remainder_advance, left]
      rfl
  complete {s value rest} _ accepted := by
    have left := code_total.mp accepted
    refine ⟨{ s with index := s.index + 1 }, ?_, ?_⟩
    · simp [pop, left]
    · rw [remainder_advance, left]
      rfl

theorem readU16_accepts : Accepts P readU16 (code fun value => some (u16Bytes value)) where
  sound {s value s'} ok read := by
    unfold readU16 at read
    simp only [bind_apply, get_apply] at read
    -- Two bytes are taken, or the reader fails.
    match left : s.remainder with
    | [] | [_] => simp [left] at read
    | high :: low :: rest =>
      simp only [left, bind_apply, set_apply, pure_apply, EStateM.Result.ok.injEq] at read
      obtain ⟨rfl, rfl⟩ := read
      refine ⟨code_total.mpr ?_, ok⟩
      rw [remainder_advance, left, u16Bytes_join]
      rfl
  complete {s value rest} _ accepted := by
    have left := code_total.mp accepted
    refine ⟨{ s with index := s.index + 2 }, ?_, ?_⟩
    · simp only [readU16, bind_apply, get_apply, left, u16Bytes, List.cons_append, List.nil_append,
        set_apply, pure_apply, join_u16Bytes]
    · rw [remainder_advance, left]
      rfl

theorem readU32_accepts : Accepts P readU32 (code fun value => some (u32Bytes value)) where
  sound {s value s'} ok read := by
    unfold readU32 at read
    simp only [bind_apply, get_apply] at read
    -- Four bytes are taken, or the reader fails.
    match left : s.remainder with
    | [] | [_] | [_, _] | [_, _, _] => simp [left] at read
    | first :: second :: third :: fourth :: rest =>
      simp only [left, bind_apply, set_apply, pure_apply, EStateM.Result.ok.injEq] at read
      obtain ⟨rfl, rfl⟩ := read
      refine ⟨code_total.mpr ?_, ok⟩
      rw [remainder_advance, left, u32Bytes_join]
      rfl
  complete {s value rest} _ accepted := by
    have left := code_total.mp accepted
    refine ⟨{ s with index := s.index + 4 }, ?_, ?_⟩
    · simp only [readU32, bind_apply, get_apply, left, u32Bytes, List.cons_append, List.nil_append,
        set_apply, pure_apply, join_u32Bytes]
    · rw [remainder_advance, left]
      rfl

/-- Bytes of a given number. -/
def ofLength (count : Nat) : Grammar UInt8 Bytes :=
  code fun bytes => if bytes.length = count then some bytes else none

theorem tryTakeN_accepts (count : Nat) : Accepts P (tryTakeN count) (ofLength count) where
  sound {s value s'} ok read := by
    unfold tryTakeN at read
    simp only [bind_apply, get_apply] at read
    -- The bytes are there, or the reader fails without taking any.
    by_cases short : s.len < count
    · simp [if_pos short] at read
    · simp only [if_neg short, bind_apply, set_apply, pure_apply, EStateM.Result.ok.injEq] at read
      obtain ⟨rfl, rfl⟩ := read
      refine ⟨⟨s.remainder.take count, if_pos ?_, ?_⟩, ok⟩
      · rw [List.length_take, length_remainder]
        omega
      · rw [remainder_advance, List.take_append_drop]
  complete {s value rest} _ := by
    rintro ⟨symbols, whole, left⟩
    simp only [Option.ite_none_right_eq_some, Option.some.injEq] at whole
    obtain ⟨rfl, rfl⟩ := whole
    have enough : ¬ s.len < value.length := by
      rw [← length_remainder, left, List.length_append]
      omega
    refine ⟨{ s with index := s.index + value.length }, ?_, ?_⟩
    · simp [tryTakeN, enough, left]
    · rw [remainder_advance, left, List.drop_left]

theorem counted_accepts : Accepts P (do
      let length ← readU16
      tryTakeN length.toNat) (code counted) := by
  refine (readU16_accepts.bind fun length => tryTakeN_accepts length.toNat).congr
    fun input value rest => ?_
  -- The two bytes in front tell how many follow.
  constructor
  · rintro ⟨length, middle, front, symbols, whole, rfl⟩
    obtain rfl := code_total.mp front
    simp only [Option.ite_none_right_eq_some, Option.some.injEq] at whole
    obtain ⟨size, rfl⟩ := whole
    have bound := length.toNat_lt
    refine ⟨u16Bytes length ++ value, ?_, by rw [List.append_assoc]⟩
    rw [counted, if_pos (by omega), size, UInt16.ofNat_toNat]
  · rintro ⟨symbols, whole, rfl⟩
    simp only [counted, Option.ite_none_right_eq_some, Option.some.injEq] at whole
    obtain ⟨small, rfl⟩ := whole
    refine ⟨UInt16.ofNat value.length, value ++ rest,
      code_total.mpr (List.append_assoc _ _ _), value, if_pos ?_, rfl⟩
    rw [UInt16.toNat_ofNat_of_lt' (show value.length < 65536 by omega)]

/-- Bytes are a string if they are well formed. -/
theorem fromBytes_accepts (bytes : Bytes) : Accepts P (match Utf8.fromBytes bytes with
    | some text => return text
    | none => throw .badString) fun input text rest => text.bytes = bytes ∧ input = rest := by
  -- A text carries its own proof of being well formed.
  cases known : Utf8.fromBytes bytes with
  | none =>
    refine (Reads.throw _).congr fun input text rest => ⟨False.elim, ?_⟩
    rintro ⟨rfl, -⟩
    simp [Utf8.fromBytes, text.valid] at known
  | some text =>
    have same : text.bytes = bytes := by
      simp only [Utf8.fromBytes, Option.dite_none_right_eq_some, Option.some.injEq] at known
      obtain ⟨valid, rfl⟩ := known
      rfl
    refine (Reads.pure _).congr fun input other rest => and_congr_left fun _ => ?_
    constructor
    · rintro rfl
      exact same
    · intro bytes
      cases other
      cases text
      simp_all

theorem str_accepts : Accepts P str (code fun text => tokenBytes (utf8Tokens text)) := by
  have split := (counted_accepts (P := P)).bind fromBytes_accepts
  simp only [bind_assoc] at split
  refine split.congr fun input text rest => ?_
  simp only [tokenBytes_utf8Tokens]
  constructor
  · rintro ⟨bytes, middle, front, rfl, rfl⟩
    exact front
  · exact fun front => ⟨text.bytes, rest, front, rfl, rfl⟩

theorem bytes_accepts :
    Accepts (· = none) bytes (code fun data => tokenBytes (binaryTokens data)) := by
  simp only [tokenBytes_binaryTokens]
  -- Without an announced length the two bytes in front are read.
  have same {s : Deserializer} (idle : s.nextBytesLen = none) : bytes s = (do
      let length ← readU16
      tryTakeN length.toNat : Read Bytes) s := by
    unfold bytes
    rw [bind_apply, get_apply]
    simp only [idle]
    rw [bind_apply, set_apply]
    rw [← idle]
  have reads := counted_accepts (P := (· = none))
  refine ⟨fun idle read => reads.sound idle ?_, fun idle accepted => ?_⟩
  · rwa [← same idle]
  · rw [same idle]
    exact reads.complete idle accepted

theorem readVarint_accepts : Accepts P readVarint (code writeMqttU32Varint) :=
  readMqttU32Varint_reads pop_accepts _

theorem varint_accepts : Accepts P varint (code writeMqttU32Varint) :=
  readMqttU32Varint_reads pop_accepts _

end Deserializer

end Minimq
