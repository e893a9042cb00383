import Mathlib.Tactic.Ring
import Minimq.Codec.Varint
import Minimq.Lib.Hoare

/-! Laws of variable byte integers: writer and probe agree on the canonical encoding. -/

namespace Minimq

variable {value : Nat} {encoded : Bytes} {bytes : Bytes}

theorem toNat_and_data (byte : UInt8) : (byte &&& 0x7F).toNat = byte.toNat % 128 := by
  rw [UInt8.toNat_and]
  exact Nat.and_two_pow_sub_one_eq_mod byte.toNat 7

theorem and_continuation_eq_zero (byte : UInt8) : byte &&& 0x80 = 0 ↔ byte.toNat < 128 := by
  -- Both sides are decided for each of the 256 bytes.
  have all : ∀ bits : BitVec 8, bits &&& 0x80#8 = 0#8 ↔ bits.toNat < 128 := by decide +kernel
  rw [← UInt8.toBitVec_inj]
  exact all byte.toBitVec

theorem toNat_or_continuation (small : value < 128) :
    (UInt8.ofNat value ||| 0x80).toNat = value + 128 := by
  have all : ∀ n : Fin 128, (UInt8.ofNat n.val ||| 0x80).toNat = n.val + 128 := by decide +kernel
  exact all ⟨value, small⟩

/-- The encoding has at least one byte and at most as many as there are slots. -/
theorem writeVarintLoop_length {slots value : Nat}
    (written : writeVarintLoop slots value = some encoded) :
    0 < encoded.length ∧ encoded.length ≤ slots := by
  -- Every group takes one byte and one slot.
  induction slots generalizing value encoded with
  | zero => simp [writeVarintLoop] at written
  | succ slots ih =>
    simp only [writeVarintLoop] at written
    split at written
    · obtain ⟨tail, found, rfl⟩ := Option.map_eq_some_iff.mp written
      have := ih found
      simp only [List.length_cons]
      omega
    · cases written
      simp

/-- A value below the limit of its slots has an encoding. -/
theorem writeVarintLoop_isSome {slots value : Nat} (room : 0 < slots)
    (small : value < 128 ^ slots) : (writeVarintLoop slots value).isSome := by
  induction slots generalizing value with
  | zero => omega
  | succ slots ih =>
    simp only [writeVarintLoop, Nat.shiftRight_eq_div_pow]
    split
    · rename_i more
      rw [Option.isSome_map]
      rw [Nat.pow_succ] at small
      -- A group less leaves a value that fits the other slots.
      have shrinks : value / 2 ^ 7 < 128 ^ slots := by omega
      apply ih _ shrinks
      rcases slots with _ | slots
      · simp only [Nat.pow_zero] at shrinks
        omega
      · omega
    · rfl

/-- Exactly the values up to the limit have an encoding. -/
theorem writeMqttU32Varint_eq_none : writeMqttU32Varint value = none ↔ mqttVarintMax < value := by
  unfold writeMqttU32Varint
  split
  · simpa
  · rename_i small
    -- Below the limit four groups are enough.
    have some : (writeVarintLoop mqttVarintMaxBytes value).isSome := by
      apply writeVarintLoop_isSome (by decide)
      simp only [mqttVarintMaxBytes, mqttVarintMax] at small ⊢
      omega
    simp only [Option.isSome_iff_ne_none] at some
    simpa [some] using small

theorem writeMqttU32Varint_length (written : writeMqttU32Varint value = some encoded) :
    0 < encoded.length ∧ encoded.length ≤ 4 := by
  unfold writeMqttU32Varint at written
  split at written
  · simp at written
  · exact writeVarintLoop_length written

/-- Repeated division counts the groups of seven bits. -/
theorem encodedLenLoop_eq {slots fuel value : Nat}
    (written : writeVarintLoop slots value = some encoded) (enough : slots ≤ fuel) :
    encodedLenLoop fuel value = encoded.length := by
  induction slots generalizing fuel value encoded with
  | zero => simp [writeVarintLoop] at written
  | succ slots ih =>
    obtain ⟨fuel, rfl⟩ : ∃ less, fuel = less + 1 := ⟨fuel - 1, by omega⟩
    simp only [writeVarintLoop, Nat.shiftRight_eq_div_pow] at written
    rw [encodedLenLoop]
    -- Both loops go on as long as the value has another group.
    split at written
    · rename_i more
      obtain ⟨tail, inner, rfl⟩ := Option.map_eq_some_iff.mp written
      rw [if_pos (by omega), ih inner (by omega), List.length_cons]
    · rename_i last
      cases written
      rw [if_neg (by omega), List.length_singleton]

theorem encodedLen_eq
    (written : writeMqttU32Varint value = some encoded) : encodedLen value = encoded.length := by
  unfold writeMqttU32Varint at written
  split at written
  · simp at written
  · exact encodedLenLoop_eq written (by decide)

/-- What a list of bytes starts with, read as a variable byte integer. -/
inductive VarintPrefix where
  /-- Every byte so far asks for another one. -/
  | incomplete
  /-- No continuation makes the bytes canonical. -/
  | invalid
  /-- A value and the number of bytes it takes. -/
  | found (value len : Nat)
  deriving DecidableEq

/-- Read the front of a list as a variable byte integer of at most `slots` bytes. -/
def varintPrefix : (slots : Nat) → (first : Bool) → Bytes → VarintPrefix
  | 0, _, _ => .invalid
  | _ + 1, _, [] => .incomplete
  | slots + 1, first, byte :: rest =>
    let part := (byte &&& 0x7F).toNat
    if byte &&& 0x80 = 0 then
      if !first ∧ part = 0 then .invalid else .found part 1
    else match varintPrefix slots false rest with
      | .found value len => .found (part + 128 * value) (len + 1)
      | other => other

/-- A value found in at most `slots` bytes is below their limit. -/
theorem varintPrefix_lt {slots : Nat} {first : Bool} {value len : Nat}
    (found : varintPrefix slots first bytes = .found value len) : value < 128 ^ slots := by
  induction slots generalizing first bytes value len with
  | zero => simp [varintPrefix] at found
  | succ slots ih =>
    cases bytes with
    | nil => simp [varintPrefix] at found
    | cons byte rest =>
      have small := toNat_and_data byte
      simp only [varintPrefix] at found
      -- The last group is below 128, and every other one adds a factor.
      split at found
      · split at found
        · simp at found
        · simp only [VarintPrefix.found.injEq] at found
          have : 0 < 128 ^ slots := Nat.pow_pos (by decide)
          rw [Nat.pow_succ]
          omega
      · split at found
        · rename_i inner
          simp only [VarintPrefix.found.injEq] at found
          have := ih inner
          rw [Nat.pow_succ]
          omega
        · rename_i other
          exact absurd found (other _ _)

/-- The found bytes are the writer's encoding of the value. -/
theorem writeVarintLoop_of_found {slots : Nat} {first : Bool} {value len : Nat}
    (found : varintPrefix slots first bytes = .found value len) :
    writeVarintLoop slots value = some (bytes.take len) ∧ len ≤ bytes.length ∧
      (first = false → value ≠ 0) := by
  induction slots generalizing first bytes value len with
  | zero => simp [varintPrefix] at found
  | succ slots ih =>
    cases bytes with
    | nil => simp [varintPrefix] at found
    | cons byte rest =>
      have part := toNat_and_data byte
      have bound := byte.toNat_lt
      simp only [varintPrefix] at found
      split at found
      · -- The last byte is the value itself.
        rename_i last
        have small := (and_continuation_eq_zero byte).mp last
        split at found
        · simp at found
        · rename_i canonical
          simp only [VarintPrefix.found.injEq] at found
          obtain ⟨rfl, rfl⟩ := found
          have same : (byte &&& 0x7F).toNat = byte.toNat := by omega
          have masked : byte.toNat &&& 127 = byte.toNat := by
            rw [show (127 : Nat) = 2 ^ 7 - 1 from rfl, Nat.and_two_pow_sub_one_eq_mod]
            omega
          have done : ¬ (byte.toNat >>> 7 ≠ 0) := by
            rw [Nat.shiftRight_eq_div_pow]
            omega
          refine ⟨?_, by simp, ?_⟩
          · simp only [writeVarintLoop, same, if_neg done, masked]
            simp
          · intro later
            simpa [later] using canonical
      · -- A byte with the continuation bit holds the low part, the rest the high part.
        rename_i more
        have large : 128 ≤ byte.toNat := by
          have := (and_continuation_eq_zero byte).not.mp more
          omega
        split at found
        · rename_i high count inner
          simp only [VarintPrefix.found.injEq] at found
          obtain ⟨rfl, rfl⟩ := found
          obtain ⟨written, within, positive⟩ := ih inner
          have nonzero := positive rfl
          have shifted : ((byte &&& 0x7F).toNat + 128 * high) >>> 7 = high := by
            rw [Nat.shiftRight_eq_div_pow]
            omega
          have masked : ((byte &&& 0x7F).toNat + 128 * high) &&& 127 = byte.toNat % 128 := by
            rw [show (127 : Nat) = 2 ^ 7 - 1 from rfl, Nat.and_two_pow_sub_one_eq_mod]
            omega
          have restored : UInt8.ofNat (byte.toNat % 128) ||| 0x80 = byte := by
            apply UInt8.toNat_inj.mp
            rw [toNat_or_continuation (Nat.mod_lt _ (by decide))]
            omega
          refine ⟨?_, by simpa using within, fun _ => by omega⟩
          simp only [writeVarintLoop, shifted, if_pos nonzero, masked, restored, written]
          simp
        · rename_i other
          exact absurd found (other _ _)

/-- The writer's encoding is found in front of any bytes. -/
theorem found_of_writeVarintLoop {slots : Nat} {first : Bool} {encoded rest : Bytes}
    (written : writeVarintLoop slots value = some encoded) (positive : first = false → value ≠ 0) :
    varintPrefix slots first (encoded ++ rest) = .found value encoded.length := by
  induction slots generalizing first value encoded with
  | zero => simp [writeVarintLoop] at written
  | succ slots ih =>
    -- The mask takes the lowest group of the value.
    have masked : value &&& 127 = value % 128 := Nat.and_two_pow_sub_one_eq_mod value 7
    have below : value % 128 < 128 := Nat.mod_lt _ (by decide)
    simp only [writeVarintLoop, Nat.shiftRight_eq_div_pow, masked] at written
    split at written
    · rename_i more
      obtain ⟨tail, inner, rfl⟩ := Option.map_eq_some_iff.mp written
      have byte := toNat_or_continuation below
      have continues : ¬ ((UInt8.ofNat (value % 128) ||| 0x80) &&& 0x80 = 0) := by
        rw [and_continuation_eq_zero]
        omega
      simp only [List.cons_append, varintPrefix, if_neg continues, ih inner (fun _ => more),
        toNat_and_data, byte, List.length_cons, VarintPrefix.found.injEq, and_true]
      omega
    · rename_i last
      cases written
      have byte : (UInt8.ofNat (value % 128)).toNat = value % 128 := by
        exact UInt8.toNat_ofNat_of_lt' (Nat.lt_trans below (by decide))
      have stops : UInt8.ofNat (value % 128) &&& 0x80 = 0 := by
        rw [and_continuation_eq_zero]
        omega
      -- A last group of zero behind other groups is never written.
      have canonical : ¬ ((!first) = true ∧ (UInt8.ofNat (value % 128) &&& 0x7F).toNat = 0) := by
        rintro ⟨later, zero⟩
        rw [toNat_and_data, byte] at zero
        exact positive (by simpa using later) (by omega)
      simp only [List.cons_append, varintPrefix, if_pos stops, if_neg canonical]
      simp only [toNat_and_data, byte, VarintPrefix.found.injEq, List.length_singleton, and_true]
      omega

theorem or_group {value part index : Nat} (small : value < 128 ^ index) :
    value ||| (part <<< (index * 7)) = value + 128 ^ index * part := by
  have power : (2 : Nat) ^ (index * 7) = 128 ^ index := by
    rw [Nat.mul_comm, Nat.pow_mul]
  rw [Nat.or_comm, ← Nat.shiftLeft_add_eq_or_of_lt (power ▸ small), Nat.shiftLeft_eq, power,
    Nat.mul_comm part, Nat.add_comm]

theorem probeByte_of_none {len : Nat} (past : bytes[len]? = none) :
    probeByte bytes len = .error .incomplete len := by
  simp [probeByte, past]

theorem probeByte_of_some {len : Nat} {byte : UInt8}
    (here : bytes[len]? = some byte) : probeByte bytes len = .ok byte (len + 1) := by
  simp [probeByte, here]

/-- How a read of the remaining bytes ends, in terms of what they start with. -/
def VarintPrefix.Matches (index value len : Nat) :
    VarintPrefix → EStateM.Result ProbeError Nat Nat → Prop
  | .found high count, .ok read stop => read = value + 128 ^ index * high ∧ stop = len + count
  | .incomplete, .error .incomplete _ => True
  | .invalid, .error .invalid _ => True
  | _, _ => False

/-- The incremental reader follows the bytes behind its position. -/
theorem readVarintLoop_matches (bytes : Bytes) {remaining index value len : Nat}
    (budget : remaining + index = mqttVarintMaxBytes) (small : value < 128 ^ index) :
    (varintPrefix remaining (index == 0) (bytes.drop len)).Matches index value len
      (readVarintLoop (probeByte bytes) .invalid remaining index value len) := by
  induction remaining generalizing index value len with
  | zero => exact trivial
  | succ remaining ih =>
    cases next : bytes.drop len with
    | nil =>
      have past : bytes[len]? = none := by
        rw [List.getElem?_eq_none_iff]
        exact List.drop_eq_nil_iff.mp next
      simp [varintPrefix, readVarintLoop, VarintPrefix.Matches, probeByte_of_none past, bind,
        EStateM.bind]
    | cons byte rest =>
      have here : bytes[len]? = some byte := by
        rw [← List.head?_drop, next]
        rfl
      have behind : bytes.drop (len + 1) = rest := by
        rw [← List.drop_drop, next]
        rfl
      have part := toNat_and_data byte
      -- Four groups of seven bits never exceed the limit.
      have fits : value + 128 ^ index * (byte &&& 0x7F).toNat < 128 ^ (index + 1) := by
        have : 128 ^ index * (byte &&& 0x7F).toNat ≤ 128 ^ index * 127 :=
          Nat.mul_le_mul_left _ (by omega)
        rw [Nat.pow_succ]
        omega
      have limit : ¬ (value + 128 ^ index * (byte &&& 0x7F).toNat > mqttVarintMax) := by
        have : 128 ^ (index + 1) ≤ 128 ^ 4 :=
          Nat.pow_le_pow_right (by decide) (by simp only [mqttVarintMaxBytes] at budget; omega)
        simp only [mqttVarintMax]
        omega
      have shift : (index * 7 ≠ 0) = ((!index == 0) = true) := by
        cases index <;> simp
      simp only [varintPrefix, readVarintLoop, probeByte_of_some here, bind, EStateM.bind,
        or_group small, if_neg limit, shift]
      by_cases last : byte &&& 0x80 = 0
      · simp only [if_pos last]
        by_cases overlong : (!index == 0) = true ∧ (byte &&& 0x7F).toNat = 0
        · simp only [if_pos overlong]
          exact trivial
        · simp only [if_neg overlong]
          exact ⟨rfl, rfl⟩
      · simp only [if_neg last]
        have inner := @ih (index + 1) _ (len + 1)
          (by simp only [mqttVarintMaxBytes] at budget ⊢; omega) fits
        have later : (index + 1 == 0) = false := by simp
        rw [behind, later] at inner
        generalize readVarintLoop (probeByte bytes) .invalid remaining (index + 1)
          (value + 128 ^ index * (byte &&& 0x7F).toNat) (len + 1) = result at inner ⊢
        cases result with
        | error error stop =>
          revert inner
          cases varintPrefix remaining false rest <;> cases error <;> exact id
        | ok read stop =>
          cases rested : varintPrefix remaining false rest with
          | incomplete => rw [rested] at inner; exact inner
          | invalid => rw [rested] at inner; exact inner
          | found high count =>
            rw [rested] at inner
            obtain ⟨rfl, rfl⟩ := inner
            refine ⟨?_, by omega⟩
            rw [Nat.pow_succ]
            ring

theorem probeMqttU32Varint_eq (bytes : Bytes) :
    probeMqttU32Varint bytes = match varintPrefix mqttVarintMaxBytes true bytes with
      | .found value len => .ok (some (value, len))
      | .incomplete => .ok none
      | .invalid => .error () := by
  have matched := @readVarintLoop_matches bytes mqttVarintMaxBytes 0 0 0 rfl (by decide)
  rw [List.drop_zero, show ((0 : Nat) == 0) = true from rfl] at matched
  unfold probeMqttU32Varint readMqttU32Varint EStateM.run
  -- The loop of the reader agrees with the prefix, so the results match one by one.
  revert matched
  cases varintPrefix mqttVarintMaxBytes true bytes with
  | incomplete =>
    cases readVarintLoop (probeByte bytes) .invalid mqttVarintMaxBytes 0 0 0 with
    | ok => exact False.elim
    | error error => cases error <;> simp [VarintPrefix.Matches]
  | invalid =>
    cases readVarintLoop (probeByte bytes) .invalid mqttVarintMaxBytes 0 0 0 with
    | ok => exact False.elim
    | error error => cases error <;> simp [VarintPrefix.Matches]
  | found value len =>
    cases readVarintLoop (probeByte bytes) .invalid mqttVarintMaxBytes 0 0 0 with
    | error error => cases error <;> exact False.elim
    | ok read stop => simp [VarintPrefix.Matches]

end Minimq
