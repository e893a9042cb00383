import Minimq.Proofs.Codec.Fields
import Minimq.Staging.Service

/-! Variable byte integers have one encoding, and all their readers and measures agree on it. -/

namespace Minimq

open Hoare Grammar

section Sequence

variable {ε : Type}

/-- Take the next byte of a sequence. -/
def nextByte (missing : ε) : EStateM ε Bytes UInt8 := do
  match ← get with
  | [] => throw missing
  | byte :: rest =>
    set rest
    return byte

/-- A sequence is read byte by byte. -/
theorem nextByte_reads (missing : ε) :
    Reads id (fun _ => True) (nextByte missing) (code fun byte => some [byte]) where
  -- The first byte is the one read, in both directions.
  sound {bytes byte rest} _ read := by
    cases bytes with
    | nil => cases read
    | cons first tail =>
      cases read
      exact ⟨code_total.mpr rfl, trivial⟩
  complete {bytes byte rest} _ accepted := by
    have split : bytes = [byte] ++ rest := code_total.mp accepted
    subst split
    exact ⟨rest, rfl, rfl⟩

/-- The reader takes this value from the front of a sequence, and so many bytes. -/
def Consumes (missing invalid : ε) (bytes : Bytes) (value len : Nat) : Prop :=
  len ≤ bytes.length ∧
    readMqttU32Varint (nextByte missing) invalid bytes = .ok value (bytes.drop len)

/-- The reader takes exactly what the writer produces. -/
theorem consumes_iff {missing invalid : ε} {bytes : Bytes} {value len : Nat} :
    Consumes missing invalid bytes value len ↔
      len ≤ bytes.length ∧ writeMqttU32Varint value = some (bytes.take len) := by
  have reads := readMqttU32Varint_reads (nextByte_reads missing) invalid
  constructor
  · intro ⟨within, read⟩
    obtain ⟨⟨field, written, split⟩, -⟩ := reads.sound trivial read
    -- What is left determines what was taken.
    have front : bytes.take len = field := by
      have whole := (List.take_append_drop len bytes).trans split
      exact List.append_cancel_right whole
    exact ⟨within, front ▸ written⟩
  · intro ⟨within, written⟩
    obtain ⟨rest, read, left⟩ := reads.complete (s := bytes) trivial
      ⟨_, written, (List.take_append_drop len bytes).symm⟩
    have left : rest = bytes.drop len := left
    exact ⟨within, left ▸ read⟩

/-- The reader takes what is in front of the sequence. -/
theorem consumes_iff_found {missing invalid : ε} {bytes : Bytes} {value len : Nat} :
    Consumes missing invalid bytes value len ↔
      varintPrefix mqttVarintMaxBytes true bytes = .found value len := by
  rw [consumes_iff, varintPrefix_eq_found]
  -- What is consumed is what the writer would have produced.
  constructor
  · intro ⟨within, written⟩
    refine ⟨bytes.take len, written, List.take_prefix _ _, ?_⟩
    rw [List.length_take]
    omega
  · intro ⟨field, written, here, size⟩
    subst size
    exact ⟨here.length_le, by rw [← List.prefix_iff_eq_take.mp here]; exact written⟩

end Sequence

section Shortest

/--
The number that bytes spell in groups of seven bits, lowest first.

All of them but the last have the continuation bit; a group may be zero anywhere.
-/
def groupsValue : Bytes → Option Nat
  | [] => none
  | byte :: rest =>
    let part := (byte &&& 0x7F).toNat
    if byte &&& 0x80 = 0 then if rest = [] then some part else none
    else (groupsValue rest).map (part + 128 * ·)

/-- Nothing else spells a number in as few bytes as the writer does. -/
theorem writeVarintLoop_shortest {slots value : Nat} {field other : Bytes}
    (written : writeVarintLoop slots value = some field) (spelled : groupsValue other = some value) :
    field.length ≤ other.length ∧ (field.length = other.length → field = other) := by
  -- One group of seven bits is taken from both spellings at a time.
  induction slots generalizing value field other with
  | zero => simp [writeVarintLoop] at written
  | succ slots ih =>
    cases other with
    | nil => simp [groupsValue] at spelled
    | cons byte rest =>
      have part := toNat_and_data byte
      have bound := byte.toNat_lt
      have masked : value &&& 127 = value % 128 := Nat.and_two_pow_sub_one_eq_mod value 7
      simp only [writeVarintLoop, Nat.shiftRight_eq_div_pow, masked] at written
      simp only [groupsValue] at spelled
      by_cases last : byte &&& 0x80 = 0
      · -- The other spelling has one byte, so the number is small.
        have small := (and_continuation_eq_zero byte).mp last
        rw [if_pos last] at spelled
        split at spelled
        · rename_i alone
          cases spelled
          rw [if_neg (by omega)] at written
          cases written
          subst alone
          refine ⟨Nat.le_refl _, fun _ => ?_⟩
          rw [part, Nat.mod_mod, Nat.mod_eq_of_lt small, UInt8.ofNat_toNat]
        · cases spelled
      · have large : 128 ≤ byte.toNat := by
          have := (and_continuation_eq_zero byte).not.mp last
          omega
        rw [if_neg last] at spelled
        obtain ⟨high, inner, rfl⟩ := Option.map_eq_some_iff.mp spelled
        have shifted : ((byte &&& 0x7F).toNat + 128 * high) / 2 ^ 7 = high := by omega
        rw [shifted] at written
        split at written
        · obtain ⟨tail, deeper, rfl⟩ := Option.map_eq_some_iff.mp written
          obtain ⟨shorter, same⟩ := ih deeper inner
          simp only [List.length_cons]
          refine ⟨by omega, fun equal => ?_⟩
          rw [same (by omega)]
          -- The low groups are the same, and both bytes have the continuation bit.
          congr 1
          apply UInt8.toNat_inj.mp
          rw [toNat_or_continuation (Nat.mod_lt _ (by decide))]
          omega
        · -- The rest spells zero, which takes at least one byte.
          cases written
          cases rest with
          | nil => simp [groupsValue] at inner
          | cons next rest => exact ⟨by simp, fun equal => by simp at equal⟩

/-- What the writer produces spells the number. -/
theorem groupsValue_of_writeVarintLoop {slots value : Nat} {field : Bytes}
    (written : writeVarintLoop slots value = some field) : groupsValue field = some value := by
  induction slots generalizing value field with
  | zero => simp [writeVarintLoop] at written
  | succ slots ih =>
    have masked : value &&& 127 = value % 128 := Nat.and_two_pow_sub_one_eq_mod value 7
    have below : value % 128 < 128 := Nat.mod_lt _ (by decide)
    simp only [writeVarintLoop, Nat.shiftRight_eq_div_pow, masked] at written
    -- A group that is not the last one has the continuation bit set.
    split at written
    · obtain ⟨tail, inner, rfl⟩ := Option.map_eq_some_iff.mp written
      have byte := toNat_or_continuation below
      have continues : ¬ ((UInt8.ofNat (value % 128) ||| 0x80) &&& 0x80 = 0) := by
        rw [and_continuation_eq_zero]
        omega
      simp only [groupsValue, if_neg continues, ih inner, Option.map_some, toNat_and_data, byte,
        Option.some.injEq]
      omega
    · cases written
      have byte : (UInt8.ofNat (value % 128)).toNat = value % 128 :=
        UInt8.toNat_ofNat_of_lt' (Nat.lt_trans below (by decide))
      have stops : UInt8.ofNat (value % 128) &&& 0x80 = 0 := by
        rw [and_continuation_eq_zero]
        omega
      simp only [groupsValue, if_pos stops, if_true, toNat_and_data, byte, Option.some.injEq]
      omega

end Shortest

namespace Staging

/-- Counting divisions counts the groups of seven bits. -/
theorem mqttVarintLenLoop_eq {slots fuel value len : Nat} {encoded : Bytes}
    (written : writeVarintLoop slots value = some encoded) (enough : value ≤ fuel) :
    mqttVarintLenLoop fuel value (len + 1) = len + encoded.length := by
  -- Each round of either loop removes one group.
  induction slots generalizing fuel value len encoded with
  | zero => simp [writeVarintLoop] at written
  | succ slots ih =>
    simp only [writeVarintLoop, Nat.shiftRight_eq_div_pow] at written
    cases fuel with
    | zero =>
      obtain rfl : value = 0 := by omega
      cases written
      rfl
    | succ fuel =>
      rw [mqttVarintLenLoop]
      split at written
      · rename_i more
        obtain ⟨tail, inner, rfl⟩ := Option.map_eq_some_iff.mp written
        rw [if_neg (by omega), ih inner (by omega), List.length_cons]
        omega
      · rename_i last
        cases written
        rw [if_pos (by omega), List.length_singleton]

/-- The length that staging computes is the length of the encoding. -/
theorem mqttVarintLen_eq {value : Nat} {encoded : Bytes}
    (written : writeMqttU32Varint value = some encoded) :
    mqttVarintLen value = encoded.length := by
  unfold writeMqttU32Varint at written
  split at written
  · cases written
  · have counted := @mqttVarintLenLoop_eq _ value value 0 _ written (Nat.le_refl _)
    rw [Nat.zero_add, Nat.zero_add] at counted
    exact counted

end Staging

/--
Variable byte integers are canonical, and all their readers and measures agree.

The reader takes from a sequence exactly what the writer produces, which is the only shortest
spelling of the number. Probing finds the same, asks for more bytes exactly while some accepted
encoding is longer, and fails exactly if none is in reach. Both computed lengths are the real one.
-/
theorem varint_canonical {ε : Type} (missing invalid : ε) :
    (∀ bytes value len, Consumes missing invalid bytes value len ↔
      len ≤ bytes.length ∧ writeMqttU32Varint value = some (bytes.take len)) ∧
    (∀ value, (∃ field, writeMqttU32Varint value = some field) ↔ value ≤ mqttVarintMax) ∧
    (∀ value field, writeMqttU32Varint value = some field →
      groupsValue field = some value ∧ ∀ other, groupsValue other = some value →
        field.length ≤ other.length ∧ (field.length = other.length → field = other)) ∧
    (∀ bytes value len, probeMqttU32Varint bytes = .ok (some (value, len)) ↔
      Consumes missing invalid bytes value len) ∧
    (∀ bytes, probeMqttU32Varint bytes = .ok none ↔
      ∃ more value, more ≠ [] ∧
        Consumes missing invalid (bytes ++ more) value (bytes ++ more).length) ∧
    (∀ bytes, probeMqttU32Varint bytes = .error () ↔
      ∀ more value len, ¬ Consumes missing invalid (bytes ++ more) value len) ∧
    (∀ value field, writeMqttU32Varint value = some field →
      encodedLen value = field.length ∧ Staging.mqttVarintLen value = field.length) := by
  refine ⟨fun bytes value len => consumes_iff, fun value => ?_, fun value field written => ?_,
    fun bytes value len => ?_, fun bytes => ?_, fun bytes => ?_, fun value field written => ?_⟩
  · rw [← Option.isSome_iff_exists, Option.isSome_iff_ne_none, ne_eq, writeMqttU32Varint_eq_none]
    omega
  · unfold writeMqttU32Varint at written
    split at written
    · cases written
    · exact ⟨groupsValue_of_writeVarintLoop written,
        fun other spelled => writeVarintLoop_shortest written spelled⟩
  · rw [probeMqttU32Varint_eq, consumes_iff_found]
    cases varintPrefix mqttVarintMaxBytes true bytes <;> simp
  · rw [probeMqttU32Varint_eq]
    constructor
    · intro pending
      have incomplete : varintPrefix mqttVarintMaxBytes true bytes = .incomplete := by
        cases seen : varintPrefix mqttVarintMaxBytes true bytes <;> simp [seen] at pending ⊢
      -- One more byte completes the integer.
      obtain ⟨value, len, found⟩ := varintPrefix_completable incomplete
      have beyond := varintPrefix_append_incomplete incomplete found
      have within := (writeVarintLoop_of_found found).2.1
      have exactly : len = (bytes ++ [1]).length := by
        simp only [List.length_append, List.length_singleton] at within ⊢
        omega
      exact ⟨[1], value, by simp, consumes_iff_found.mpr (exactly ▸ found)⟩
    · intro ⟨more, value, nonempty, consumes⟩
      have found := consumes_iff_found.mp consumes
      have longer : bytes.length < (bytes ++ more).length := by
        rw [List.length_append]
        have := List.length_pos_of_ne_nil nonempty
        omega
      cases seen : varintPrefix mqttVarintMaxBytes true bytes with
      | incomplete => rfl
      | invalid =>
        rw [varintPrefix_append_invalid seen] at found
        cases found
      | found other len =>
        -- An integer that was complete before does not take more bytes now.
        have within := (writeVarintLoop_of_found seen).2.1
        rw [varintPrefix_append_found seen] at found
        cases found
        omega
  · rw [probeMqttU32Varint_eq]
    have hopeless : (∀ more value len, ¬ Consumes missing invalid (bytes ++ more) value len) ↔
        varintPrefix mqttVarintMaxBytes true bytes = .invalid := by
      rw [varintPrefix_eq_invalid]
      constructor
      · intro never more value field written here
        exact never more value field.length
          (consumes_iff_found.mpr (varintPrefix_eq_found.mpr ⟨field, written, here, rfl⟩))
      · intro never more value len consumes
        obtain ⟨field, written, here, -⟩ := varintPrefix_eq_found.mp (consumes_iff_found.mp consumes)
        exact never more value field written here
    rw [hopeless]
    cases varintPrefix mqttVarintMaxBytes true bytes <;> simp
  · exact ⟨encodedLen_eq written, Staging.mqttVarintLen_eq written⟩

end Minimq
