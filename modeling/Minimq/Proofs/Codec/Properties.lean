import Minimq.Proofs.Codec.Bounds

/-! Property blocks and lists of properties determine each other. -/

namespace Minimq

open Hoare Grammar

variable {list : List Property}

namespace Deserializer

/-- The bytes of a property's value. -/
def valueCode (property : Property) : Option Bytes := tokenBytes property.valueTokens

/-- A property whose value is a single field. -/
theorem built_accepts {α : Type} {reader : Read α} {encode : α → Option Bytes}
    {build : α → Property} (field : Accepts (· = none) reader (code encode))
    (same : ∀ value, valueCode (build value) = encode value) :
    Accepts (· = none) (do return build (← reader)) fun input property rest =>
      ∃ value, property = build value ∧ code valueCode input property rest := by
  refine (field.bind fun value => Reads.pure (build value)).congr fun input property rest => ?_
  rw [seq_unit]
  refine exists_congr fun value => and_congr_right ?_
  rintro rfl
  simp only [code, same]

theorem byte_accepts {build : UInt8 → Property}
    (plain : ∀ value, (build value).valueTokens = [.push [value]]) :
    Accepts (· = none) (do return build (← pop)) fun input property rest =>
      ∃ value, property = build value ∧ code valueCode input property rest :=
  built_accepts pop_accepts fun value => by rw [valueCode, plain, tokenBytes_push]

theorem short_accepts {build : UInt16 → Property}
    (plain : ∀ value, (build value).valueTokens = [.push (u16Bytes value)]) :
    Accepts (· = none) (do return build (← readU16)) fun input property rest =>
      ∃ value, property = build value ∧ code valueCode input property rest :=
  built_accepts readU16_accepts fun value => by rw [valueCode, plain, tokenBytes_push]

theorem long_accepts {build : UInt32 → Property}
    (plain : ∀ value, (build value).valueTokens = [.push (u32Bytes value)]) :
    Accepts (· = none) (do return build (← readU32)) fun input property rest =>
      ∃ value, property = build value ∧ code valueCode input property rest :=
  built_accepts readU32_accepts fun value => by rw [valueCode, plain, tokenBytes_push]

theorem text_accepts {build : Utf8 → Property}
    (plain : ∀ value, (build value).valueTokens = utf8Tokens value) :
    Accepts (· = none) (do return build (← str)) fun input property rest =>
      ∃ value, property = build value ∧ code valueCode input property rest :=
  built_accepts str_accepts fun value => by rw [valueCode, plain]

theorem data_accepts {build : Bytes → Property}
    (plain : ∀ value, (build value).valueTokens = binaryTokens value) :
    Accepts (· = none) (do return build (← bytes)) fun input property rest =>
      ∃ value, property = build value ∧ code valueCode input property rest :=
  built_accepts bytes_accepts fun value => by rw [valueCode, plain]

/-- A property whose value is two strings. -/
theorem userProperty_accepts :
    Accepts (· = none) (do
      let key ← str
      return Property.userProperty key (← str)) fun input property rest =>
        ∃ key value, property = .userProperty key value ∧ code valueCode input property rest := by
  have text := str_accepts (P := (· = none))
  refine (text.bind fun key => text.bind fun value =>
    Reads.pure (Property.userProperty key value)).congr fun input property rest => ?_
  -- The two strings are one behind the other.
  constructor
  · rintro ⟨key, middle, ⟨front, first, rfl⟩, pair⟩
    obtain ⟨value, rfl, back, second, rfl⟩ := seq_unit.mp pair
    refine ⟨key, value, rfl, front ++ back, ?_, by rw [List.append_assoc]⟩
    simp [valueCode, Property.valueTokens, tokenBytes_append, first, second]
  · rintro ⟨key, value, rfl, symbols, whole, rfl⟩
    simp only [valueCode, Property.valueTokens, tokenBytes_append, Option.bind_eq_some_iff,
      Option.map_eq_some_iff] at whole
    obtain ⟨front, first, back, second, rfl⟩ := whole
    exact ⟨key, back ++ rest, ⟨front, first, by rw [List.append_assoc]⟩,
      seq_unit.mpr ⟨value, rfl, back, second, rfl⟩⟩

/-- A subscription identifier is read back from its bytes. -/
theorem subscriptionIdentifier_accepts :
    Accepts (· = none) (do return Property.subscriptionIdentifier (UInt32.ofNat (← varint)))
      fun input property rest => ∃ value, property = .subscriptionIdentifier value ∧
        code valueCode input property rest := by
  have number := varint_accepts (P := (· = none))
  refine (number.bind fun value =>
    Reads.pure (Property.subscriptionIdentifier (UInt32.ofNat value))).congr
      fun input property rest => ?_
  rw [seq_unit]
  constructor
  · rintro ⟨value, rfl, symbols, written, rfl⟩
    -- What was read was written, so it is a number the protocol has.
    have small : value ≤ mqttVarintMax := by
      by_contra large
      rw [writeMqttU32Varint_eq_none.mpr (by omega)] at written
      cases written
    refine ⟨_, rfl, symbols, ?_, rfl⟩
    rw [valueCode, Property.valueTokens, tokenBytes_varintTokens, UInt32.toNat_ofNat_of_lt']
    · exact written
    · simp only [mqttVarintMax] at small
      exact Nat.lt_of_le_of_lt small (by decide)
  · rintro ⟨value, rfl, symbols, written, rfl⟩
    rw [valueCode, Property.valueTokens, tokenBytes_varintTokens] at written
    exact ⟨value.toNat, by rw [UInt32.ofNat_toNat], symbols, written, rfl⟩

/-- The value behind an identifier is a value of the property it stands for. -/
theorem propertyValue_accepts (identifier : Nat) :
    Accepts (· = none) (propertyValue identifier) fun input property rest =>
      property.identifier = identifier ∧ code valueCode input property rest where
  sound {s property s'} idle read := by
    unfold propertyValue at read
    split at read
    -- An unknown identifier is refused; every other one is followed by one of seven kinds of value.
    case h_28 => cases read
    all_goals first
      | obtain ⟨⟨_, rfl, accepted⟩, idle⟩ := (byte_accepts fun _ => rfl).sound idle read
        exact ⟨⟨rfl, accepted⟩, idle⟩
      | obtain ⟨⟨_, rfl, accepted⟩, idle⟩ := (short_accepts fun _ => rfl).sound idle read
        exact ⟨⟨rfl, accepted⟩, idle⟩
      | obtain ⟨⟨_, rfl, accepted⟩, idle⟩ := (long_accepts fun _ => rfl).sound idle read
        exact ⟨⟨rfl, accepted⟩, idle⟩
      | obtain ⟨⟨_, rfl, accepted⟩, idle⟩ := (text_accepts fun _ => rfl).sound idle read
        exact ⟨⟨rfl, accepted⟩, idle⟩
      | obtain ⟨⟨_, rfl, accepted⟩, idle⟩ := (data_accepts fun _ => rfl).sound idle read
        exact ⟨⟨rfl, accepted⟩, idle⟩
      | obtain ⟨⟨_, rfl, accepted⟩, idle⟩ := subscriptionIdentifier_accepts.sound idle read
        exact ⟨⟨rfl, accepted⟩, idle⟩
      | obtain ⟨⟨_, _, rfl, accepted⟩, idle⟩ := userProperty_accepts.sound idle read
        exact ⟨⟨rfl, accepted⟩, idle⟩
  complete {s property rest} idle := by
    rintro ⟨rfl, accepted⟩
    cases property with
    | subscriptionIdentifier value =>
      exact subscriptionIdentifier_accepts.complete idle ⟨value, rfl, accepted⟩
    | userProperty key value =>
      exact userProperty_accepts.complete idle ⟨key, value, rfl, accepted⟩
    | _ value =>
      first
      | exact (byte_accepts fun _ => rfl).complete idle ⟨value, rfl, accepted⟩
      | exact (short_accepts fun _ => rfl).complete idle ⟨value, rfl, accepted⟩
      | exact (long_accepts fun _ => rfl).complete idle ⟨value, rfl, accepted⟩
      | exact (text_accepts fun _ => rfl).complete idle ⟨value, rfl, accepted⟩
      | exact (data_accepts fun _ => rfl).complete idle ⟨value, rfl, accepted⟩

/-- A property is read as exactly the bytes it is written as. -/
theorem property_accepts :
    Accepts (· = none) property (code fun property => tokenBytes property.tokens) := by
  have number := readVarint_accepts (P := (· = none))
  refine (number.bind propertyValue_accepts).congr fun input property rest => ?_
  -- The identifier determines the kind of value that follows.
  constructor
  · rintro ⟨identifier, middle, ⟨front, first, rfl⟩, rfl, back, second, rfl⟩
    refine ⟨front ++ back, ?_, by rw [List.append_assoc]⟩
    show tokenBytes property.tokens = _
    rw [valueCode] at second
    rw [Property.tokens, tokenBytes_append, tokenBytes_varintTokens, first, second]
    rfl
  · rintro ⟨symbols, whole, rfl⟩
    simp only [Property.tokens, tokenBytes_append, tokenBytes_varintTokens,
      Option.bind_eq_some_iff, Option.map_eq_some_iff] at whole
    obtain ⟨front, first, back, second, rfl⟩ := whole
    exact ⟨_, back ++ rest, ⟨front, first, by rw [List.append_assoc]⟩, rfl, back, second, rfl⟩

end Deserializer

namespace Property

/-- Whether all parts of a property are within the limits of their encodings. -/
def Encodable : Property → Prop
  | .contentType text | .responseTopic text | .assignedClientIdentifier text
  | .authenticationMethod text | .responseInformation text | .serverReference text
  | .reasonString text => text.len ≤ 65535
  | .userProperty key value => key.len ≤ 65535 ∧ value.len ≤ 65535
  | .correlationData data | .authenticationData data => data.length ≤ 65535
  | .subscriptionIdentifier value => value.toNat ≤ mqttVarintMax
  | _ => True

theorem identifier_le (property : Property) : property.identifier ≤ mqttVarintMax := by
  cases property <;> simp [identifier, mqttVarintMax]

/-- The computed size of a property is the number of its bytes. -/
theorem tokensLength_tokens {property : Property} (encodable : property.Encodable) :
    tokensLength property.tokens = some property.size := by
  -- The identifier takes its own bytes, and the rest depends on the property.
  suffices value : ∃ len, tokensLength property.valueTokens = some len ∧
      property.size = len + encodedLen property.identifier by
    obtain ⟨len, fields, size⟩ := value
    rw [tokens, tokensLength_append, tokensLength_varint property.identifier_le, fields, size,
      Nat.add_comm len]
    rfl
  cases property with
  | userProperty key value =>
    refine ⟨(2 + key.len) + (2 + value.len), ?_, ?_⟩
    · rw [valueTokens, tokensLength_append, tokensLength_utf8 encodable.1,
        tokensLength_utf8 encodable.2]
      rfl
    · simp only [size]
      omega
  | subscriptionIdentifier value => exact ⟨_, tokensLength_varint encodable, rfl⟩
  | _ value =>
    first
    | exact ⟨_, rfl, rfl⟩
    | exact ⟨_, tokensLength_utf8 encodable, by simp only [size]; omega⟩
    | exact ⟨_, tokensLength_binary encodable, by simp only [size]; omega⟩

end Property

/-- Fields whose bytes are written into any buffer with room for them. -/
def Writes (tokens : List Token) (bytes : Bytes) : Prop :=
  ∀ serializer : Serializer, serializer.index + bytes.length ≤ serializer.buf.length →
    Serializer.pushTokens tokens serializer =
      .ok () ⟨Arena.overwrite serializer.buf serializer.index bytes,
        serializer.index + bytes.length⟩

/-- The bytes of fields are what the serializer writes. -/
theorem writes_of_tokenBytes {tokens : List Token} {bytes : Bytes}
    (encoded : tokenBytes tokens = some bytes) : Writes tokens bytes := by
  intro serializer room
  have pushed := Serializer.pushTokens_pushed tokens serializer
  revert pushed
  -- Writing fails only for want of room.
  cases Serializer.pushTokens tokens serializer with
  | error error after =>
    rintro ⟨-, short⟩
    have := short bytes encoded
    omega
  | ok value after =>
    rintro ⟨other, same, -, rfl⟩
    rw [encoded] at same
    cases same
    rfl

namespace Properties

/-- The bytes of a list of properties. -/
def listBytes (list : List Property) : Option Bytes := tokenBytes (list.flatMap Property.tokens)

theorem listBytes_cons (property : Property) (list : List Property) :
    listBytes (property :: list) =
      (tokenBytes property.tokens).bind fun first => (listBytes list).map (first ++ ·) := by
  rw [listBytes, List.flatMap_cons, tokenBytes_append]
  rfl

/-- The computed size of a list is the number of its bytes. -/
theorem listBytes_length (encodable : ∀ property ∈ list, property.Encodable) :
    ∃ block, listBytes list = some block ∧ (Properties.slice list).size = block.length := by
  -- Sizes and bytes are added up in the same order.
  induction list with
  | nil => exact ⟨[], rfl, rfl⟩
  | cons property list ih =>
    obtain ⟨block, rest, size⟩ := ih fun other member => encodable other (.tail _ member)
    have own := Property.tokensLength_tokens (encodable property (.head _))
    obtain ⟨bytes, encoded, length⟩ := Option.map_eq_some_iff.mp own
    refine ⟨bytes ++ block, ?_, ?_⟩
    · rw [listBytes_cons, encoded, rest]
      rfl
    · simp only [Properties.size, List.map_cons, List.sum_cons] at size ⊢
      rw [size, List.length_append, length]

theorem tokenBytes_ne_nil {property : Property} {bytes : Bytes}
    (encoded : tokenBytes property.tokens = some bytes) : bytes ≠ [] := by
  rintro rfl
  rw [Property.tokens, tokenBytes_append, tokenBytes_varintTokens] at encoded
  simp only [Option.bind_eq_some_iff, Option.map_eq_some_iff, List.append_eq_nil_iff] at encoded
  obtain ⟨front, written, back, -, rfl, -⟩ := encoded
  exact absurd (writeMqttU32Varint_length written).1 (by simp)

/-- The iterator hands out a property exactly if its bytes come first. -/
theorem next_eq_ok {block rest : Bytes} {property : Property} :
    next block = some (.ok property, rest) ↔
      ∃ bytes, tokenBytes property.tokens = some bytes ∧ block = bytes ++ rest := by
  have reads := Deserializer.property_accepts.eq_of_grammar (.new block) rfl property rest
  have whole : (Deserializer.new block).remainder = block := rfl
  rw [whole] at reads
  refine Iff.trans ?_ reads
  -- At the end of the block there is no property, and otherwise one is tried.
  cases block with
  | nil =>
    refine ⟨fun none => by simp [next] at none, fun taken => ?_⟩
    obtain ⟨bytes, encoded, same⟩ := reads.mp taken
    exact absurd (List.append_eq_nil_iff.mp same.symm).1 (tokenBytes_ne_nil encoded)
  | cons byte block =>
    simp only [next, EStateM.run]
    cases Deserializer.property (.new (byte :: block)) with
    | ok found after => simp
    | error error after => simp

/-- The iterator takes at least one byte. -/
theorem length_of_next {block rest : Bytes} {item : Except PeerError Property}
    (taken : next block = some (item, rest)) : rest.length < block.length := by
  cases block with
  | nil => simp [next] at taken
  | cons byte block =>
    have advances := Deserializer.property_advances byte block
    -- Whatever happens, the first byte is taken.
    have shorter {after : Deserializer} (between : after.Between (byte :: block) 1) :
        after.remainder.length < (byte :: block).length := by
      have := between.past
      rw [Deserializer.length_remainder, Deserializer.len, between.slice, List.length_cons]
      omega
    unfold wp at advances
    simp only [next, EStateM.run] at taken
    split at taken <;>
    · rename_i found
      rw [found] at advances
      cases taken
      exact shorter advances

/-- The items an iterator hands out before it ends. -/
inductive Iterates : Bytes → List (Except PeerError Property) → Prop
  | ended {block} (none : next block = none) : Iterates block []
  | item {block item rest items} (taken : next block = some (item, rest))
      (others : Iterates rest items) : Iterates block (item :: items)

/-- Decoding with enough fuel is iterating to the end. -/
theorem iterates_decodeBlock {fuel : Nat} {block : Bytes} (enough : block.length ≤ fuel) :
    Iterates block (decodeBlock fuel block) := by
  -- Every item takes a byte, so the fuel lasts to the end of the block.
  induction fuel generalizing block with
  | zero =>
    rw [List.length_eq_zero_iff.mp (Nat.le_zero.mp enough)]
    exact .ended rfl
  | succ fuel ih =>
    cases block with
    | nil => exact .ended rfl
    | cons byte block =>
      have step (item : Except PeerError Property) (rest : Bytes)
          (taken : next (byte :: block) = some (item, rest)) :
          Iterates (byte :: block) (item :: decodeBlock fuel rest) :=
        .item taken (ih (by have := length_of_next taken; omega))
      rw [decodeBlock]
      · split <;>
        · rename_i found
          exact step _ _ (by simp only [next, found])
      · simp

/-- An iterator ends in one way only. -/
theorem Iterates.unique {block : Bytes} {items others : List (Except PeerError Property)}
    (iterates : Iterates block items) (again : Iterates block others) : items = others := by
  -- Each step takes the same item and leaves the same bytes.
  induction iterates generalizing others with
  | ended none =>
    cases again with
    | ended => rfl
    | item taken => simp [none] at taken
  | item taken rest ih =>
    cases again with
    | ended none => simp [none] at taken
    | item same other =>
      rw [taken] at same
      cases same
      rw [ih other]

/-- An iterator hands out at most one item for each byte. -/
theorem Iterates.length_le {block : Bytes} {items : List (Except PeerError Property)}
    (iterates : Iterates block items) : items.length ≤ block.length := by
  induction iterates with
  | ended => exact Nat.zero_le _
  | item taken rest ih =>
    have := length_of_next taken
    rw [List.length_cons]
    omega

/-- A block is iterated without an error exactly if it is the bytes of the list. -/
theorem iterates_map_ok {block : Bytes} :
    Iterates block (list.map .ok) ↔ listBytes list = some block := by
  -- A list is empty exactly if no byte is left.
  induction list generalizing block with
  | nil =>
    constructor
    · intro iterates
      cases iterates with
      | ended none =>
        cases block with
        | nil => rfl
        | cons byte block =>
          simp only [next] at none
          split at none <;> cases none
    · intro encoded
      cases encoded
      exact .ended rfl
  | cons property list ih =>
    rw [List.map_cons, listBytes_cons]
    constructor
    · intro iterates
      cases iterates with
      | item taken others =>
        obtain ⟨bytes, encoded, rfl⟩ := next_eq_ok.mp taken
        rw [encoded, ih.mp others]
        rfl
    · intro encoded
      simp only [Option.bind_eq_some_iff, Option.map_eq_some_iff] at encoded
      obtain ⟨bytes, first, rest, others, rfl⟩ := encoded
      exact .item (next_eq_ok.mpr ⟨bytes, first, rfl⟩) (ih.mpr others)

theorem iterates_iter (block : Bytes) : Iterates block (Properties.encoded block).iter :=
  iterates_decodeBlock (Nat.le_refl _)

theorem iter_of_listBytes {block : Bytes} (encoded : listBytes list = some block) :
    (Properties.encoded block).iter = list.map .ok :=
  (iterates_iter block).unique (iterates_map_ok.mpr encoded)

/-- Lists of properties and blocks that decode without an error determine each other. -/
theorem codec_bijective :
    (∀ list : List Property, (∀ property ∈ list, property.Encodable) →
      ∃ block, Writes (list.flatMap Property.tokens) block ∧
        (Properties.slice list).size = block.length ∧
        (∀ len, writeMqttU32Varint ((Properties.slice list).size % 2 ^ 32) = some len →
          Writes (Properties.slice list).tokens (len ++ block)) ∧
        (Properties.encoded block).iter = list.map .ok) ∧
    ∀ block : Bytes, ∃ items, Iterates block items ∧ (Properties.encoded block).iter = items ∧
      items.length ≤ block.length ∧
      ∀ list : List Property, items = list.map .ok →
        Writes (list.flatMap Property.tokens) block := by
  constructor
  · intro list encodable
    -- What is written for the list is what the iterator takes apart again.
    obtain ⟨block, encoded, size⟩ := listBytes_length encodable
    refine ⟨block, writes_of_tokenBytes encoded, size, fun len written => ?_,
      iter_of_listBytes encoded⟩
    apply writes_of_tokenBytes
    rw [listBytes] at encoded
    rw [Properties.tokens, tokenBytes_append, tokenBytes_varintTokens, written]
    simp [encoded]
  · intro block
    have iterates := iterates_iter block
    refine ⟨_, iterates, rfl, iterates.length_le, fun list all => ?_⟩
    rw [all] at iterates
    exact writes_of_tokenBytes (iterates_map_ok.mp iterates)

end Properties

end Minimq
