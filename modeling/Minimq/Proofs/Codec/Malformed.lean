import Minimq.Proofs.Codec.Properties
import Minimq.Staging.Service

/-! Where decoding a block goes on behind a malformed property, and what it then finds. -/

namespace Minimq

open Hoare Grammar

variable {items : List (Except PeerError Property)}

section Behind

/-- What is left behind a field of fixed size, which is taken as a whole or not at all. -/
def behindFixed (size : Nat) (input : Bytes) : Bytes :=
  if input.length < size then input else input.drop size

/-- What is left behind a field with a length in front; the length is taken even if it is too large. -/
def behindCounted : Bytes → Bytes
  | high :: low :: rest => behindFixed ((high.toUInt16 <<< 8) ||| low.toUInt16).toNat rest
  | short => short

/-- What is left behind a variable byte integer, which is taken byte by byte. -/
def behindVarint : (slots : Nat) → Bytes → Bytes
  | 0, input => input
  | _ + 1, [] => []
  | slots + 1, byte :: rest => if byte &&& 0x80 = 0 then rest else behindVarint slots rest

/-- Whether a complete string comes first. -/
def textAt : Bytes → Bool
  | high :: low :: rest =>
    let length := ((high.toUInt16 <<< 8) ||| low.toUInt16).toNat
    length ≤ rest.length && (Utf8.fromBytes (rest.take length)).isSome
  | _ => false

/-- What is left behind the value of the property with an identifier. -/
def behindValue : Nat → Bytes → Bytes
  | 0x01 | 0x17 | 0x19 | 0x24 | 0x25 | 0x28 | 0x29 | 0x2A => behindFixed 1
  | 0x13 | 0x21 | 0x22 | 0x23 => behindFixed 2
  | 0x02 | 0x11 | 0x18 | 0x27 => behindFixed 4
  | 0x03 | 0x08 | 0x09 | 0x12 | 0x15 | 0x16 | 0x1A | 0x1C | 0x1F => behindCounted
  | 0x0B => behindVarint mqttVarintMaxBytes
  | 0x26 => fun input =>
    if textAt input then behindCounted (behindCounted input) else behindCounted input
  | _ => id

/-- What is left behind a property, whether it is well formed or not. -/
def behindProperty (input : Bytes) : Bytes :=
  match varintPrefix mqttVarintMaxBytes true input with
  | .found identifier len => behindValue identifier (input.drop len)
  | _ => behindVarint mqttVarintMaxBytes input

end Behind

namespace Deserializer

variable {α β : Type} {behind : Bytes → Bytes}

/-- The bytes that are left of an input, with no length announced. -/
def Left (rest : Bytes) (after : Deserializer) : Prop :=
  after.remainder = rest ∧ after.nextBytesLen = none

/-- A reader leaves these bytes of its input, whether it fails or not. -/
def Leaves (reader : Read α) (behind : Bytes → Bytes) : Prop :=
  ∀ s : Deserializer, s.nextBytesLen = none →
    wp reader (fun _ => Left (behind s.remainder)) (fun _ => Left (behind s.remainder)) s

theorem pure_leaves (value : α) : Leaves (pure value) id := fun _ idle => ⟨rfl, idle⟩

theorem throw_leaves (error : DeError) : Leaves (throw error : Read α) id :=
  fun _ idle => ⟨rfl, idle⟩

theorem Leaves.then {reader : Read α} (leaves : Leaves reader behind) {next : α → Read β}
    (still : ∀ value, Leaves (next value) id) : Leaves (reader >>= next) behind := by
  intro s idle
  rw [wp_bind]
  refine wp_mono (leaves s idle) (fun value middle left => ?_) (fun _ _ left => left)
  rw [← left.1]
  exact still value middle left.2

theorem Leaves.built {reader : Read α} (leaves : Leaves reader behind) (build : α → β) :
    Leaves (do return build (← reader)) behind :=
  leaves.then fun value => pure_leaves (build value)

theorem pop_leaves : Leaves pop (behindFixed 1) := by
  intro s idle
  unfold pop
  simp only [wp_bind, wp_get]
  -- Where the byte is missing nothing is taken.
  cases left : s.remainder with
  | nil => exact ⟨left, idle⟩
  | cons byte rest =>
    refine ⟨?_, idle⟩
    rw [remainder_advance, left]
    simp [behindFixed]

theorem readU16_leaves : Leaves readU16 (behindFixed 2) := by
  intro s idle
  unfold readU16
  simp only [wp_bind, wp_get]
  -- Where one of the bytes is missing nothing is taken.
  rcases left : s.remainder with _ | ⟨high, _ | ⟨low, rest⟩⟩
  · exact ⟨left, idle⟩
  · exact ⟨left, idle⟩
  · refine ⟨?_, idle⟩
    rw [remainder_advance, left]
    simp [behindFixed]

theorem readU32_leaves : Leaves readU32 (behindFixed 4) := by
  intro s idle
  unfold readU32
  simp only [wp_bind, wp_get]
  rcases left : s.remainder with _ | ⟨first, _ | ⟨second, _ | ⟨third, _ | ⟨fourth, rest⟩⟩⟩⟩
  iterate 4 exact ⟨left, idle⟩
  refine ⟨?_, idle⟩
  rw [remainder_advance, left]
  simp [behindFixed]

theorem tryTakeN_leaves (count : Nat) : Leaves (tryTakeN count) (behindFixed count) := by
  intro s idle
  unfold tryTakeN
  simp only [wp_bind, wp_get, wp_ite, wp_throw, wp_set, wp_pure]
  rw [behindFixed, length_remainder]
  split
  · exact ⟨rfl, idle⟩
  · exact ⟨remainder_advance s count, idle⟩

theorem counted_leaves : Leaves (do
    let length ← readU16
    tryTakeN length.toNat) behindCounted := by
  intro s idle
  unfold readU16
  simp only [wp_bind, wp_get]
  rcases left : s.remainder with _ | ⟨high, _ | ⟨low, rest⟩⟩
  · exact ⟨left, idle⟩
  · exact ⟨left, idle⟩
  · -- The length is taken, whatever comes behind it.
    have taken : ({ s with index := s.index + 2 } : Deserializer).remainder = rest := by
      rw [remainder_advance, left]
      rfl
    have data := tryTakeN_leaves ((high.toUInt16 <<< 8) ||| low.toUInt16).toNat
      { s with index := s.index + 2 } idle
    rw [taken] at data
    exact data

theorem fromBytes_leaves (bytes : Bytes) : Leaves (match Utf8.fromBytes bytes with
    | some text => return text
    | none => throw .badString) id := by
  cases Utf8.fromBytes bytes with
  | none => exact throw_leaves _
  | some text => exact pure_leaves text

theorem str_leaves : Leaves str behindCounted := by
  have split := counted_leaves.then fromBytes_leaves
  simp only [bind_assoc] at split
  exact split

theorem bytes_leaves : Leaves bytes behindCounted := by
  intro s idle
  unfold bytes
  simp only [wp_bind, wp_get, wp_set, idle]
  -- No length was announced, so the one in front counts.
  have data := counted_leaves { s with nextBytesLen := none } rfl
  rw [wp_bind] at data
  exact data

/-- The remaining groups of a variable byte integer. -/
theorem readVarintLoop_leaves (invalid : DeError) {remaining index value : Nat}
    (budget : remaining + index = mqttVarintMaxBytes) (small : value < 128 ^ index) :
    Leaves (readVarintLoop pop invalid remaining index value) (behindVarint remaining) := by
  -- One byte is taken in each round, and the value stays within the limit.
  induction remaining generalizing index value with
  | zero => exact throw_leaves invalid
  | succ remaining ih =>
    intro s idle
    rw [readVarintLoop, wp_bind]
    unfold pop
    simp only [wp_bind, wp_get]
    cases left : s.remainder with
    | nil => exact ⟨left, idle⟩
    | cons byte rest =>
      simp only [wp_bind, wp_set, wp_pure]
      have taken : ({ s with index := s.index + 1 } : Deserializer).remainder = rest := by
        rw [remainder_advance, left]
        rfl
      have sum := group_lt small byte
      have within : ¬ value + 128 ^ index * (byte &&& 0x7F).toNat > mqttVarintMax := by
        have power : 128 ^ (index + 1) ≤ 128 ^ mqttVarintMaxBytes :=
          Nat.pow_le_pow_right (by decide) (by omega)
        simp only [mqttVarintMax, mqttVarintMaxBytes] at power ⊢
        omega
      simp only [or_group small, if_neg within, behindVarint]
      by_cases last : byte &&& 0x80 = 0
      · rw [if_pos last, if_pos last]
        split
        · exact ⟨taken, idle⟩
        · exact ⟨taken, idle⟩
      · rw [if_neg last, if_neg last]
        have more := ih (by omega) sum { s with index := s.index + 1 } idle
        rw [taken] at more
        exact more

/-- Whether a string is read depends on the bytes in front. -/
theorem str_eq_ok {s : Deserializer} :
    (∃ text after, str s = .ok text after) ↔ textAt s.remainder = true := by
  unfold str readU16
  simp only [bind_apply, get_apply]
  match left : s.remainder with
  | [] | [_] => simp [textAt]
  | high :: low :: rest =>
    have taken : ({ s with index := s.index + 2 } : Deserializer).remainder = rest := by
      rw [remainder_advance, left]
      rfl
    simp only [bind_apply, set_apply, pure_apply, tryTakeN, get_apply, ← length_remainder, taken,
      textAt, Bool.and_eq_true, decide_eq_true_eq]
    generalize ((high.toUInt16 <<< 8) ||| low.toUInt16).toNat = length
    -- The length in front is taken as it is, so the bytes behind it may be missing.
    by_cases short : rest.length < length
    · have missing : ¬ length ≤ rest.length := by omega
      simp [short, missing]
    · cases decoded : Utf8.fromBytes (rest.take length) with
      | none => simp [short, decoded]
      | some text => simpa [short, decoded] using Nat.le_of_not_lt short

/-- Two strings; the second one is read only behind a complete first one. -/
theorem userProperty_leaves : Leaves (do
    let key ← str
    return Property.userProperty key (← str)) (behindValue 0x26) := by
  intro s idle
  rw [wp_bind]
  have first := str_leaves s idle
  have known := @str_eq_ok s
  unfold wp at first ⊢
  -- The second string is tried only if the first one was read.
  cases outcome : str s with
  | ok key after =>
    rw [outcome] at first
    have complete := known.mp ⟨key, after, outcome⟩
    have second := (str_leaves.built (Property.userProperty key)) after first.2
    rw [first.1] at second
    simp only [behindValue, complete, if_true]
    exact second
  | error error after =>
    rw [outcome] at first
    have refused : textAt s.remainder = false := by
      cases seen : textAt s.remainder with
      | false => rfl
      | true =>
        obtain ⟨text, later, ok⟩ := known.mpr seen
        rw [outcome] at ok
        cases ok
    simp only [behindValue, refused, Bool.false_eq_true, if_false]
    exact first

theorem propertyValue_leaves (identifier : Nat) :
    Leaves (propertyValue identifier) (behindValue identifier) := by
  unfold propertyValue
  -- Each identifier has one kind of value, and an unknown one takes no more bytes.
  split
  case h_28 =>
    rename_i unknown
    have same : behindValue identifier = id := by
      unfold behindValue
      split <;> simp_all
    rw [same]
    exact throw_leaves _
  case h_23 => exact userProperty_leaves
  all_goals first
    | exact pop_leaves.built _
    | exact readU16_leaves.built _
    | exact readU32_leaves.built _
    | exact str_leaves.built _
    | exact bytes_leaves.built _
    | exact (readVarintLoop_leaves _ rfl (by decide)).built _

theorem property_leaves : Leaves property behindProperty := by
  intro s idle
  have accepts := readVarint_accepts (P := (· = none))
  have leaves := @readVarintLoop_leaves .badVarint mqttVarintMaxBytes 0 0 rfl (by decide) s idle
  unfold property
  rw [wp_bind]
  unfold wp at leaves ⊢
  cases outcome : readVarint s with
  | ok identifier middle =>
    obtain ⟨⟨field, written, split⟩, calm⟩ := accepts.sound idle outcome
    have found : varintPrefix mqttVarintMaxBytes true s.remainder = .found identifier field.length :=
      varintPrefix_eq_found.mpr ⟨field, written, ⟨_, split.symm⟩, rfl⟩
    have value := propertyValue_leaves identifier middle calm
    have behind : behindProperty s.remainder = behindValue identifier middle.remainder := by
      simp only [behindProperty, found]
      rw [split, List.drop_left]
    rw [behind]
    exact value
  | error error middle =>
    have left : Left (behindVarint mqttVarintMaxBytes s.remainder) middle := by
      have failed := leaves
      rw [show readVarintLoop pop .badVarint mqttVarintMaxBytes 0 0 s = readVarint s from rfl,
        outcome] at failed
      exact failed
    have behind : behindProperty s.remainder = behindVarint mqttVarintMaxBytes s.remainder := by
      unfold behindProperty
      split
      · rename_i identifier len found
        -- A complete identifier would have been read.
        obtain ⟨field, written, ⟨rest, split⟩, -⟩ := varintPrefix_eq_found.mp found
        obtain ⟨after, ok, -⟩ := accepts.complete idle ⟨field, written, split.symm⟩
        rw [outcome] at ok
        cases ok
      · rfl
    rw [behind]
    exact left

end Deserializer

namespace Properties

/-- A complete property comes first. -/
def WellFormed (place : Bytes) : Prop :=
  ∃ (property : Property) (bytes : Bytes), tokenBytes property.tokens = some bytes ∧ bytes <+: place

/-- The places of a block at which a property is looked for. -/
def places : (fuel : Nat) → Bytes → List Bytes
  | 0, _ => []
  | _ + 1, [] => []
  | fuel + 1, byte :: rest => (byte :: rest) :: places fuel (behindProperty (byte :: rest))

/-- What is found at a place. -/
def itemAt (place : Bytes) : Except PeerError Property :=
  match Deserializer.property.run (Deserializer.new place) with
  | .ok property _ => .ok property
  | .error _ _ => .error .invalidPacket

/-- The iterator takes what is found and goes on behind it, whether it is well formed or not. -/
theorem next_eq (byte : UInt8) (rest : Bytes) :
    next (byte :: rest) = some (itemAt (byte :: rest), behindProperty (byte :: rest)) := by
  have leaves := Deserializer.property_leaves (.new (byte :: rest)) rfl
  unfold wp at leaves
  simp only [next, itemAt, EStateM.run]
  -- Both results leave the deserializer at the same place.
  cases outcome : Deserializer.property (.new (byte :: rest)) with
  | ok property after =>
    rw [outcome] at leaves
    simp only [leaves.1]
    rfl
  | error error after =>
    rw [outcome] at leaves
    simp only [leaves.1]
    rfl

/-- A property is found exactly at a place where one is complete. -/
theorem isOk_itemAt {place : Bytes} : (itemAt place).isOk = true ↔ WellFormed place := by
  have reads := Deserializer.property_accepts.eq_of_grammar (.new place) rfl
  have whole : (Deserializer.new place).remainder = place := rfl
  -- Reading succeeds exactly on the encoding of a property.
  constructor
  · intro found
    unfold itemAt EStateM.run at found
    split at found
    · rename_i property after ok
      obtain ⟨bytes, encoded, split⟩ := (reads property after.remainder).mp ⟨after, ok, rfl⟩
      exact ⟨property, bytes, encoded, after.remainder, by rw [← split, whole]⟩
    · cases found
  · intro ⟨property, bytes, written, rest, split⟩
    obtain ⟨after, ok, -⟩ := (reads property rest).mpr ⟨bytes, written, by rw [whole, split]⟩
    unfold itemAt EStateM.run
    rw [ok]
    rfl

/-- Iterating looks for a property at every place. -/
theorem iterates_places {fuel : Nat} {block : Bytes} (enough : block.length ≤ fuel) :
    Iterates block ((places fuel block).map itemAt) := by
  -- Every place is shorter than the one before it.
  induction fuel generalizing block with
  | zero =>
    rw [List.length_eq_zero_iff.mp (Nat.le_zero.mp enough)]
    exact .ended rfl
  | succ fuel ih =>
    cases block with
    | nil => exact .ended rfl
    | cons byte rest =>
      have taken := next_eq byte rest
      have shorter := length_of_next taken
      exact .item taken (ih (by omega))

theorem iter_eq_places (block : Bytes) :
    (Properties.encoded block).iter = (places block.length block).map itemAt :=
  (iterates_iter block).unique (iterates_places (Nat.le_refl _))

/-- The properties of the longest part of a block, from its start, that is well formed. -/
structure Longest (block : Bytes) (list : List Property) (whole : Bytes) : Prop where
  /-- The part is the encoding of the properties. -/
  encoded : listBytes list = some whole
  /-- The block starts with it. -/
  start : whole <+: block
  /-- Nothing longer is well formed. -/
  longest : ∀ other bytes, listBytes other = some bytes → bytes <+: block →
    bytes.length ≤ whole.length

/-- Iterating a block begins with the properties at its start. -/
theorem iterates_append {list : List Property} {bytes rest : Bytes}
    (encoded : listBytes list = some bytes)
    (others : Iterates rest items) : Iterates (bytes ++ rest) (list.map .ok ++ items) := by
  -- The properties in front are taken one by one.
  induction list generalizing bytes with
  | nil =>
    cases encoded
    exact others
  | cons property list ih =>
    rw [listBytes_cons] at encoded
    simp only [Option.bind_eq_some_iff, Option.map_eq_some_iff] at encoded
    obtain ⟨first, own, tail, behind, rfl⟩ := encoded
    rw [List.append_assoc]
    exact .item (next_eq_ok.mpr ⟨first, own, rfl⟩) (ih behind)

/-- The items before the first error, and the bytes they come from. -/
theorem Iterates.split {block : Bytes}
    (iterates : Iterates block items) : ∃ list bytes rest,
      items.takeWhile Except.isOk = list.map .ok ∧ listBytes list = some bytes ∧
        block = bytes ++ rest := by
  -- The first error ends the list, whatever is found behind it.
  induction iterates with
  | ended none => exact ⟨[], [], _, rfl, rfl, rfl⟩
  | @item block item rest items taken others ih =>
    cases item with
    | error error => exact ⟨[], [], block, rfl, rfl, rfl⟩
    | ok property =>
      obtain ⟨own, encoded, rfl⟩ := next_eq_ok.mp taken
      obtain ⟨list, bytes, tail, front, rest, rfl⟩ := ih
      refine ⟨property :: list, own ++ bytes, tail, ?_, ?_, by rw [List.append_assoc]⟩
      · rw [List.takeWhile_cons_of_pos rfl, front]
        rfl
      · rw [listBytes_cons, encoded, rest]
        rfl

/-- The items before the first error are the properties of the longest well-formed part. -/
theorem exists_longest (block : Bytes) : ∃ list whole, Longest block list whole ∧
    (Properties.encoded block).iter.takeWhile Except.isOk = list.map .ok := by
  obtain ⟨list, whole, rest, front, encoded, split⟩ := (iterates_iter block).split
  refine ⟨list, whole, ⟨encoded, ⟨rest, split.symm⟩, fun other bytes known start => ?_⟩, front⟩
  -- Any other well-formed part is decoded before the first error, too.
  obtain ⟨tail, same⟩ := start
  have decoded := (iterates_iter block).unique (same ▸ iterates_append known (iterates_iter tail))
  have all : ∀ item ∈ other.map (Except.ok : Property → Except PeerError Property),
      item.isOk = true := by
    intro item found
    obtain ⟨property, -, rfl⟩ := List.mem_map.mp found
    rfl
  rw [decoded, List.takeWhile_append_of_pos all] at front
  obtain ⟨first, more, rfl, mapped, -⟩ := List.map_eq_append_iff.mp front.symm
  obtain rfl : first = other := List.map_injective_iff.mpr (fun _ _ => Except.ok.inj) mapped
  rw [listBytes] at known
  rw [listBytes, List.flatMap_append, tokenBytes_append, known] at encoded
  obtain ⟨behind, -, rfl⟩ := Option.map_eq_some_iff.mp encoded
  rw [List.length_append]
  omega

/-- What an iterator over a block must not do, and what the lookups must not return. -/
structure Faithful (block : Bytes) (list : List Property) : Prop where
  /-- No property is handed out behind an error. -/
  silent : (Properties.encoded block).iter.Pairwise fun earlier later =>
    later.isOk = true → earlier.isOk = true
  /-- A response topic is one of the list. -/
  topic : ∀ topic, (Properties.encoded block).responseTopic = some topic →
    .responseTopic topic ∈ list
  /-- Correlation data is of the list. -/
  data : ∀ data, Staging.correlationData (.encoded block) = some data →
    .correlationData data ∈ list

/-- If no property is handed out behind an error, all of them come before the first one. -/
theorem mem_takeWhile_of_pairwise {property : Property}
    (silent : items.Pairwise fun earlier later => later.isOk = true → earlier.isOk = true)
    (found : .ok property ∈ items) : .ok property ∈ items.takeWhile Except.isOk := by
  -- A property behind an error would contradict the order.
  induction items with
  | nil => cases found
  | cons item items ih =>
    rw [List.pairwise_cons] at silent
    rcases List.mem_cons.mp found with rfl | behind
    · rw [List.takeWhile_cons_of_pos rfl]
      exact List.mem_cons_self
    · rw [List.takeWhile_cons_of_pos (silent.1 _ behind rfl)]
      exact List.mem_cons_of_mem _ (ih silent.2 behind)

/--
Decoding a block begins with its longest well-formed part; whether it stops there depends on what
comes behind.

Behind a malformed property, decoding goes on where reading it stopped. So the lookups stay within
the well-formed part exactly if no complete property starts at one of the places behind the first
place without one.
-/
theorem malformed_block (block : Bytes) : ∃ list whole, Longest block list whole ∧
    (Properties.encoded block).iter.takeWhile Except.isOk = list.map .ok ∧
    (Faithful block list ↔ (places block.length block).Pairwise fun earlier later =>
      WellFormed later → WellFormed earlier) := by
  obtain ⟨list, whole, longest, front⟩ := exists_longest block
  -- The items are read at the places, and are errors exactly where those are.
  have orders : ((Properties.encoded block).iter.Pairwise fun earlier later =>
      later.isOk = true → earlier.isOk = true) ↔
      (places block.length block).Pairwise fun earlier later =>
        WellFormed later → WellFormed earlier := by
    rw [iter_eq_places, List.pairwise_map]
    simp only [isOk_itemAt]
  refine ⟨list, whole, longest, front, fun faithful => orders.mp faithful.silent, fun ordered => ?_⟩
  have silent := orders.mpr ordered
  -- What is handed out comes before the first error, so it is in the list.
  have listed {property : Property} (found : .ok property ∈ (Properties.encoded block).iter) :
      property ∈ list := by
    have early := mem_takeWhile_of_pairwise silent found
    rw [front] at early
    obtain ⟨other, member, same⟩ := List.mem_map.mp early
    cases same
    exact member
  refine ⟨silent, fun topic found => ?_, fun data found => ?_⟩
  · obtain ⟨item, member, same⟩ := List.exists_of_findSome?_eq_some found
    split at same
    · cases same
      exact listed member
    · cases same
  · obtain ⟨item, member, same⟩ := List.exists_of_findSome?_eq_some found
    split at same
    · cases same
      exact listed member
    · cases same

/--
A response topic that is announced with one byte too many.

Its length is taken, its bytes are not, and so they are decoded as correlation data that nobody sent.
-/
theorem malformed_block_invents : ∃ list whole,
    Longest [0x08, 0, 5, 0x09, 0, 1, 0x78] list whole ∧ list = [] ∧
    (Properties.encoded [0x08, 0, 5, 0x09, 0, 1, 0x78]).iter =
      [.error .invalidPacket, .ok (.correlationData [0x78])] ∧
    Staging.correlationData (.encoded [0x08, 0, 5, 0x09, 0, 1, 0x78]) = some [0x78] ∧
    ¬ Faithful [0x08, 0, 5, 0x09, 0, 1, 0x78] list := by
  -- The block is short enough to be decoded by evaluation.
  have items : (Properties.encoded [0x08, 0, 5, 0x09, 0, 1, 0x78]).iter =
      [.error .invalidPacket, .ok (.correlationData [0x78])] := by decide +kernel
  obtain ⟨list, whole, longest, front⟩ := exists_longest [0x08, 0, 5, 0x09, 0, 1, 0x78]
  have none : list = [] := by
    rw [items] at front
    exact List.map_eq_nil_iff.mp front.symm
  refine ⟨list, whole, longest, none, items, by decide +kernel, fun faithful => ?_⟩
  have silent := faithful.silent
  rw [items] at silent
  simp [Except.isOk, Except.toBool] at silent

end Properties

end Minimq
