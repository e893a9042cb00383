import Minimq.Lib.Arena
import Minimq.Codec.Wire

/-! The packet serializer: fields are written behind a reserved header, which is filled in last. -/

namespace Minimq

/-- The bytes reserved for a fixed header: one type byte and the longest length. -/
def maxFixedHeaderSize : Nat := 5

/-- One call a value makes on the serializer while it is written. -/
inductive Token where
  | push (bytes : Bytes)
  /-- Report that the value has no encoding. -/
  | refuse
  deriving DecidableEq

/-- A packet buffer and the position of the next byte. -/
structure Serializer where
  buf : Bytes
  /-- Where the next byte goes. -/
  index : Nat
  deriving DecidableEq

/-- A packet that describes itself as a fixed header and a sequence of fields. -/
class ControlPacket (α : Type) where
  /-- The first byte of the encoding. -/
  fixedHeader : α → FixedHeader
  /-- The fields behind the remaining length. -/
  tokens : α → List Token

/-- A value that writes itself into a payload buffer. -/
structure Payload (π : Type) where
  /-- The claimed length or an error, and the buffer as the call left it. -/
  serialize : Bytes → Except π Nat × Bytes
  /-- A slice can be changed but not resized. -/
  sameLength : ∀ buffer, (serialize buffer).2.length = buffer.length

namespace Serializer

variable {π : Type}

/-- A serializer over one packet buffer, behind the reserved header. -/
def new (buf : Bytes) : Serializer := ⟨buf, maxFixedHeaderSize⟩

/-- Write data into the packet. -/
def pushBytes (data : Bytes) : EStateM SerError Serializer Unit := do
  let serializer ← get
  if serializer.buf.length - serializer.index < data.length then throw .insufficientMemory
  else set (Serializer.mk (Arena.overwrite serializer.buf serializer.index data)
    (serializer.index + data.length))

/-- Write the fields of a value one after the other. -/
def pushTokens : List Token → EStateM SerError Serializer Unit
  | [] => pure ()
  | .push bytes :: rest => do
    pushBytes bytes
    pushTokens rest
  | .refuse :: _ => throw .custom

/-- Write what a payload puts into the rest of the buffer, and claim its length. -/
def pushPayload (payload : Payload π) : EStateM (SerError ⊕ π) Serializer Unit := do
  let serializer ← get
  let start := min serializer.index serializer.buf.length
  let (result, remainder) := payload.serialize (serializer.buf.drop start)
  -- The payload may have written before it failed.
  set (Serializer.mk (serializer.buf.take start ++ remainder) serializer.index)
  match result with
  | .error error => throw (.inr error)
  | .ok len =>
    if serializer.buf.length - serializer.index < len then throw (.inl .insufficientMemory)
    else set (Serializer.mk (serializer.buf.take start ++ remainder) (serializer.index + len))

/-- Put the fixed header in front of the fields; the result is the packet and its offset. -/
def finalize (fixedHeader : FixedHeader) : EStateM SerError Serializer (Nat × Bytes) := do
  let serializer ← get
  let len := serializer.index - maxFixedHeaderSize
  match writeMqttU32Varint (len % 2 ^ 32) with
  | none => throw .insufficientMemory
  | some remainingLen =>
    if serializer.buf.length < maxFixedHeaderSize then throw .insufficientMemory
    else
      let offset := maxFixedHeaderSize - remainingLen.length - 1
      let buf := Arena.overwrite serializer.buf (maxFixedHeaderSize - remainingLen.length) remainingLen
      let buf := Arena.overwrite buf offset [fixedHeader.byte]
      set (Serializer.mk buf serializer.index)
      return (offset, (buf.take serializer.index).drop offset)

end Serializer

section Encode

variable {α ε π : Type}

/-- Read the outcome of a serializer run: the result and the buffer it leaves behind. -/
def outcome : EStateM.Result ε Serializer α → Except ε α × Bytes
  | .ok value serializer => (.ok value, serializer.buf)
  | .error error serializer => (.error error, serializer.buf)

/-- Encode a control packet and return its start offset in the provided buffer. -/
def encodeWithOffset [ControlPacket α] (buf : Bytes) (packet : α) :
    Except SerError (Nat × Bytes) × Bytes :=
  outcome <| EStateM.run (do
    Serializer.pushTokens (ControlPacket.tokens packet)
    Serializer.finalize (ControlPacket.fixedHeader packet)) (Serializer.new buf)

/-- Encode a control packet into a buffer. -/
def encode [ControlPacket α] (buf : Bytes) (packet : α) : Except SerError Bytes :=
  (encodeWithOffset buf packet).1.map Prod.snd

/-- Encode a PUBLISH header and its payload; the result is the packet and its offset. -/
def encodePublishWithOffset [ControlPacket α] (buf : Bytes) (header : α) (payload : Payload π) :
    Except (SerError ⊕ π) (Nat × Bytes) × Bytes :=
  outcome <| EStateM.run (do
    EStateM.adaptExcept Sum.inl (Serializer.pushTokens (ControlPacket.tokens header))
    Serializer.pushPayload payload
    EStateM.adaptExcept Sum.inl (Serializer.finalize (ControlPacket.fixedHeader header)))
    (Serializer.new buf)

end Encode

/-- A byte slice copies itself into the payload buffer if it fits. -/
def Payload.ofBytes (data : Bytes) : Payload Unit where
  serialize buffer :=
    if buffer.length < data.length then (.error (), buffer)
    else (.ok data.length, data ++ buffer.drop data.length)
  sameLength buffer := by
    split
    · rfl
    · simp only [List.length_append, List.length_drop]
      omega

end Minimq
