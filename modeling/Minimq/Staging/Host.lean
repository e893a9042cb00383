import Minimq.Staging.Service

/-! The host side of staging: the loop that answers each status with the chunk it asks for. -/

namespace Minimq.Staging

theorem isUtf8_of_ascii {bytes : Bytes} (ascii : ∀ byte ∈ bytes, byte.toNat < 0x80) :
    isUtf8 bytes = true := by
  induction bytes with
  | nil => rfl
  | cons first rest ih =>
    have plain : first < 0x80 := UInt8.lt_iff_toNat_lt.mpr (ascii first (.head _))
    rw [isUtf8.eq_def]
    simp only [if_pos plain]
    exact ih fun byte member => ascii byte (.tail _ member)

/-- The decimal text of a number. -/
def decimal (number : Nat) : Utf8 :=
  ⟨Decimal.text number, isUtf8_of_ascii fun byte member => by
    have := Decimal.lt_of_mem_text member
    omega⟩

/-- The FNV-1a checksum. -/
def fnv1a64 (data : Bytes) : UInt64 :=
  data.foldl (fun digest byte => (digest ^^^ byte.toUInt64) * 0x100000001B3) 0xCBF29CE484222325

/-- A lowercase hexadecimal digit. -/
def hexDigit (value : Nat) : UInt8 :=
  if value < 10 then UInt8.ofNat (0x30 + value) else UInt8.ofNat (0x61 + (value - 10))

/-- A number as sixteen hexadecimal digits. -/
def hex16 (number : UInt64) : Bytes :=
  (List.range 16).map fun index => hexDigit (number.toNat / 16 ^ (15 - index) % 16)

/-- What stands in a manifest in front of the identifier, the size and the checksum. -/
def manifestKeys : Bytes × Bytes × Bytes :=
  ([0x7B, 0x22, 0x69, 0x64, 0x22, 0x3A, 0x22],
    [0x22, 0x2C, 0x22, 0x73, 0x69, 0x7A, 0x65, 0x22, 0x3A],
    [0x2C, 0x22, 0x66, 0x6E, 0x76, 0x31, 0x61, 0x36, 0x34, 0x22, 0x3A])

/-- The text of a manifest. -/
def jsonManifest (id : Bytes) (size : Nat) (fnv1a64 : UInt64) : Bytes :=
  manifestKeys.1 ++ id ++ (manifestKeys.2.1 ++ Decimal.text size ++
    (manifestKeys.2.2 ++ Decimal.text fnv1a64.toNat ++ [0x7D]))

/-- What follows a literal in a text that starts with it. -/
def afterLiteral (literal text : Bytes) : Option Bytes :=
  if literal.isPrefixOf text then some (text.drop literal.length) else none

/-- A number at the beginning of a text, and what follows it. -/
def leadingNumber (text : Bytes) : Option (Nat × Bytes) :=
  let digits := text.takeWhile fun byte => 0x30 ≤ byte && byte ≤ 0x39
  (Decimal.value digits).map fun value => (value, text.drop digits.length)

/-- A reader for manifests that are written as the host does. -/
def readManifest : Json := fun text => do
  let rest ← afterLiteral manifestKeys.1 text
  let id := rest.takeWhile (· != 0x22)
  let (size, rest) ← leadingNumber (← afterLiteral manifestKeys.2.1 (rest.drop id.length))
  let (fnv1a64, rest) ← leadingNumber (← afterLiteral manifestKeys.2.2 rest)
  let rest ← afterLiteral [0x7D] rest
  guard (size < 2 ^ 32 ∧ fnv1a64 < 2 ^ 64)
  return (⟨id, UInt32.ofNat size, UInt64.ofNat fnv1a64⟩, text.length - rest.length)

/-- A publication of the host, which is never retained. -/
structure Publication where
  topic : Bytes
  payload : Bytes
  properties : List Property
  deriving DecidableEq

/-- What the loop works with. -/
structure Host where
  root : Bytes
  data : Bytes
  /-- The requested size of chunks, any integer. -/
  chunkSize : Int
  id : Bytes
  size : Nat
  manifest : Bytes

/-- The host that serves an object; the JSON library encodes the manifest. -/
def Host.serve (dumps : Bytes → Nat → UInt64 → Bytes) (root data : Bytes) (chunkSize : Int) :
    Host where
  root
  data
  chunkSize
  id := hex16 (fnv1a64 data)
  size := data.length
  manifest := dumps (hex16 (fnv1a64 data)) data.length (fnv1a64 data)

/-- Choose a chunk size that meets the write alignment of the device. -/
def alignedChunkSize (requested : Int) (mtu writeSize : Nat) : Int :=
  let size := min requested mtu
  size - size % writeSize

/-- The slice of an object up to a position, which counts from the end if it is negative. -/
def slice (data : Bytes) (start : Nat) (stop : Int) : Bytes :=
  let stop := if stop < 0 then stop + data.length else stop
  (data.take stop.toNat).drop start

/-- Whether a status makes the host give up. -/
def Status.isError (status : Status) : Bool :=
  status.state = .error ||
    match status.code with
    | .error | .mtu | .offset | .oversize | .storage | .unaligned => true
    | _ => false

/-- What the loop does with a message. -/
inductive Reply where
  /-- Wait for the next one. -/
  | ignored
  /-- Return, because the object is staged. -/
  | finished
  /-- Raise an error. -/
  | failed
  | chunk (publication : Publication)
  deriving DecidableEq

namespace Host

/-- The properties of a chunk. -/
def chunkProperties (correlationData : Bytes) (offset : Nat) : List Property :=
  [.payloadFormatIndicator 0, .correlationData correlationData,
    .userProperty offsetKey (decimal offset)]

/-- The publication of the manifest. -/
def announcement (host : Host) : Publication :=
  ⟨host.root ++ manifestSuffix, host.manifest, [.payloadFormatIndicator 1]⟩

/-- Whether a status is about the manifest being served. -/
def matchesStatus (host : Host) (message : StatusMessage) : Bool :=
  message.status.id = host.id && message.correlationData = host.id &&
    message.status.size.toNat = host.size

/-- The bytes at a position, the last ones padded to the write alignment. -/
def chunkAt (host : Host) (offset writeSize : Nat) (size : Int) : Bytes :=
  let chunk := slice host.data offset (offset + size)
  if host.data.length ≤ offset + chunk.length then
    chunk ++ List.replicate ((-(chunk.length : Int)) % writeSize).toNat 0xFF
  else chunk

/-- Handle one message: `wait_status` and the body of the loop in `stage`. -/
def reply (host : Host) (message : StatusMessage) : Reply :=
  if message.topic ≠ host.root ++ statusSuffix then .ignored
  else match Decimal.value message.offset with
    | none => .failed
    | some offset =>
      let status := message.status
      if status.id = [] ∧ message.correlationData = [] then
        if status.isError then .failed else .ignored
      else if host.matchesStatus message = false then .ignored
      else if status.isError then .failed
      else if status.code = .complete then .finished
      else if message.responseTopic ≠ host.root ++ chunkSuffix ∨
          offset ≠ status.nextOffset.toNat then .failed
      else if status.state = .preparing then .ignored
      else
        let size := alignedChunkSize host.chunkSize status.mtu status.writeSize
        if size = 0 then .failed
        else if slice host.data offset (offset + size) = [] then .failed
        else .chunk ⟨message.responseTopic, host.chunkAt offset status.writeSize size,
          chunkProperties message.correlationData offset⟩

end Host

end Minimq.Staging
