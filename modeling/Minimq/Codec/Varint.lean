import Minimq.Codec.Basic

/-! MQTT variable byte integers: the writer, the reader and the incremental probe. -/

namespace Minimq

/-- The largest value a variable byte integer can carry. -/
def mqttVarintMax : Nat := 2 ^ 28 - 1

/-- The most bytes a variable byte integer can occupy. -/
def mqttVarintMaxBytes : Nat := 4

/-- Push seven bits at a time into a buffer with `slots` free bytes. -/
def writeVarintLoop : (slots : Nat) → (value : Nat) → Option Bytes
  -- Pushing into a full buffer fails.
  | 0, _ => none
  | slots + 1, value =>
    let byte := UInt8.ofNat (value &&& 0x7F)
    let rest := value >>> 7
    if rest ≠ 0 then (writeVarintLoop slots rest).map fun tail => (byte ||| 0x80) :: tail
    else some [byte]

/-- Encode a 32-bit value as a variable byte integer. -/
def writeMqttU32Varint (value : Nat) : Option Bytes :=
  if value > mqttVarintMax then none else writeVarintLoop mqttVarintMaxBytes value

/-- The length of the encoding of a value, by repeated division. -/
def encodedLenLoop : (fuel : Nat) → (value : Nat) → Nat
  | 0, _ => 1
  | fuel + 1, value => if value ≥ 128 then encodedLenLoop fuel (value / 128) + 1 else 1

/-- The length of the encoding of a 32-bit value, which five divisions exhaust. -/
def encodedLen (value : Nat) : Nat := encodedLenLoop 5 value

section Reader

variable {ε σ : Type}

/-- Read the remaining bytes of a variable byte integer, starting at byte `index`. -/
def readVarintLoop (read : EStateM ε σ UInt8) (invalid : ε) :
    (remaining : Nat) → (index value : Nat) → EStateM ε σ Nat
  -- The encoding did not end within four bytes.
  | 0, _, _ => throw invalid
  | remaining + 1, index, value => do
    let shift := index * 7
    let byte ← read
    let part := (byte &&& 0x7F).toNat
    let value := value ||| (part <<< shift)
    if value > mqttVarintMax then throw invalid
    else if byte &&& 0x80 = 0 then
      -- A zero group after the first one makes the encoding overlong.
      if shift ≠ 0 ∧ part = 0 then throw invalid else return value
    else readVarintLoop read invalid remaining (index + 1) value

/-- Decode one canonical variable byte integer. -/
def readMqttU32Varint (read : EStateM ε σ UInt8) (invalid : ε) : EStateM ε σ Nat :=
  readVarintLoop read invalid mqttVarintMaxBytes 0 0

end Reader

/-- Why probing did not find a variable byte integer. -/
inductive ProbeError where
  | incomplete
  | invalid
  deriving DecidableEq

/-- Read the next byte of a slice, counting the bytes taken. -/
def probeByte (bytes : Bytes) : EStateM ProbeError Nat UInt8 := do
  let len ← get
  match bytes[len]? with
  | none => throw .incomplete
  | some byte =>
    set (len + 1)
    return byte

/-- Probe a possibly incomplete variable byte integer for its value and its length. -/
def probeMqttU32Varint (bytes : Bytes) : Except Unit (Option (Nat × Nat)) :=
  match (readMqttU32Varint (probeByte bytes) .invalid).run 0 with
  | .ok value len => .ok (some (value, len))
  | .error .incomplete _ => .ok none
  | .error .invalid _ => .error ()

end Minimq
