import Mathlib.Algebra.Ring.Nat
import Mathlib.Data.List.Basic

/-! Bytes, strings, reason codes and errors shared by the codec and the client. -/

namespace Minimq

/-- A byte string, also standing for a borrowed slice. -/
abbrev Bytes := List UInt8

/-- The big-endian bytes of a 16-bit integer. -/
def u16Bytes (value : UInt16) : Bytes :=
  [(value >>> 8).toUInt8, value.toUInt8]

/-- The big-endian bytes of a 32-bit integer. -/
def u32Bytes (value : UInt32) : Bytes :=
  [(value >>> 24).toUInt8, (value >>> 16).toUInt8, (value >>> 8).toUInt8, value.toUInt8]

/-- Whether a byte lies in an inclusive range. -/
def inRange (low high byte : UInt8) : Bool := low ≤ byte && byte ≤ high

/-- Whether a byte continues a multi-byte UTF-8 sequence. -/
def isContinuation (byte : UInt8) : Bool := inRange 0x80 0xBF byte

/-- Whether the first two bytes may open a three-byte UTF-8 sequence. -/
def opensThree (first second : UInt8) : Bool :=
  -- Overlong forms and surrogates are excluded by the range of the second byte.
  (first == 0xE0 && inRange 0xA0 0xBF second) ||
  (inRange 0xE1 0xEC first && isContinuation second) ||
  (first == 0xED && inRange 0x80 0x9F second) ||
  (inRange 0xEE 0xEF first && isContinuation second)

/-- Whether the first two bytes may open a four-byte UTF-8 sequence. -/
def opensFour (first second : UInt8) : Bool :=
  -- Overlong forms and values past the last code point are excluded by the second byte.
  (first == 0xF0 && inRange 0x90 0xBF second) ||
  (inRange 0xF1 0xF3 first && isContinuation second) ||
  (first == 0xF4 && inRange 0x80 0x8F second)

/-- Whether a byte string is well-formed UTF-8, as `core::str::from_utf8` decides it. -/
def isUtf8 : Bytes → Bool
  | [] => true
  | first :: rest =>
    if first < 0x80 then isUtf8 rest
    else match rest with
      | [] => false
      | second :: rest =>
        if inRange 0xC2 0xDF first && isContinuation second then isUtf8 rest
        else match rest with
          | [] => false
          | third :: rest =>
            if opensThree first second && isContinuation third then isUtf8 rest
            else match rest with
              | [] => false
              | fourth :: rest =>
                opensFour first second && isContinuation third && isContinuation fourth &&
                  isUtf8 rest

/-- Text after text is well-formed. -/
theorem isUtf8_append {front back : Bytes} (first : isUtf8 front = true)
    (second : isUtf8 back = true) : isUtf8 (front ++ back) = true := by
  -- The cases are the sequences of one to four bytes.
  fun_induction isUtf8 front with
  | case1 => exact second
  | case2 byte rest ascii ih =>
    rw [List.cons_append, isUtf8.eq_def]
    simp only [ascii, if_true]
    exact ih first
  | case3 => cases first
  | case4 byte other next rest two ih =>
    rw [List.cons_append, List.cons_append, isUtf8.eq_def]
    simp only [other, two, if_true, if_false]
    exact ih first
  | case5 => cases first
  | case6 byte other next two third rest three ih =>
    rw [List.cons_append, List.cons_append, List.cons_append, isUtf8.eq_def]
    simp only [other, two, three, if_true, if_false]
    exact ih first
  | case7 => cases first
  | case8 byte other next two third three fourth rest ih =>
    rw [Bool.and_eq_true] at first
    rw [List.cons_append, List.cons_append, List.cons_append, List.cons_append, isUtf8.eq_def]
    simp only [other, two, three, first.1, if_false, Bool.true_and]
    exact ih first.2

/-- A string slice: bytes that are well-formed UTF-8. -/
structure Utf8 where
  bytes : Bytes
  /-- Only well-formed strings can be built. -/
  valid : isUtf8 bytes = true
  deriving DecidableEq

namespace Utf8

/-- The empty string. -/
def empty : Utf8 := ⟨[], rfl⟩

/-- The length of a string in bytes. -/
def len (text : Utf8) : Nat := text.bytes.length

/-- One string after the other. -/
def append (front back : Utf8) : Utf8 :=
  ⟨front.bytes ++ back.bytes, isUtf8_append front.valid back.valid⟩

/-- Read bytes as a string, refusing malformed ones. -/
def fromBytes (bytes : Bytes) : Option Utf8 :=
  if valid : isUtf8 bytes = true then some ⟨bytes, valid⟩ else none

end Utf8

/-- The quality of service of an MQTT message. -/
inductive QoS where
  | atMostOnce
  | atLeastOnce
  | exactlyOnce
  deriving DecidableEq

namespace QoS

/-- The number that stands for a quality of service on the wire. -/
def toNat : QoS → Nat
  | .atMostOnce => 0
  | .atLeastOnce => 1
  | .exactlyOnce => 2

/-- The wire byte of a quality of service. -/
def toByte (qos : QoS) : UInt8 := UInt8.ofNat qos.toNat

/-- Read a wire byte, refusing unknown values. -/
def tryFrom (byte : UInt8) : Option QoS :=
  if byte = 0 then some .atMostOnce
  else if byte = 1 then some .atLeastOnce
  else if byte = 2 then some .exactlyOnce
  else none

end QoS

/-- The retained status of an MQTT message. -/
inductive Retain where
  | notRetained
  | retained
  deriving DecidableEq

/-- MQTT reason codes; every undocumented byte reads as `unknown`. -/
inductive ReasonCode where
  | success
  | grantedQos1
  | grantedQos2
  | disconnectWithWill
  | noMatchingSubscribers
  | noSubscriptionExisted
  | continueAuthentication
  | reauthenticate
  | unspecifiedError
  | malformedPacket
  | protocolError
  | implementationError
  | unsupportedProtocol
  | clientIdentifierInvalid
  | badUsernameOrPassword
  | notAuthorized
  | serverUnavailable
  | serverBusy
  | badAuthMethod
  | keepAliveTimeout
  | sessionTakenOver
  | topicFilterInvalid
  | topicNameInvalid
  | packetIdInUse
  | packetIdNotFound
  | receiveMaxExceeded
  | topicAliasInvalid
  | packetTooLarge
  | messageRateTooHigh
  | quotaExceeded
  | administrativeAction
  | payloadFormatInvalid
  | retainNotSupported
  | qosNotSupported
  | useAnotherServer
  | serverMoved
  | sharedSubscriptionsNotSupported
  | connectionRateExceeded
  | maximumConnectTime
  | subscriptionIdentifiersNotSupported
  | wildcardSubscriptionsNotSupported
  | unknown
  deriving DecidableEq

namespace ReasonCode

/-- The wire byte of a reason code. -/
def toByte : ReasonCode → UInt8
  | .success => 0x00
  | .grantedQos1 => 0x01
  | .grantedQos2 => 0x02
  | .disconnectWithWill => 0x04
  | .noMatchingSubscribers => 0x10
  | .noSubscriptionExisted => 0x11
  | .continueAuthentication => 0x18
  | .reauthenticate => 0x19
  | .unspecifiedError => 0x80
  | .malformedPacket => 0x81
  | .protocolError => 0x82
  | .implementationError => 0x83
  | .unsupportedProtocol => 0x84
  | .clientIdentifierInvalid => 0x85
  | .badUsernameOrPassword => 0x86
  | .notAuthorized => 0x87
  | .serverUnavailable => 0x88
  | .serverBusy => 0x89
  | .badAuthMethod => 0x8C
  | .keepAliveTimeout => 0x8D
  | .sessionTakenOver => 0x8E
  | .topicFilterInvalid => 0x8F
  | .topicNameInvalid => 0x90
  | .packetIdInUse => 0x91
  | .packetIdNotFound => 0x92
  | .receiveMaxExceeded => 0x93
  | .topicAliasInvalid => 0x94
  | .packetTooLarge => 0x95
  | .messageRateTooHigh => 0x96
  | .quotaExceeded => 0x97
  | .administrativeAction => 0x98
  | .payloadFormatInvalid => 0x99
  | .retainNotSupported => 0x9A
  | .qosNotSupported => 0x9B
  | .useAnotherServer => 0x9C
  | .serverMoved => 0x9D
  | .sharedSubscriptionsNotSupported => 0x9E
  | .connectionRateExceeded => 0x9F
  | .maximumConnectTime => 0xA0
  | .subscriptionIdentifiersNotSupported => 0xA1
  | .wildcardSubscriptionsNotSupported => 0xA2
  | .unknown => 0xFF

/-- The documented reason codes, in the order of their bytes. -/
def documented : List ReasonCode :=
  [.success, .grantedQos1, .grantedQos2, .disconnectWithWill, .noMatchingSubscribers,
    .noSubscriptionExisted, .continueAuthentication, .reauthenticate, .unspecifiedError,
    .malformedPacket, .protocolError, .implementationError, .unsupportedProtocol,
    .clientIdentifierInvalid, .badUsernameOrPassword, .notAuthorized, .serverUnavailable,
    .serverBusy, .badAuthMethod, .keepAliveTimeout, .sessionTakenOver, .topicFilterInvalid,
    .topicNameInvalid, .packetIdInUse, .packetIdNotFound, .receiveMaxExceeded,
    .topicAliasInvalid, .packetTooLarge, .messageRateTooHigh, .quotaExceeded,
    .administrativeAction, .payloadFormatInvalid, .retainNotSupported, .qosNotSupported,
    .useAnotherServer, .serverMoved, .sharedSubscriptionsNotSupported, .connectionRateExceeded,
    .maximumConnectTime, .subscriptionIdentifiersNotSupported,
    .wildcardSubscriptionsNotSupported]

/-- Read a wire byte; an undocumented one becomes `unknown`. -/
def fromByte (byte : UInt8) : ReasonCode :=
  (documented.find? fun code => code.toByte == byte).getD .unknown

/-- Codes below `0x80` report success. -/
def isSuccess (code : ReasonCode) : Bool := code.toByte < 0x80

end ReasonCode

/-- Failures caused by broker behaviour or invalid inbound data. -/
inductive PeerError where
  | rejected (code : ReasonCode)
  | invalidPacket
  deriving DecidableEq

/-- Local capacity and sizing failures. -/
inductive ResourceError where
  | bufferTooSmall
  | packetTooLarge
  | inflightExhausted
  deriving DecidableEq

/-- Errors of the packet serializer. -/
inductive SerError where
  | insufficientMemory
  | custom
  deriving DecidableEq

/-- Errors of the packet deserializer. -/
inductive DeError where
  | custom
  | badString
  | badBool
  | badVarint
  | insufficientData
  deriving DecidableEq

/-- Internal protocol errors, before they are mapped to the public ones. -/
inductive ProtocolError where
  | unexpectedPacket
  | malformedPacket
  | inflightMetadataExhausted
  | packetTooLarge
  | encode (error : SerError)
  | deserialization (error : DeError)
  deriving DecidableEq

/-- Errors of the client's operations over a transport with errors of type `τ`. -/
inductive Error (τ : Type) where
  | notReady
  | disconnected
  | invalidRequest
  | peer (error : PeerError)
  | resource (error : ResourceError)
  | transport (error : τ)
  | writeZero
  deriving DecidableEq

/-- Errors of a publication whose payload has errors of type `π`. -/
inductive PubError (π τ : Type) where
  | session (error : Error τ)
  | payload (error : π)
  deriving DecidableEq

variable {π τ : Type}

/-- Serializer errors as the caller sees them. -/
def SerError.toError : SerError → Error τ
  | .insufficientMemory => .resource .bufferTooSmall
  | .custom => .invalidRequest

/-- Protocol errors as the caller sees them. -/
def ProtocolError.toError : ProtocolError → Error τ
  | .unexpectedPacket => .peer .invalidPacket
  | .malformedPacket => .peer .invalidPacket
  | .deserialization _ => .peer .invalidPacket
  | .inflightMetadataExhausted => .resource .inflightExhausted
  | .packetTooLarge => .resource .packetTooLarge
  | .encode error => error.toError

/-- A failure code is a rejection by the peer. -/
def ReasonCode.asResult (code : ReasonCode) : Except PeerError Unit :=
  if code.isSuccess then .ok () else .error (.rejected code)

end Minimq
