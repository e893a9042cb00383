import Minimq.Codec.Serializer

/-! MQTT properties: identifiers, sizes, validity and the fields they are written as. -/

namespace Minimq

/-- The properties of MQTT version 5. -/
inductive Property where
  | payloadFormatIndicator (value : UInt8)
  | messageExpiryInterval (value : UInt32)
  | contentType (value : Utf8)
  | responseTopic (value : Utf8)
  | correlationData (value : Bytes)
  | subscriptionIdentifier (value : UInt32)
  | sessionExpiryInterval (value : UInt32)
  | assignedClientIdentifier (value : Utf8)
  | serverKeepAlive (value : UInt16)
  | authenticationMethod (value : Utf8)
  | authenticationData (value : Bytes)
  | requestProblemInformation (value : UInt8)
  | willDelayInterval (value : UInt32)
  | requestResponseInformation (value : UInt8)
  | responseInformation (value : Utf8)
  | serverReference (value : Utf8)
  | reasonString (value : Utf8)
  | receiveMaximum (value : UInt16)
  | topicAliasMaximum (value : UInt16)
  | topicAlias (value : UInt16)
  | maximumQoS (value : UInt8)
  | retainAvailable (value : UInt8)
  | userProperty (key value : Utf8)
  | maximumPacketSize (value : UInt32)
  | wildcardSubscriptionAvailable (value : UInt8)
  | subscriptionIdentifierAvailable (value : UInt8)
  | sharedSubscriptionAvailable (value : UInt8)
  deriving DecidableEq

/-- The packets whose outbound properties are checked. -/
inductive PropertyContext where
  | publish
  | subscribe
  | unsubscribe
  | disconnect
  | will
  deriving DecidableEq

/-- The fields of a 16-bit length and a string. -/
def utf8Tokens (text : Utf8) : List Token :=
  if text.len ≤ 65535 then [.push (u16Bytes (UInt16.ofNat text.len)), .push text.bytes]
  else [.refuse]

/-- The fields of a 16-bit length and binary data, which is written byte by byte. -/
def binaryTokens (data : Bytes) : List Token :=
  if data.length ≤ 65535 then
    .push (u16Bytes (UInt16.ofNat data.length)) :: data.map fun byte => .push [byte]
  else [.refuse]

/-- The fields of a variable byte integer. -/
def varintTokens (value : Nat) : List Token :=
  match writeMqttU32Varint value with
  | some encoded => encoded.map fun byte => .push [byte]
  | none => [.refuse]

namespace Property

/-- The identifier in front of a property's value. -/
def identifier : Property → Nat
  | .payloadFormatIndicator _ => 0x01
  | .messageExpiryInterval _ => 0x02
  | .contentType _ => 0x03
  | .responseTopic _ => 0x08
  | .correlationData _ => 0x09
  | .subscriptionIdentifier _ => 0x0B
  | .sessionExpiryInterval _ => 0x11
  | .assignedClientIdentifier _ => 0x12
  | .serverKeepAlive _ => 0x13
  | .authenticationMethod _ => 0x15
  | .authenticationData _ => 0x16
  | .requestProblemInformation _ => 0x17
  | .willDelayInterval _ => 0x18
  | .requestResponseInformation _ => 0x19
  | .responseInformation _ => 0x1A
  | .serverReference _ => 0x1C
  | .reasonString _ => 0x1F
  | .receiveMaximum _ => 0x21
  | .topicAliasMaximum _ => 0x22
  | .topicAlias _ => 0x23
  | .maximumQoS _ => 0x24
  | .retainAvailable _ => 0x25
  | .userProperty _ _ => 0x26
  | .maximumPacketSize _ => 0x27
  | .wildcardSubscriptionAvailable _ => 0x28
  | .subscriptionIdentifierAvailable _ => 0x29
  | .sharedSubscriptionAvailable _ => 0x2A

/-- Whether a value lies in the range MQTT gives it. -/
def hasValidValue : Property → Bool
  | .payloadFormatIndicator value
  | .requestProblemInformation value
  | .requestResponseInformation value
  | .retainAvailable value
  | .wildcardSubscriptionAvailable value
  | .subscriptionIdentifierAvailable value
  | .sharedSubscriptionAvailable value => value ≤ 1
  | .maximumQoS value => value ≤ 2
  | .subscriptionIdentifier value => 1 ≤ value.toNat && value.toNat ≤ mqttVarintMax
  | _ => true

/-- Whether a property may be sent in a packet of the given kind. -/
def isValidFor (property : Property) (context : PropertyContext) : Bool :=
  property.hasValidValue &&
    match context, property with
    | .publish, .payloadFormatIndicator _ | .will, .payloadFormatIndicator _ => true
    | .publish, .messageExpiryInterval _ | .will, .messageExpiryInterval _ => true
    | .publish, .contentType _ | .will, .contentType _ => true
    | .publish, .responseTopic _ | .will, .responseTopic _ => true
    | .publish, .correlationData _ | .will, .correlationData _ => true
    | .publish, .userProperty _ _ | .will, .userProperty _ _ => true
    | .publish, .topicAlias _ => true
    | .subscribe, .subscriptionIdentifier _ | .subscribe, .userProperty _ _ => true
    | .unsubscribe, .userProperty _ _ => true
    | .disconnect, .sessionExpiryInterval _ | .disconnect, .reasonString _ => true
    | .disconnect, .userProperty _ _ | .disconnect, .serverReference _ => true
    | _, _ => false

/-- The encoded size of a property, with its identifier. -/
def size (property : Property) : Nat :=
  let identifierLength := encodedLen property.identifier
  match property with
  | .contentType data | .responseTopic data | .authenticationMethod data
  | .responseInformation data | .serverReference data | .reasonString data
  | .assignedClientIdentifier data => data.len + 2 + identifierLength
  | .userProperty key value => (value.len + 2) + (key.len + 2) + identifierLength
  | .correlationData data | .authenticationData data => data.length + 2 + identifierLength
  | .subscriptionIdentifier id => encodedLen id.toNat + identifierLength
  | .messageExpiryInterval _ | .sessionExpiryInterval _ | .willDelayInterval _
  | .maximumPacketSize _ => 4 + identifierLength
  | .serverKeepAlive _ | .receiveMaximum _ | .topicAliasMaximum _ | .topicAlias _ =>
    2 + identifierLength
  | .payloadFormatIndicator _ | .requestProblemInformation _ | .requestResponseInformation _
  | .maximumQoS _ | .retainAvailable _ | .wildcardSubscriptionAvailable _
  | .subscriptionIdentifierAvailable _ | .sharedSubscriptionAvailable _ => 1 + identifierLength

/-- The fields of a property's value. -/
def valueTokens : Property → List Token
  | .payloadFormatIndicator value | .requestProblemInformation value
  | .requestResponseInformation value | .maximumQoS value | .retainAvailable value
  | .wildcardSubscriptionAvailable value | .subscriptionIdentifierAvailable value
  | .sharedSubscriptionAvailable value => [.push [value]]
  | .serverKeepAlive value | .receiveMaximum value | .topicAliasMaximum value
  | .topicAlias value => [.push (u16Bytes value)]
  | .messageExpiryInterval value | .sessionExpiryInterval value | .willDelayInterval value
  | .maximumPacketSize value => [.push (u32Bytes value)]
  | .contentType value | .responseTopic value | .assignedClientIdentifier value
  | .authenticationMethod value | .responseInformation value | .serverReference value
  | .reasonString value => utf8Tokens value
  | .correlationData value | .authenticationData value => binaryTokens value
  | .subscriptionIdentifier value => varintTokens value.toNat
  | .userProperty key value => utf8Tokens key ++ utf8Tokens value

/-- The fields of a property: its identifier and its value. -/
def tokens (property : Property) : List Token :=
  varintTokens property.identifier ++ property.valueTokens

end Property

/-- The properties attached to a packet. -/
inductive Properties where
  /-- Decoded properties of an outbound packet. -/
  | slice (properties : List Property)
  /-- The undecoded property block of an inbound packet. -/
  | encoded (block : Bytes)
  /-- Outbound properties with correlation data in front. -/
  | withCorrelation (correlation : Property) (properties : List Property)
  deriving DecidableEq

namespace Properties

/-- The encoded size of a property block, without its length. -/
def size : Properties → Nat
  | .slice properties => (properties.map Property.size).sum
  | .withCorrelation correlation properties =>
    ((properties ++ [correlation]).map Property.size).sum
  | .encoded block => block.length

/-- The fields of a property block: its length and its properties. -/
def tokens (properties : Properties) : List Token :=
  varintTokens (properties.size % 2 ^ 32) ++
    match properties with
    | .slice properties => properties.flatMap Property.tokens
    | .withCorrelation correlation properties =>
      correlation.tokens ++ properties.flatMap Property.tokens
    | .encoded block => block.map fun byte => .push [byte]

end Properties

end Minimq
