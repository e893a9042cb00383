import Minimq.Codec.Properties

/-! The packets of the protocol and the fields they are written as. -/

namespace Minimq

/-- The longest topic of a Will. -/
def willTopicCapacity : Nat := 128

/-- Username and password used in CONNECT. -/
structure Auth where
  userName : Utf8
  password : Bytes
  deriving DecidableEq

/-- A Will message; `Will::new` checks its properties and the length of its topic. -/
structure Will where
  /-- Where the broker publishes the Will. -/
  topic : Utf8
  data : Bytes
  /-- The quality of service of the Will. -/
  qos : QoS
  /-- Whether the broker retains the Will. -/
  retained : Retain
  properties : List Property
  /-- The topic is held in a fixed-capacity string. -/
  topicFits : topic.len ≤ willTopicCapacity
  /-- Only properties that are valid on a Will are accepted. -/
  propertiesValid : properties.all (·.isValidFor .will) = true
  deriving DecidableEq

/-- Broker retain handling policy for a subscription. -/
inductive RetainHandling where
  | immediately
  | ifSubscriptionDoesNotExist
  | never
  deriving DecidableEq

/-- The two bits of a retain handling policy. -/
def RetainHandling.toByte : RetainHandling → UInt8
  | .immediately => 0b00
  | .ifSubscriptionDoesNotExist => 0b01
  | .never => 0b10

/-- Subscription options for one topic filter. -/
structure SubscriptionOptions where
  /-- The highest quality of service delivered. -/
  maximumQos : QoS := .atMostOnce
  /-- Whether to suppress messages of this client. -/
  noLocal : Bool := false
  /-- Whether the retain flag is kept on forwarded messages. -/
  retainAsPublished : Bool := false
  /-- How retained messages are replayed. -/
  retainBehavior : RetainHandling := .immediately
  deriving DecidableEq

/-- The options byte of a subscription. -/
def SubscriptionOptions.toByte (options : SubscriptionOptions) : UInt8 :=
  let value := options.maximumQos.toByte
  let value := if options.noLocal then value ||| 0b100 else value
  let value := if options.retainAsPublished then value ||| 0b1000 else value
  value ||| (options.retainBehavior.toByte <<< 4)

/-- A topic filter and its options. -/
structure TopicFilter where
  topic : Utf8
  options : SubscriptionOptions := {}
  deriving DecidableEq

/-- The connection request. -/
structure Connect where
  /-- The keepalive interval in seconds. -/
  keepalive : UInt16
  properties : Properties
  /-- The client identifier; empty asks the broker for one. -/
  clientId : Utf8
  /-- The credentials, if any. -/
  auth : Option Auth
  will : Option Will
  /-- Whether the broker should discard an earlier session. -/
  cleanStart : Bool

/-- The broker's answer to a connection request. -/
structure ConnAck where
  /-- Whether the broker still has the session. -/
  sessionPresent : Bool
  /-- Whether the broker accepts the connection. -/
  reasonCode : ReasonCode
  /-- The limits the broker announces. -/
  properties : Properties

/-- The header of an outbound publication. -/
structure PublishHeader where
  topic : Utf8
  /-- The packet identifier, absent for QoS 0. -/
  packetId : Option UInt16
  properties : Properties
  retain : Retain
  qos : QoS
  dup : Bool

/-- An inbound publication. -/
structure Publish where
  topic : Utf8
  /-- The packet identifier, absent for QoS 0. -/
  packetId : Option UInt16
  properties : Properties
  payload : Bytes
  retain : Retain
  qos : QoS
  dup : Bool

/-- A subscription request. -/
structure Subscribe where
  packetId : UInt16
  properties : Properties
  topics : List TopicFilter

/-- A request to end subscriptions. -/
structure Unsubscribe where
  packetId : UInt16
  properties : Properties
  topics : List Utf8

/-- A keepalive request. -/
structure PingReq where

/-- A reason code with optional properties, both of which may be left out on the wire. -/
structure Reason where
  reason : Option (ReasonCode × Option Properties)

/-- A bare reason code. -/
def Reason.ofCode (code : ReasonCode) : Reason := ⟨some (code, none)⟩

/-- The reason code, which is success when left out. -/
def Reason.code (reason : Reason) : ReasonCode :=
  match reason.reason with
  | some (code, _) => code
  | none => .success

/-- What all four acknowledgements of a publication carry. -/
structure Ack where
  packetId : UInt16
  reason : Reason

/-- An acknowledgement of a subscription request; UNSUBACK has the same shape. -/
structure SubAck where
  packetId : UInt16
  properties : Properties
  /-- One reason code byte for each filter. -/
  codes : Bytes

/-- The end of a connection. -/
structure Disconnect where
  reasonCode : Option ReasonCode
  properties : Option Properties

/-- A minimal successful DISCONNECT. -/
def Disconnect.success : Disconnect := ⟨none, none⟩

/-- A DISCONNECT with an explicit reason code. -/
def Disconnect.withReason (reasonCode : ReasonCode) : Disconnect := ⟨some reasonCode, none⟩

/-- Ask the broker to publish the configured Will immediately. -/
def Disconnect.withWill : Disconnect := .withReason .disconnectWithWill

/-- Attach properties, which need a reason code in front of them. -/
def Disconnect.withProperties (disconnect : Disconnect) (properties : List Property) :
    Disconnect :=
  ⟨some (disconnect.reasonCode.getD .success), some (.slice properties)⟩

/-- What the constructors and the builder of DISCONNECT can produce. -/
inductive Disconnect.Built : Disconnect → Prop
  | success : Built .success
  | withReason (reasonCode : ReasonCode) : Built (.withReason reasonCode)
  | withWill : Built .withWill
  | withProperties {disconnect : Disconnect} (built : Built disconnect)
      (properties : List Property) : Built (disconnect.withProperties properties)

/-- The acknowledgement of a QoS 1 publication. -/
structure PubAck extends Ack where

/-- The first acknowledgement of a QoS 2 publication. -/
structure PubRec extends Ack where

/-- The release of a QoS 2 publication. -/
structure PubRel extends Ack where

/-- The end of the handshake of a QoS 2 publication. -/
structure PubComp extends Ack where

/-- The flags byte of a connection request. -/
def Connect.flags (connect : Connect) : UInt8 :=
  let flags : UInt8 := if connect.cleanStart then 0b10 else 0
  let flags := match connect.will with
    | none => flags
    | some will =>
      let flags := flags ||| ((0b100 : UInt8) ||| (will.qos.toByte <<< 3))
      if will.retained = .retained then flags ||| 0b100000 else flags
  if connect.auth.isSome then flags ||| 0b11000000 else flags

/-- The name of the protocol in a connection request. -/
def protocolName : Utf8 := ⟨[0x4D, 0x51, 0x54, 0x54], by decide⟩

/-- The fields of a Will. -/
def Will.tokens (will : Will) : List Token :=
  (Properties.slice will.properties).tokens ++ utf8Tokens will.topic ++ binaryTokens will.data

/-- The fixed header of a packet whose flags are given by its type. -/
def plainHeader (kind : MessageType) : FixedHeader := FixedHeader.new kind kind.requiredFlags

instance : ControlPacket Connect where
  fixedHeader _ := plainHeader .connect
  tokens connect :=
    utf8Tokens protocolName ++ [.push [5], .push [connect.flags],
      .push (u16Bytes connect.keepalive)] ++ connect.properties.tokens ++
      utf8Tokens connect.clientId ++
      (match connect.will with
        | some will => will.tokens
        | none => []) ++
      (match connect.auth with
        | some auth => utf8Tokens auth.userName ++ binaryTokens auth.password
        | none => [])

instance : ControlPacket PublishHeader where
  fixedHeader header :=
    let flags := header.qos.toByte <<< 1
    let flags := if header.retain = .retained then flags ||| 1 else flags
    let flags := if header.dup then flags ||| 0b1000 else flags
    FixedHeader.new .publish flags
  tokens header :=
    utf8Tokens header.topic ++
      (match header.packetId with
        | some packetId => [.push (u16Bytes packetId)]
        | none => []) ++
      header.properties.tokens

instance : ControlPacket Subscribe where
  fixedHeader _ := plainHeader .subscribe
  tokens subscribe :=
    [.push (u16Bytes subscribe.packetId)] ++ subscribe.properties.tokens ++
      subscribe.topics.flatMap fun filter =>
        utf8Tokens filter.topic ++ [.push [filter.options.toByte]]

instance : ControlPacket Unsubscribe where
  fixedHeader _ := plainHeader .unsubscribe
  tokens unsubscribe :=
    [.push (u16Bytes unsubscribe.packetId)] ++ unsubscribe.properties.tokens ++
      unsubscribe.topics.flatMap utf8Tokens

instance : ControlPacket PingReq where
  fixedHeader _ := plainHeader .pingReq
  tokens _ := []

/-- The fields of an acknowledgement: the identifier, and the reason as far as it is present. -/
def Ack.tokens (ack : Ack) : List Token :=
  .push (u16Bytes ack.packetId) ::
    match ack.reason.reason with
    | none => []
    | some (code, none) => [.push [code.toByte]]
    | some (code, some properties) => .push [code.toByte] :: properties.tokens

instance : ControlPacket PubAck where
  fixedHeader _ := plainHeader .pubAck
  tokens ack := ack.toAck.tokens

instance : ControlPacket PubRec where
  fixedHeader _ := plainHeader .pubRec
  tokens rec := rec.toAck.tokens

instance : ControlPacket PubRel where
  fixedHeader _ := plainHeader .pubRel
  tokens rel := rel.toAck.tokens

instance : ControlPacket PubComp where
  fixedHeader _ := plainHeader .pubComp
  tokens comp := comp.toAck.tokens

instance : ControlPacket Disconnect where
  fixedHeader _ := plainHeader .disconnect
  tokens disconnect :=
    (match disconnect.reasonCode with
      | some code => [.push [code.toByte]]
      | none => []) ++
    (match disconnect.properties with
      | some properties => properties.tokens
      | none => [])

end Minimq
