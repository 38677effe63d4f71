import MqttAccelero.Mqtt.Incoming
import MqttAccelero.Mqtt.Output
import MqttAccelero.Mqtt.Requests

/-!
# The client

The calls of the application, the callbacks of TCP and the cyclic timer as the
steps of one state machine. Each of them runs to its end before the next one, as
the core lock, which they assert to be held, has it. The callbacks that the
application registers are its own: the one of the connection subscribes once the
server has accepted, the others only report.

What TCP and the timers know of the client is part of the state, with a record of
what has been handed over on each side since the client began to connect. What
TCP answers is given by a function of the number of the call.
-/

namespace MqttAccelero.Mqtt

def mqttCyclicTimerInterval : ℕ := 5
def mqttConnectTimout : ℕ := 100

def errMem : ℤ := -1
def errVal : ℤ := -6
def errIsconn : ℤ := -10
def errConn : ℤ := -11
def errAbrt : ℤ := -13
def errArg : ℤ := -16

inductive MqttConnState where
  | tcpDisconnected
  | tcpConnecting
  | mqttConnecting
  | mqttConnected
deriving DecidableEq, Repr

def mqttMsgTypeConnect : UInt8 := 1
def mqttMsgTypeConnack : UInt8 := 2
def mqttMsgTypePublish : UInt8 := 3
def mqttMsgTypePuback : UInt8 := 4
def mqttMsgTypePubrec : UInt8 := 5
def mqttMsgTypePubrel : UInt8 := 6
def mqttMsgTypePubcomp : UInt8 := 7
def mqttMsgTypeSubscribe : UInt8 := 8
def mqttMsgTypeSuback : UInt8 := 9
def mqttMsgTypeUnsubscribe : UInt8 := 10
def mqttMsgTypeUnsuback : UInt8 := 11
def mqttMsgTypePingreq : UInt8 := 12
def mqttMsgTypePingresp : UInt8 := 13

def mqttCtlPacketType (control : UInt8) : UInt8 :=
  (control &&& 0xf0) >>> 4

def mqttCtlPacketQos (control : UInt8) : UInt8 :=
  (control &&& 0x6) >>> 1

/-- Which callbacks TCP has of the connection: that of its establishment, or those of its use. -/
inductive TcpPcb where
  | connecting
  | established
deriving DecidableEq, Repr

/-- A message as it is written to the ring. -/
structure Message where
  control : UInt8
  remainingLength : UInt16
  body : List UInt8
deriving DecidableEq, Repr

def Message.bytes (message : Message) : List UInt8 :=
  message.control :: Varint.encode 4 message.remainingLength.toNat ++ message.body

/-- A message and how much was waiting in front of it when it was written. -/
structure Written where
  waiting : ℕ
  message : Message
deriving DecidableEq, Repr

/-- The callbacks of the application, as they have been called. -/
inductive Report where
  | connection (status : ℕ)
  | request (arg : ℕ) (err : ℤ)
  | publish (topic : List UInt8) (totLen : UInt32)
  | data (data : List UInt8) (last : Bool)
deriving DecidableEq, Repr

/-- What is reported of a request, if it has a callback. -/
def requestReports (cb : Option ℕ) (err : ℤ) : List Report :=
  (tell cb err).map fun (arg, err) => .request arg err

structure MqttClient where
  cyclicTick : UInt16
  keepAlive : UInt16
  serverWatchdog : UInt16
  pktIdSeq : UInt16
  inpubPktId : UInt16
  connState : MqttConnState
  conn : Option TcpPcb
  requests : Requests
  incoming : Incoming
  output : MqttRingbuf
  /-- How many timeouts of `mqtt_cyclic_timer` are set. -/
  timers : ℕ
  /-- How often `mqtt_output_send` has been called. -/
  sends : ℕ
  /-- The assertions of the code have held. -/
  asserted : Bool
  /-- What TCP has taken. -/
  stream : List UInt8
  written : List Written
  /-- What TCP has delivered. -/
  arrived : List PbufChain
  reports : List Report

def mqttClientNew : MqttClient where
  cyclicTick := 0
  keepAlive := 0
  serverWatchdog := 0
  pktIdSeq := 0
  inpubPktId := 0
  connState := .tcpDisconnected
  conn := none
  requests := ⟨none, fun _ => ⟨none, none, 0, 0⟩⟩
  incoming := ⟨0, fun _ => 0⟩
  output := ⟨0, 0, fun _ => 0⟩
  timers := 0
  sends := 0
  asserted := true
  stream := []
  written := []
  arrived := []
  reports := []

namespace MqttClient

def report (client : MqttClient) (report : Report) : MqttClient :=
  { client with reports := client.reports ++ [report] }

def setRequests (client : MqttClient) (requests : Requests) : MqttClient :=
  { client with requests }

def assert (client : MqttClient) (assertion : Bool) : MqttClient :=
  { client with asserted := client.asserted && assertion }

/-- The message has been appended to the ring, which is `output` now. -/
def write (client : MqttClient) (message : Message) (output : MqttRingbuf) : MqttClient :=
  { client with
    output
    written := client.written ++ [⟨(mqttRingbufLen client.output).toNat, message⟩] }

/-- The callback of a request is called. -/
def complete (client : MqttClient) (cb : Option ℕ) (err : ℤ) : MqttClient :=
  { client with reports := client.reports ++ requestReports cb err }

@[simp]
theorem connState_setRequests (client : MqttClient) (requests : Requests) :
    (client.setRequests requests).connState = client.connState := rfl

@[simp]
theorem connState_write (client : MqttClient) (message : Message) (output : MqttRingbuf) :
    (client.write message output).connState = client.connState := rfl

end MqttClient

def msgGeneratePacketId (client : MqttClient) : MqttClient × UInt16 :=
  let pktIdSeq := client.pktIdSeq + 1
  let pktIdSeq := if pktIdSeq = 0 then pktIdSeq + 1 else pktIdSeq
  ({ client with pktIdSeq }, pktIdSeq)

@[simp]
theorem connState_packetId (client : MqttClient) :
    (msgGeneratePacketId client).1.connState = client.connState := rfl

/-! ## Messages -/

def u16Bytes (value : UInt16) : List UInt8 :=
  [(value >>> 8).toUInt8, (value &&& 0xff).toUInt8]

def stringBytes (str : List UInt8) (length : UInt16) : List UInt8 :=
  u16Bytes length ++ str

/-- The response to a message of the server. -/
def responseMessage (msg qos : UInt8) (pktId : UInt16) : Message :=
  ⟨fixedHeaderByte msg 0 qos 0, 2, u16Bytes pktId⟩

def appendResponse (output : MqttRingbuf) (msg qos : UInt8) (pktId : UInt16) : MqttRingbuf :=
  let output := mqttOutputAppendFixedHeader output msg 0 qos 0 2
  mqttOutputAppendU16 output pktId

def pingreqMessage : Message :=
  ⟨fixedHeaderByte mqttMsgTypePingreq 0 0 0, 0, []⟩

def appendPingreq (output : MqttRingbuf) : MqttRingbuf :=
  mqttOutputAppendFixedHeader output mqttMsgTypePingreq 0 0 0 0

/-- What `mqtt_publish` is given. -/
structure PublishArgs where
  topic : List UInt8
  payload : Option (ℕ → UInt8)
  payloadLength : UInt16
  qos : UInt8
  retain : UInt8
  cb : Option ℕ

/-- The bytes of the payload; there are none without a pointer to them. -/
def PublishArgs.payloadBytes (args : PublishArgs) : List UInt8 :=
  match args.payload with
  | some data => Memory.load data 0 args.payloadLength.toNat
  | none => []

def publishMessage (args : PublishArgs) (pktId remainingLength : UInt16) : Message where
  control := fixedHeaderByte mqttMsgTypePublish 0 args.qos args.retain
  remainingLength
  body := stringBytes args.topic (UInt16.ofNat args.topic.length) ++
    (if 0 < args.qos then u16Bytes pktId else []) ++ args.payloadBytes

/-- The payload is optional. -/
def appendPayload (output : MqttRingbuf) (args : PublishArgs) : MqttRingbuf :=
  match args.payload with
  | some data =>
      if 0 < args.payloadLength then
        mqttOutputAppendBuf output (Memory.load data 0 args.payloadLength.toNat)
      else output
  | none => output

def appendPublish (output : MqttRingbuf) (args : PublishArgs) (pktId remainingLength : UInt16) :
    MqttRingbuf :=
  let output := mqttOutputAppendFixedHeader output mqttMsgTypePublish 0 args.qos args.retain
    remainingLength
  let output := mqttOutputAppendString output args.topic (UInt16.ofNat args.topic.length)
  let output := if 0 < args.qos then mqttOutputAppendU16 output pktId else output
  appendPayload output args

/-- What `mqtt_sub_unsub` is given. -/
structure SubscribeArgs where
  topic : List UInt8
  qos : UInt8
  cb : Option ℕ
  sub : Bool

def SubscribeArgs.msgType (args : SubscribeArgs) : UInt8 :=
  if args.sub then mqttMsgTypeSubscribe else mqttMsgTypeUnsubscribe

/-- The lesser one of the quality asked for and 2. -/
def SubscribeArgs.qosByte (args : SubscribeArgs) : UInt8 :=
  if args.qos < 2 then args.qos else 2

/-- Topic string, packet identifier, and quality for subscribe. -/
def SubscribeArgs.totalLen (args : SubscribeArgs) : ℕ :=
  args.topic.length + 2 + 2 + if args.sub then 1 else 0

def subscribeMessage (args : SubscribeArgs) (pktId remainingLength : UInt16) : Message where
  control := fixedHeaderByte args.msgType 0 1 0
  remainingLength
  body := u16Bytes pktId ++ stringBytes args.topic (UInt16.ofNat args.topic.length) ++
    if args.sub then [args.qosByte] else []

def appendSubscribe (output : MqttRingbuf) (args : SubscribeArgs)
    (pktId remainingLength : UInt16) : MqttRingbuf :=
  let output := mqttOutputAppendFixedHeader output args.msgType 0 1 0 remainingLength
  let output := mqttOutputAppendU16 output pktId
  let output := mqttOutputAppendString output args.topic (UInt16.ofNat args.topic.length)
  if args.sub then mqttOutputAppendU8 output args.qosByte else output

structure MqttConnectClientInfo where
  clientId : List UInt8
  clientUser : Option (List UInt8)
  clientPass : Option (List UInt8)
  keepAlive : UInt16
  willTopic : Option (List UInt8)
  willMsg : Option (List UInt8)
  willQos : UInt8
  willRetain : UInt8

def mqttConnectFlagUsername : UInt8 := 0x80
def mqttConnectFlagPassword : UInt8 := 0x40
def mqttConnectFlagWillRetain : UInt8 := 0x20
def mqttConnectFlagWill : UInt8 := 0x04
def mqttConnectFlagCleanSession : UInt8 := 0x02

/-- The connect flags and the remaining length, as far as they are known. -/
structure ConnectParts where
  flags : UInt8
  remainingLength : UInt16

/-- The remaining length with `more` bytes, unless it overflows. -/
def ConnectParts.lengthen (parts : ConnectParts) (flags : UInt8) (more : ℕ) :
    Except ℤ ConnectParts :=
  let len := parts.remainingLength.toNat + more
  if len ≤ 0xFFFF then .ok ⟨parts.flags ||| flags, UInt16.ofNat len⟩ else .error errVal

def addWill (info : MqttConnectClientInfo) (parts : ConnectParts) : Except ℤ ConnectParts :=
  match info.willTopic, info.willMsg with
  | some topic, some msg =>
      let flags := mqttConnectFlagWill ||| ((info.willQos &&& 3) <<< 3) |||
        (if info.willRetain ≠ 0 then mqttConnectFlagWillRetain else 0)
      if ¬topic.length ≤ 0xFF then .error errVal
      else if topic.length = 0 then .error errVal
      else if ¬msg.length ≤ 0xFF then .error errVal
      else parts.lengthen flags (2 + topic.length + 2 + msg.length)
  | _, _ => .ok parts

/-- The user name or the password. -/
def addCredential (flag : UInt8) (credential : Option (List UInt8)) (parts : ConnectParts) :
    Except ℤ ConnectParts :=
  match credential with
  | some str =>
      if ¬str.length ≤ 0xFFFF then .error errVal
      else if str.length = 0 then .error errVal
      else parts.lengthen flag (2 + str.length)
  | none => .ok parts

def addClientId (info : MqttConnectClientInfo) (parts : ConnectParts) : Except ℤ ConnectParts :=
  if ¬info.clientId.length ≤ 0xFFFF then .error errVal
  else parts.lengthen mqttConnectFlagCleanSession (2 + info.clientId.length)

/-- The length begins with the protocol name, its level, the flags and the keep alive time. -/
def connectParts (info : MqttConnectClientInfo) : Except ℤ ConnectParts :=
  (addWill info ⟨0, 2 + 4 + 1 + 1 + 2⟩).bind fun parts =>
    (addCredential mqttConnectFlagUsername info.clientUser parts).bind fun parts =>
      (addCredential mqttConnectFlagPassword info.clientPass parts).bind (addClientId info)

/-- The protocol name of a connect message. -/
def protocolName : List UInt8 := [0x4D, 0x51, 0x54, 0x54]

def optionalString (flags flag : UInt8) (str : Option (List UInt8)) : List UInt8 :=
  if flags &&& flag ≠ 0 then
    stringBytes (str.getD []) (UInt16.ofNat (str.getD []).length)
  else []

def connectMessage (info : MqttConnectClientInfo) (parts : ConnectParts) : Message where
  control := fixedHeaderByte mqttMsgTypeConnect 0 0 0
  remainingLength := parts.remainingLength
  body := stringBytes protocolName 4 ++ [4, parts.flags] ++ u16Bytes info.keepAlive ++
    stringBytes info.clientId (UInt16.ofNat info.clientId.length) ++
    optionalString parts.flags mqttConnectFlagWill info.willTopic ++
    optionalString parts.flags mqttConnectFlagWill info.willMsg ++
    optionalString parts.flags mqttConnectFlagUsername info.clientUser ++
    optionalString parts.flags mqttConnectFlagPassword info.clientPass

def appendOptionalString (output : MqttRingbuf) (flags flag : UInt8) (str : Option (List UInt8)) :
    MqttRingbuf :=
  if flags &&& flag ≠ 0 then
    mqttOutputAppendString output (str.getD []) (UInt16.ofNat (str.getD []).length)
  else output

def appendConnect (output : MqttRingbuf) (info : MqttConnectClientInfo) (parts : ConnectParts) :
    MqttRingbuf :=
  let output := mqttOutputAppendFixedHeader output mqttMsgTypeConnect 0 0 0 parts.remainingLength
  let output := mqttOutputAppendString output protocolName 4
  let output := mqttOutputAppendU8 output 4
  let output := mqttOutputAppendU8 output parts.flags
  let output := mqttOutputAppendU16 output info.keepAlive
  let output := mqttOutputAppendString output info.clientId (UInt16.ofNat info.clientId.length)
  let output := appendOptionalString output parts.flags mqttConnectFlagWill info.willTopic
  let output := appendOptionalString output parts.flags mqttConnectFlagWill info.willMsg
  let output := appendOptionalString output parts.flags mqttConnectFlagUsername info.clientUser
  appendOptionalString output parts.flags mqttConnectFlagPassword info.clientPass

/-! ## Calls -/

section

variable (tcp : ℕ → TcpAnswers)

/-- `mqtt_output_send` with the ring and the connection of the client. -/
def outputSend (client : MqttClient) : MqttClient :=
  let (output, taken) := mqttOutputSend client.output (tcp client.sends)
  { client.assert client.conn.isSome with
    output, sends := client.sends + 1, stream := client.stream ++ taken }

@[simp]
theorem connState_outputSend (client : MqttClient) :
    (outputSend tcp client).connState = client.connState := rfl

/-- `mqtt_publish` with the packet identifier. -/
def publishIdentified (client : MqttClient) (args : PublishArgs) (pktId : UInt16) (totalLen : ℕ) :
    MqttClient × ℤ :=
  if ¬totalLen ≤ 0xFFFF then (client, errArg)
  else
    let remainingLength := UInt16.ofNat totalLen
    match mqttCreateRequest client.requests pktId args.cb with
    | none => (client, errMem)
    | some (r, requests) =>
        if mqttOutputCheckSpace client.output remainingLength then
          let client := client.setRequests (mqttAppendRequest requests r)
          (outputSend tcp (client.write (publishMessage args pktId remainingLength)
            (appendPublish client.output args pktId remainingLength)), errOk)
        else (client.setRequests (mqttDeleteRequest requests r), errMem)

def mqttPublish (client : MqttClient) (args : PublishArgs) : MqttClient × ℤ :=
  if client.connState = .tcpDisconnected then (client, errConn)
  else if ¬args.topic.length ≤ 0xFFFF - 2 then (client, errArg)
  else
    let totalLen := 2 + args.topic.length + args.payloadLength.toNat
    if 0 < args.qos then
      let (client, pktId) := msgGeneratePacketId client
      publishIdentified tcp client args pktId (totalLen + 2)
    else publishIdentified tcp client args 0 totalLen

def mqttSubUnsub (client : MqttClient) (args : SubscribeArgs) : MqttClient × ℤ :=
  if ¬args.topic.length ≤ 0xFFFF - 2 then (client, errArg)
  else
    if ¬args.totalLen ≤ 0xFFFF then (client, errArg)
    else
      let remainingLength := UInt16.ofNat args.totalLen
      let client := client.assert (args.qos < 3)
      if client.connState = .tcpDisconnected then (client, errConn)
      else
        let (client, pktId) := msgGeneratePacketId client
        match mqttCreateRequest client.requests pktId args.cb with
        | none => (client, errMem)
        | some (r, requests) =>
            if mqttOutputCheckSpace client.output remainingLength then
              let client := client.setRequests (mqttAppendRequest requests r)
              (outputSend tcp (client.write (subscribeMessage args pktId remainingLength)
                (appendSubscribe client.output args pktId remainingLength)), errOk)
            else (client.setRequests (mqttDeleteRequest requests r), errMem)

/-- The topic `$SYS/broker/version`. -/
def versionTopic : List UInt8 :=
  [0x24, 0x53, 0x59, 0x53, 0x2F, 0x62, 0x72, 0x6F, 0x6B, 0x65, 0x72, 0x2F, 0x76, 0x65, 0x72, 0x73,
    0x69, 0x6F, 0x6E]

/-- The callback of the application: its argument stands for the client's information. -/
def connectionCb (client : MqttClient) (status : ℕ) : MqttClient :=
  let client := client.report (.connection status)
  if status = mqttConnectAccepted then (mqttSubUnsub tcp client ⟨versionTopic, 1, some 0, true⟩).1
  else client

def mqttClose (client : MqttClient) (reason : ℕ) : MqttClient :=
  let client := { client with
    conn := none
    requests := mqttClearRequests client.requests
    timers := client.timers - 1 }
  if client.connState ≠ .tcpDisconnected then
    connectionCb tcp { client with connState := .tcpDisconnected } reason
  else client

def mqttDisconnect (client : MqttClient) : MqttClient :=
  if client.connState ≠ .tcpDisconnected then
    mqttClose tcp { client with connState := .tcpDisconnected } 0
  else client

/-- Whether there is a new connection, and what `altcp_bind` and `altcp_connect` return. -/
structure OpenAnswers where
  opened : Bool
  bound : ℤ
  connected : ℤ
deriving DecidableEq, Repr

/-- The client is wiped clean; it keeps its timeouts. -/
def wipe (client : MqttClient) : MqttClient :=
  { mqttClientNew with timers := client.timers, asserted := client.asserted }

def mqttClientConnect (client : MqttClient) (info : MqttConnectClientInfo) (answers : OpenAnswers) :
    MqttClient × ℤ :=
  if client.connState ≠ .tcpDisconnected then (client, errIsconn)
  else
    let client := wipe client
    let client := { client with
      keepAlive := info.keepAlive, requests := mqttInitRequests client.requests }
    match connectParts info with
    | .error err => (client, err)
    | .ok parts =>
        if mqttOutputCheckSpace client.output parts.remainingLength then
          if ¬answers.opened then (client, errMem)
          else if answers.bound ≠ errOk then (client, answers.bound)
          else if answers.connected ≠ errOk then (client, answers.connected)
          else
            let client := { client with conn := some .connecting, connState := .tcpConnecting }
            (client.write (connectMessage info parts) (appendConnect client.output info parts),
              errOk)
        else (client, errMem)

/-! ## The cyclic timer -/

/-- The requests that have expired are reported. -/
def requestsElapsed (client : MqttClient) (t : UInt8) : MqttClient :=
  let (requests, expired) := mqttRequestTimeElapsed client.requests t
  let client := client.setRequests requests
  { client with
    reports := client.reports ++ expired.flatMap fun cb => requestReports cb errTimeout }

/-- The part of the timer that keeps the connection alive. The client may be closed already. -/
def sendKeepAlive (client : MqttClient) : MqttClient :=
  let client := { client with cyclicTick := client.cyclicTick + 1 }
  if client.keepAlive.toNat ≤ client.cyclicTick.toNat * mqttCyclicTimerInterval then
    if mqttOutputCheckSpace client.output 0 then
      { client.write pingreqMessage (appendPingreq client.output) with cyclicTick := 0 }
    else client
  else client

/-- The time of the keep alive functionality. -/
def keepAliveElapsed (client : MqttClient) : MqttClient × Bool :=
  let client := { client with serverWatchdog := client.serverWatchdog + 1 }
  if client.keepAlive.toNat + client.keepAlive.toNat / 2 <
      client.serverWatchdog.toNat * mqttCyclicTimerInterval then
    (sendKeepAlive (mqttClose tcp client mqttConnectTimeout), false)
  else (sendKeepAlive client, true)

/-- The client, and whether the timer is set again. -/
def cyclicElapsed (client : MqttClient) : MqttClient × Bool :=
  if client.connState = .mqttConnecting then
    let client := { client with cyclicTick := client.cyclicTick + 1 }
    if mqttConnectTimout ≤ client.cyclicTick.toNat * mqttCyclicTimerInterval then
      (mqttClose tcp client mqttConnectTimeout, false)
    else (client, true)
  else if client.connState = .mqttConnected then
    let client := requestsElapsed client 5
    if 0 < client.keepAlive then keepAliveElapsed tcp client else (client, true)
  else (client, false)

def mqttCyclicTimer (client : MqttClient) : MqttClient :=
  let (client, restartTimer) := cyclicElapsed tcp client
  if restartTimer then { client with timers := client.timers + 1 } else client

/-! ## Messages of the server -/

def pubAckRecRelResponse (client : MqttClient) (msg : UInt8) (pktId : UInt16) (qos : UInt8) :
    MqttClient × ℤ :=
  if mqttOutputCheckSpace client.output 2 then
    (outputSend tcp (client.write (responseMessage msg qos pktId)
      (appendResponse client.output msg qos pktId)), errOk)
  else (client, errMem)

def connackReceived (client : MqttClient) (fragment : Fragment) : MqttClient × ℕ :=
  if client.connState = .mqttConnecting then
    if fragment.payload.length < 2 then (client, mqttConnectDisconnected)
    else
      let res := (fragment.payload.getD 1 0).toNat
      if res = mqttConnectAccepted then
        (connectionCb tcp { client with cyclicTick := 0, connState := .mqttConnected } res, res)
      else (client, res)
  else (client, mqttConnectAccepted)

/-- A number of 16 bits of a message. -/
def u16At (bytes : List UInt8) (offset : ℕ) : UInt16 :=
  ((bytes.getD offset 0).toUInt16 <<< 8) + (bytes.getD (offset + 1) 0).toUInt16

/-- What stands in front of the payload of a message of the server. -/
structure PublishHeader where
  topic : List UInt8
  pktId : UInt16
  payloadOffset : ℕ
deriving DecidableEq, Repr

/-- How long the packet identifier is. -/
def qosLen (control : UInt8) : ℕ :=
  if mqttCtlPacketQos control ≠ 0 then 2 else 0

/-- The first fragment has the topic, with a byte for its termination, and the identifier. -/
def publishHeader (fragment : Fragment) : Option PublishHeader :=
  let length := fragment.payload.length
  let bufsize := mqttVarHeaderBufferLen - fragment.fixedHdrLen.toNat
  let qos := mqttCtlPacketQos fragment.control
  let qosLen := qosLen fragment.control
  let topicLen := (u16At fragment.payload 0).toNat
  let afterTopic := 2 + topicLen
  if length < 2 + qosLen then none
  else if length - (2 + qosLen) < topicLen ∨ bufsize - (2 + qosLen) < topicLen then none
  else if bufsize < afterTopic + (if qos ≠ 0 then 2 else 1) then none
  else if 0 < qos ∧ length < afterTopic + 2 then none
  else
    some ⟨(fragment.payload.drop 2).take topicLen,
      if 0 < qos then u16At fragment.payload afterTopic else 0, afterTopic + qosLen⟩

/-- The application is told what begins. -/
def publishBegins (client : MqttClient) (fragment : Fragment) (header : PublishHeader) :
    MqttClient :=
  let payloadLength := UInt32.ofNat (fragment.payload.length - header.payloadOffset)
  { client with inpubPktId := header.pktId }.report
    (.publish header.topic (fragment.remainingLength + payloadLength))

/-- A part of the payload is passed on, and the message is answered after the last one. -/
def publishContinues (client : MqttClient) (fragment : Fragment) (payloadOffset : ℕ) :
    MqttClient × ℕ :=
  let qos := mqttCtlPacketQos fragment.control
  let payloadLength := fragment.payload.length - payloadOffset
  let last := decide (fragment.remainingLength = 0)
  if 0 < payloadLength ∨ last then
    if fragment.payload.length < payloadOffset + payloadLength then
      (client, mqttConnectDisconnected)
    else
      let client := client.report
        (.data ((fragment.payload.drop payloadOffset).take payloadLength) last)
      if last ∧ 0 < qos then
        let respMsg := if qos = 1 then mqttMsgTypePuback else mqttMsgTypePubrec
        ((pubAckRecRelResponse tcp client respMsg client.inpubPktId 0).1, mqttConnectAccepted)
      else (client, mqttConnectAccepted)
  else (client, mqttConnectAccepted)

/-- The first fragment of a message has its topic. -/
def publishReceived (client : MqttClient) (fragment : Fragment) : MqttClient × ℕ :=
  if fragment.msgIdx.toNat = fragment.fixedHdrLen.toNat + fragment.payload.length then
    match publishHeader fragment with
    | none => (client, mqttConnectDisconnected)
    | some header =>
        publishContinues tcp (publishBegins client fragment header) fragment header.payloadOffset
  else publishContinues tcp client fragment 0

/-- The answer to a request. A short one leaves its item in no list. -/
def answerReceived (client : MqttClient) (fragment : Fragment) (pktId : UInt16) : MqttClient × ℕ :=
  match mqttTakeRequest client.requests pktId with
  | (requests, none) => (client.setRequests requests, mqttConnectAccepted)
  | (requests, some r) =>
      let cb := (requests.reqList r).cb
      let deleted := client.setRequests (mqttDeleteRequest requests r)
      if mqttCtlPacketType fragment.control = mqttMsgTypeSuback then
        if fragment.payload.length < 3 then
          (client.setRequests requests, mqttConnectDisconnected)
        else
          let err := if fragment.payload.getD 2 0 < 3 then errOk else errAbrt
          (deleted.complete cb err, mqttConnectAccepted)
      else (deleted.complete cb errOk, mqttConnectAccepted)

/-- The messages that begin with a packet identifier. -/
def identifiedReceived (client : MqttClient) (fragment : Fragment) : MqttClient × ℕ :=
  let pktType := mqttCtlPacketType fragment.control
  if fragment.payload.length < 2 then (client, mqttConnectDisconnected)
  else
    let pktId := u16At fragment.payload 0
    if pktId = 0 then (client, mqttConnectDisconnected)
    else if pktType = mqttMsgTypePubrec then
      ((pubAckRecRelResponse tcp client mqttMsgTypePubrel pktId 1).1, mqttConnectAccepted)
    else if pktType = mqttMsgTypePubrel then
      ((pubAckRecRelResponse tcp client mqttMsgTypePubcomp pktId 0).1, mqttConnectAccepted)
    else if pktType = mqttMsgTypeSuback ∨ pktType = mqttMsgTypeUnsuback ∨
        pktType = mqttMsgTypePubcomp ∨ pktType = mqttMsgTypePuback then
      answerReceived client fragment pktId
    else (client, mqttConnectDisconnected)

def mqttMessageReceived (client : MqttClient) (fragment : Fragment) : MqttClient × ℕ :=
  let client := client.assert (fragment.fixedHdrLen.toNat ≤ fragment.msgIdx.toNat)
  let pktType := mqttCtlPacketType fragment.control
  if ¬fragment.fixedHdrLen.toNat + fragment.payload.length ≤ mqttVarHeaderBufferLen then
    (client, mqttConnectDisconnected)
  else if pktType = mqttMsgTypeConnack then connackReceived tcp client fragment
  else if pktType = mqttMsgTypePingresp then (client, mqttConnectAccepted)
  else if pktType = mqttMsgTypePublish then publishReceived tcp client fragment
  else identifiedReceived tcp client fragment

/-! ## Callbacks of TCP -/

/-- `none` if the parser does not return. -/
def mqttTcpRecvCb (client : MqttClient) (p : Option PbufChain) (err : ℤ) : Option MqttClient :=
  match p with
  | none => some (mqttClose tcp client mqttConnectDisconnected)
  | some p =>
      if err ≠ errOk then some client
      else
        (mqttParseIncoming (mqttMessageReceived tcp) p client client.incoming).map
          fun (current, incoming, res) =>
            let client := { current with incoming, arrived := client.arrived ++ [p] }
            let client := if res ≠ mqttConnectAccepted then mqttClose tcp client res else client
            if client.keepAlive ≠ 0 then { client with serverWatchdog := 0 } else client

/-- The requests that no answer follows are complete. Each pass but the last takes one. -/
def completeQos0 : (fuel : ℕ) → MqttClient → MqttClient
  | 0, client => client
  | fuel + 1, client =>
      match mqttTakeRequest client.requests 0 with
      | (requests, none) => client.setRequests requests
      | (requests, some r) =>
          completeQos0 fuel ((client.setRequests (mqttDeleteRequest requests r)).complete
            (requests.reqList r).cb errOk)

def mqttTcpSentCb (client : MqttClient) : MqttClient :=
  if client.connState = .mqttConnected then
    let client := { client with cyclicTick := 0, serverWatchdog := 0 }
    outputSend tcp (completeQos0 (mqttReqMaxInFlight + 1) client)
  else client

def mqttTcpErrCb (client : MqttClient) : MqttClient :=
  mqttClose tcp { client with conn := none } mqttConnectDisconnected

def mqttTcpPollCb (client : MqttClient) : MqttClient :=
  if client.connState = .mqttConnected then outputSend tcp client else client

def mqttTcpConnectCb (client : MqttClient) (err : ℤ) : MqttClient :=
  if err ≠ errOk then client
  else
    outputSend tcp { client with
      incoming := { client.incoming with msgIdx := 0 }
      conn := some .established
      connState := .mqttConnecting
      timers := client.timers + 1
      cyclicTick := 0 }

/-! ## Runs -/

inductive ClientEvent where
  | connect (info : MqttConnectClientInfo) (answers : OpenAnswers)
  | disconnect
  | publish (args : PublishArgs)
  | subUnsub (args : SubscribeArgs)
  | cyclicTimer
  | tcpConnected (err : ℤ)
  | tcpRecv (p : Option PbufChain) (err : ℤ)
  | tcpSent
  | tcpPoll
  | tcpErr

/-- TCP calls what is registered with the connection. -/
def clientStep (client : MqttClient) : ClientEvent → Option MqttClient
  | .connect info answers => some (mqttClientConnect client info answers).1
  | .disconnect => some (mqttDisconnect tcp client)
  | .publish args => some (mqttPublish tcp client args).1
  | .subUnsub args => some (mqttSubUnsub tcp client args).1
  | .cyclicTimer =>
      if 0 < client.timers then some (mqttCyclicTimer tcp { client with timers := client.timers - 1 })
      else none
  | .tcpConnected err =>
      if client.conn = some .connecting then some (mqttTcpConnectCb tcp client err) else none
  | .tcpRecv p err =>
      if client.conn = some .established then mqttTcpRecvCb tcp client p err else none
  | .tcpSent => if client.conn = some .established then some (mqttTcpSentCb tcp client) else none
  | .tcpPoll => if client.conn = some .established then some (mqttTcpPollCb tcp client) else none
  | .tcpErr => if client.conn.isSome then some (mqttTcpErrCb tcp client) else none

def clientSystem : System MqttClient ClientEvent where
  init := mqttClientNew
  step := clientStep tcp

end

end MqttAccelero.Mqtt
