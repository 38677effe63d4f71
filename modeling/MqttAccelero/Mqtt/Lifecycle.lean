import Mathlib.Tactic.IntervalCases
import MqttAccelero.Mqtt.Traffic

/-!
# The life of a connection

What holds of the client between any two of its steps: its connection and its
timer are those of its state, its requests are linked and none of their items is
lost, what TCP has taken is what has been written, and the counters of the timer
have not passed their bounds.

Inside of a step, the timer that has fired is not set again yet, and the item of a
request whose answer was too short may be lost, until the connection is closed.
-/

namespace MqttAccelero.Mqtt

/-! ## What calls keep -/

/-- What is passed on of the messages of the server. -/
def Report.isDelivery : Report → Bool
  | .publish _ _ => true
  | .data _ _ => true
  | _ => false

def MqttClient.deliveries (client : MqttClient) : List Report :=
  client.reports.filter Report.isDelivery

theorem requestReports_deliveries (cb : Option ℕ) (err : ℤ) :
    (requestReports cb err).filter Report.isDelivery = [] := by
  rw [List.filter_eq_nil_iff]
  intro one member
  rcases List.mem_map.mp member with ⟨_, _, rfl⟩
  exact Bool.false_ne_true

theorem mqttCtlPacketType_fixedHeaderByte (msgType fdup fqos fretain : UInt8) :
    mqttCtlPacketType (fixedHeaderByte msgType fdup fqos fretain) = msgType &&& 0x0f := by
  rw [mqttCtlPacketType, fixedHeaderByte]
  apply UInt8.toBitVec_inj.mp
  ext bit bound
  interval_cases bit <;> simp

/-- PUBACK and PUBREC acknowledge a message of the server. -/
def Message.isAcknowledgement (message : Message) : Bool :=
  mqttCtlPacketType message.control = mqttMsgTypePuback ∨
    mqttCtlPacketType message.control = mqttMsgTypePubrec

def MqttClient.acknowledgements (client : MqttClient) : List Message :=
  (client.written.map Written.message).filter Message.isAcknowledgement

theorem acknowledgements_write (client : MqttClient) (message : Message) (output : MqttRingbuf) :
    (client.write message output).acknowledgements =
      client.acknowledgements ++ if message.isAcknowledgement then [message] else [] := by
  simp [MqttClient.acknowledgements, MqttClient.write, List.filter_cons]

/-- Messages have been written and requests made, and nothing else. -/
structure SameLink (client next : MqttClient) : Prop where
  connState : next.connState = client.connState
  conn : next.conn = client.conn
  timers : next.timers = client.timers
  cyclicTick : next.cyclicTick = client.cyclicTick
  keepAlive : next.keepAlive = client.keepAlive
  serverWatchdog : next.serverWatchdog = client.serverWatchdog
  incoming : next.incoming = client.incoming
  arrived : next.arrived = client.arrived
  inpubPktId : next.inpubPktId = client.inpubPktId
  deliveries : next.deliveries = client.deliveries
  acknowledgements : next.acknowledgements = client.acknowledgements

namespace SameLink

variable {client middle next : MqttClient} {tcp : ℕ → TcpAnswers}

theorem refl (client : MqttClient) : SameLink client client :=
  ⟨rfl, rfl, rfl, rfl, rfl, rfl, rfl, rfl, rfl, rfl, rfl⟩

theorem trans (first : SameLink client middle) (second : SameLink middle next) : SameLink client next :=
  ⟨second.connState.trans first.connState, second.conn.trans first.conn,
    second.timers.trans first.timers, second.cyclicTick.trans first.cyclicTick,
    second.keepAlive.trans first.keepAlive, second.serverWatchdog.trans first.serverWatchdog,
    second.incoming.trans first.incoming, second.arrived.trans first.arrived,
    second.inpubPktId.trans first.inpubPktId, second.deliveries.trans first.deliveries,
    second.acknowledgements.trans first.acknowledgements⟩

theorem send (client : MqttClient) : SameLink client (outputSend tcp client) :=
  ⟨rfl, rfl, rfl, rfl, rfl, rfl, rfl, rfl, rfl, rfl, rfl⟩

theorem write (client : MqttClient) {message : Message} (output : MqttRingbuf)
    (other : message.isAcknowledgement = false) : SameLink client (client.write message output) := by
  refine ⟨rfl, rfl, rfl, rfl, rfl, rfl, rfl, rfl, rfl, rfl, ?_⟩
  simp [acknowledgements_write, other]

theorem setRequests (client : MqttClient) (requests : Requests) :
    SameLink client (client.setRequests requests) :=
  ⟨rfl, rfl, rfl, rfl, rfl, rfl, rfl, rfl, rfl, rfl, rfl⟩

theorem assert (client : MqttClient) (assertion : Bool) : SameLink client (client.assert assertion) :=
  ⟨rfl, rfl, rfl, rfl, rfl, rfl, rfl, rfl, rfl, rfl, rfl⟩

theorem packetId (client : MqttClient) : SameLink client (msgGeneratePacketId client).1 :=
  ⟨rfl, rfl, rfl, rfl, rfl, rfl, rfl, rfl, rfl, rfl, rfl⟩

theorem report (client : MqttClient) {report : Report} (other : report.isDelivery = false) :
    SameLink client (client.report report) := by
  refine ⟨rfl, rfl, rfl, rfl, rfl, rfl, rfl, rfl, rfl, ?_, rfl⟩
  simp [MqttClient.deliveries, MqttClient.report, other]

theorem complete (client : MqttClient) (cb : Option ℕ) (err : ℤ) :
    SameLink client (client.complete cb err) := by
  refine ⟨rfl, rfl, rfl, rfl, rfl, rfl, rfl, rfl, rfl, ?_, rfl⟩
  simp only [MqttClient.deliveries, MqttClient.complete, List.filter_append,
    requestReports_deliveries, List.append_nil]

theorem publishMessage_isAcknowledgement (args : PublishArgs) (pktId remainingLength : UInt16) :
    (publishMessage args pktId remainingLength).isAcknowledgement = false := by
  simp only [Message.isAcknowledgement, publishMessage, mqttCtlPacketType_fixedHeaderByte]
  decide

theorem subscribeMessage_isAcknowledgement (args : SubscribeArgs) (pktId remainingLength : UInt16) :
    (subscribeMessage args pktId remainingLength).isAcknowledgement = false := by
  simp only [Message.isAcknowledgement, subscribeMessage, mqttCtlPacketType_fixedHeaderByte,
    SubscribeArgs.msgType]
  split <;> decide

theorem publishIdentified (client : MqttClient) (args : PublishArgs) (pktId : UInt16)
    (totalLen : ℕ) : SameLink client (publishIdentified tcp client args pktId totalLen).1 := by
  simp only [Mqtt.publishIdentified]
  split
  · exact refl client
  split
  · exact refl client
  split
  · exact (setRequests client _).trans
      ((write _ _ (publishMessage_isAcknowledgement args pktId _)).trans (send _))
  · exact setRequests client _

theorem mqttPublish (client : MqttClient) (args : PublishArgs) :
    SameLink client (mqttPublish tcp client args).1 := by
  simp only [Mqtt.mqttPublish]
  split
  · exact refl client
  split
  · exact refl client
  split
  · exact (packetId client).trans (publishIdentified _ args _ _)
  · exact publishIdentified client args _ _

theorem mqttSubUnsub (client : MqttClient) (args : SubscribeArgs) :
    SameLink client (mqttSubUnsub tcp client args).1 := by
  simp only [Mqtt.mqttSubUnsub]
  split
  · exact refl client
  split
  · exact refl client
  have asserted := assert client (args.qos < 3)
  split
  · exact asserted
  replace asserted := asserted.trans (packetId _)
  split
  · exact asserted
  split
  · exact asserted.trans ((setRequests _ _).trans
      ((write _ _ (subscribeMessage_isAcknowledgement args _ _)).trans (send _)))
  · exact asserted.trans (setRequests _ _)

theorem connectionCb (client : MqttClient) (status : ℕ) :
    SameLink client (connectionCb tcp client status) := by
  simp only [Mqtt.connectionCb]
  split
  · exact (report client rfl).trans (mqttSubUnsub _ _)
  · exact report client rfl

theorem pubAckRecRelResponse (client : MqttClient) {msg qos : UInt8} {pktId : UInt16}
    (other : (responseMessage msg qos pktId).isAcknowledgement = false) :
    SameLink client (pubAckRecRelResponse tcp client msg pktId qos).1 := by
  simp only [Mqtt.pubAckRecRelResponse]
  split
  · exact (write client _ other).trans (send _)
  · exact refl client

theorem mqttTcpPollCb (client : MqttClient) : SameLink client (mqttTcpPollCb tcp client) := by
  rw [Mqtt.mqttTcpPollCb]
  split
  · exact send client
  · exact refl client

end SameLink

theorem connState_pubAckRecRelResponse {tcp : ℕ → TcpAnswers} (client : MqttClient)
    (msg qos : UInt8) (pktId : UInt16) :
    (pubAckRecRelResponse tcp client msg pktId qos).1.connState = client.connState := by
  rw [pubAckRecRelResponse]
  split
  · simp
  · rfl

theorem connState_mqttClose {tcp : ℕ → TcpAnswers} (client : MqttClient) (reason : ℕ) :
    (mqttClose tcp client reason).connState = .tcpDisconnected := by
  rw [mqttClose]
  split
  · exact (SameLink.connectionCb _ reason).connState
  · rename_i dead
    exact not_not.mp dead

/-! ## The invariant -/

def connOf : MqttConnState → Option TcpPcb
  | .tcpDisconnected => none
  | .tcpConnecting => some .connecting
  | .mqttConnecting => some .established
  | .mqttConnected => some .established

def timersOf : MqttConnState → ℕ
  | .tcpDisconnected => 0
  | .tcpConnecting => 0
  | .mqttConnecting => 1
  | .mqttConnected => 1

/-- The connection and the timer of the state, of which `fired` timeouts are over. -/
structure Wired (fired : ℕ) (connState : MqttConnState) (conn : Option TcpPcb) (timers : ℕ) :
    Prop where
  conn_eq : conn = connOf connState
  timers_eq : timers + fired = timersOf connState

structure Queued (usable : Prop) (connState : MqttConnState) (requests : Requests) : Prop where
  wf : requests.Wf
  exact : usable → connState ≠ .tcpDisconnected → requests.Exact
  idle : connState = .tcpDisconnected → requests.pendReqQueue = none

/-- No more time has passed without a sign of the server than is allowed. -/
structure Timely (connState : MqttConnState) (cyclicTick keepAlive serverWatchdog : UInt16) :
    Prop where
  connecting : connState = .mqttConnecting →
    cyclicTick.toNat * mqttCyclicTimerInterval < mqttConnectTimout
  watched : connState ≠ .tcpDisconnected →
    serverWatchdog.toNat * mqttCyclicTimerInterval ≤ keepAlive.toNat + keepAlive.toNat / 2

/-- If the calls have been proper, the assertions have held and the messages are whole. -/
structure Obeyed (ok : Prop) (asserted : Bool) (written : List Written) : Prop where
  asserted : ok → asserted = true
  whole : ok → ∀ one ∈ written, one.message.Whole

structure Sound (ok usable : Prop) (fired : ℕ) (client : MqttClient) : Prop where
  traffic : Traffic client.output client.stream client.written
  obeyed : Obeyed ok client.asserted client.written
  queued : Queued usable client.connState client.requests
  wired : Wired fired client.connState client.conn client.timers
  timely : Timely client.connState client.cyclicTick client.keepAlive client.serverWatchdog

theorem noTicks : (0 : UInt16).toNat * mqttCyclicTimerInterval < mqttConnectTimout := by decide

theorem Wired.isSome {fired : ℕ} {connState : MqttConnState} {conn : Option TcpPcb} {timers : ℕ}
    (wired : Wired fired connState conn timers) (live : connState ≠ .tcpDisconnected) :
    conn.isSome = true := by
  rw [wired.conn_eq]
  cases connState with
  | tcpDisconnected => exact absurd rfl live
  | tcpConnecting => rfl
  | mqttConnecting => rfl
  | mqttConnected => rfl

theorem Obeyed.assert {ok : Prop} {asserted : Bool} {written : List Written}
    (obeyed : Obeyed ok asserted written) {assertion : Bool} (holds : ok → assertion = true) :
    Obeyed ok (asserted && assertion) written := by
  refine ⟨fun proper => ?_, obeyed.whole⟩
  rw [obeyed.asserted proper, holds proper]
  rfl

theorem Obeyed.weaken {ok other : Prop} {asserted : Bool} {written : List Written}
    (obeyed : Obeyed ok asserted written) (implies : other → ok) :
    Obeyed other asserted written :=
  ⟨fun proper => obeyed.asserted (implies proper), fun proper => obeyed.whole (implies proper)⟩

namespace Sound

variable {ok usable : Prop} {fired : ℕ} {client : MqttClient} {tcp : ℕ → TcpAnswers}

theorem init : Sound True True 0 mqttClientNew := by
  refine ⟨Traffic.init, ⟨fun _ => rfl, fun _ => nofun⟩, ?_, ⟨rfl, rfl⟩, ⟨nofun, nofun⟩⟩
  exact ⟨(@Requests.Wf.empty mqttClientNew.requests rfl).1, fun _ live => absurd rfl live,
    fun _ => rfl⟩

theorem weaken {other : Prop} (sound : Sound ok usable fired client) (implies : other → ok) :
    Sound other usable fired client :=
  ⟨sound.traffic, sound.obeyed.weaken implies, sound.queued, sound.wired, sound.timely⟩

theorem restrict {other : Prop} (sound : Sound ok usable fired client) (implies : other → usable) :
    Sound ok other fired client :=
  ⟨sound.traffic, sound.obeyed,
    ⟨sound.queued.wf, fun usable => sound.queued.exact (implies usable), sound.queued.idle⟩,
    sound.wired, sound.timely⟩

theorem report (sound : Sound ok usable fired client) (report : Report) :
    Sound ok usable fired (client.report report) :=
  ⟨sound.traffic, sound.obeyed, sound.queued, sound.wired, sound.timely⟩

theorem complete (sound : Sound ok usable fired client) (cb : Option ℕ) (err : ℤ) :
    Sound ok usable fired (client.complete cb err) :=
  ⟨sound.traffic, sound.obeyed, sound.queued, sound.wired, sound.timely⟩

theorem assert (sound : Sound ok usable fired client) {assertion : Bool}
    (holds : ok → assertion = true) : Sound ok usable fired (client.assert assertion) :=
  ⟨sound.traffic, sound.obeyed.assert holds, sound.queued, sound.wired, sound.timely⟩

theorem send (sound : Sound ok usable fired client) (live : client.connState ≠ .tcpDisconnected) :
    Sound ok usable fired (outputSend tcp client) :=
  ⟨sound.traffic.send _, sound.obeyed.assert fun _ => sound.wired.isSome live, sound.queued,
    sound.wired, sound.timely⟩

theorem write (sound : Sound ok usable fired client) {message : Message} {output : MqttRingbuf}
    (appended : output = message.bytes.foldl mqttRingbufPut client.output)
    (room : mqttOutputCheckSpace client.output message.remainingLength = true)
    (whole : ok → message.Whole) : Sound ok usable fired (client.write message output) := by
  refine ⟨sound.traffic.write appended room, ⟨sound.obeyed.asserted, ?_⟩, sound.queued,
    sound.wired, sound.timely⟩
  intro proper one member
  rcases List.mem_append.mp member with before | here
  · exact sound.obeyed.whole proper one before
  · rw [List.mem_singleton.mp here]
    exact whole proper

theorem packetId (sound : Sound ok usable fired client) :
    Sound ok usable fired (msgGeneratePacketId client).1 :=
  ⟨sound.traffic, sound.obeyed, sound.queued, sound.wired, sound.timely⟩

theorem setRequests {other : Prop} {requests : Requests} (sound : Sound ok usable fired client)
    (queued : Queued other client.connState requests) :
    Sound ok other fired (client.setRequests requests) :=
  ⟨sound.traffic, sound.obeyed, queued, sound.wired, sound.timely⟩

/-- A new request is in the queue or its item is free again. -/
theorem submit {pktId : UInt16} {cb : Option ℕ} {r : RequestPtr} {requests : Requests}
    (sound : Sound ok True fired client) (live : client.connState ≠ .tcpDisconnected)
    (created : mqttCreateRequest client.requests pktId cb = some (r, requests)) :
    Sound ok True fired (client.setRequests (mqttAppendRequest requests r)) ∧
      Sound ok True fired (client.setRequests (mqttDeleteRequest requests r)) := by
  have exact := sound.queued.exact trivial live
  have appended := @Requests.submit_spec client.requests pktId cb true sound.queued.wf exact
  have deleted := @Requests.submit_spec client.requests pktId cb false sound.queued.wf exact
  simp only [submitRequest, created] at appended deleted
  exact ⟨sound.setRequests ⟨appended.1, fun _ _ => appended.2.1, fun idle => absurd idle live⟩,
    sound.setRequests ⟨deleted.1, fun _ _ => deleted.2.1, fun idle => absurd idle live⟩⟩

/-! ### Calls -/

theorem publishIdentified (sound : Sound ok True fired client) {args : PublishArgs}
    {totalLen : ℕ} (pktId : UInt16) (live : client.connState ≠ .tcpDisconnected)
    (complete : ok → args.Complete)
    (total : totalLen = 2 + args.topic.length + args.payloadLength.toNat +
      if 0 < args.qos then 2 else 0) :
    Sound ok True fired (publishIdentified tcp client args pktId totalLen).1 := by
  simp only [Mqtt.publishIdentified]
  split
  · exact sound
  rename_i fits
  split
  · exact sound
  rename_i r requests created
  rcases sound.submit live created with ⟨appended, deleted⟩
  split
  · rename_i room
    have whole : ok → (publishMessage args pktId (UInt16.ofNat totalLen)).Whole :=
      fun proper => publishMessage_whole pktId (complete proper) (not_not.mp fits) total
    exact (appended.write (appendPublish_eq args pktId _) room whole).send (by simpa using live)
  · exact deleted

theorem mqttPublish (sound : Sound ok True fired client) {args : PublishArgs}
    (complete : ok → args.Complete) : Sound ok True fired (mqttPublish tcp client args).1 := by
  simp only [Mqtt.mqttPublish]
  split
  · exact sound
  rename_i live
  split
  · exact sound
  split
  · rename_i identified
    exact sound.packetId.publishIdentified _ live complete (by rw [if_pos identified])
  · rename_i unidentified
    exact sound.publishIdentified _ live complete (by rw [if_neg unidentified]; rfl)

theorem mqttSubUnsub (sound : Sound ok True fired client) {args : SubscribeArgs}
    (allowed : ok → args.qos < 3) : Sound ok True fired (mqttSubUnsub tcp client args).1 := by
  simp only [Mqtt.mqttSubUnsub]
  split
  · exact sound
  split
  · exact sound
  rename_i fits
  have asserted : Sound ok True fired (client.assert (args.qos < 3)) :=
    sound.assert fun proper => decide_eq_true (allowed proper)
  split
  · exact asserted
  rename_i live
  split
  · exact asserted.packetId
  rename_i r requests created
  rcases asserted.packetId.submit live created with ⟨appended, deleted⟩
  split
  · rename_i room
    have whole := subscribeMessage_whole (msgGeneratePacketId (client.assert (args.qos < 3))).2
      (not_not.mp fits)
    exact (appended.write (appendSubscribe_eq args _ _) room fun _ => whole).send
      (by simpa using live)
  · exact deleted

theorem connectionCb (sound : Sound ok True fired client) (status : ℕ) :
    Sound ok True fired (connectionCb tcp client status) := by
  simp only [Mqtt.connectionCb]
  split
  · exact (sound.report _).mqttSubUnsub fun _ => by decide
  · exact sound.report _

/-- The connection is given up, whatever has become of it and of the requests. -/
theorem close (traffic : Traffic client.output client.stream client.written)
    (obeyed : Obeyed ok client.asserted client.written) (armed : client.timers ≤ 1) (reason : ℕ) :
    Sound ok True 0 (mqttClose tcp client reason) := by
  have queued : Queued True .tcpDisconnected (mqttClearRequests client.requests) :=
    ⟨(Requests.clear_spec _).1, fun _ live => absurd rfl live, fun _ => rfl⟩
  have wired : Wired 0 .tcpDisconnected none (client.timers - 1) := by
    refine ⟨rfl, ?_⟩
    rw [timersOf]
    omega
  have timely : Timely .tcpDisconnected client.cyclicTick client.keepAlive client.serverWatchdog :=
    ⟨nofun, fun live => absurd rfl live⟩
  rw [mqttClose]
  split
  · have closed : Sound ok True 0 { client with
        conn := none
        requests := mqttClearRequests client.requests
        timers := client.timers - 1
        connState := .tcpDisconnected } := ⟨traffic, obeyed, queued, wired, timely⟩
    exact closed.connectionCb reason
  · rename_i dead
    have disconnected : client.connState = .tcpDisconnected := not_not.mp dead
    rw [← disconnected] at queued wired timely
    exact ⟨traffic, obeyed, queued, wired, timely⟩

theorem armed (sound : Sound ok usable fired client) : client.timers ≤ 1 := by
  have timers_eq := sound.wired.timers_eq
  have few : timersOf client.connState ≤ 1 := by
    cases client.connState <;> simp [timersOf]
  omega

theorem mqttClose (sound : Sound ok usable fired client) (reason : ℕ) :
    Sound ok True 0 (mqttClose tcp client reason) :=
  close sound.traffic sound.obeyed sound.armed reason

theorem mqttDisconnect (sound : Sound ok usable 0 client) :
    Sound ok True 0 (mqttDisconnect tcp client) := by
  rw [Mqtt.mqttDisconnect]
  split
  · exact @close ok { client with connState := .tcpDisconnected } tcp sound.traffic sound.obeyed
      sound.armed _
  · rename_i dead
    have disconnected : client.connState = .tcpDisconnected := not_not.mp dead
    exact ⟨sound.traffic, sound.obeyed,
      ⟨sound.queued.wf, fun _ live => absurd disconnected live, sound.queued.idle⟩, sound.wired,
      sound.timely⟩

/-- A client that has been wiped, before the connection is opened and afterwards. -/
theorem fresh (sound : Sound ok True 0 client) (idle : client.connState = .tcpDisconnected)
    (keepAlive : UInt16) {connState : MqttConnState} (opening : timersOf connState = 0) :
    Sound ok True 0 { wipe client with
      keepAlive
      requests := mqttInitRequests (wipe client).requests
      conn := connOf connState
      connState } := by
  have timers_eq := sound.wired.timers_eq
  rw [idle] at timers_eq
  refine ⟨Traffic.init, ⟨sound.obeyed.asserted, fun _ => nofun⟩, ?_, ⟨rfl, ?_⟩, ⟨?_, ?_⟩⟩
  · exact ⟨(Requests.Wf.empty rfl).1, fun _ _ r => Or.inr rfl, fun _ => rfl⟩
  · exact timers_eq.trans opening.symm
  · rintro rfl
    cases opening
  · intro _
    exact Nat.zero_le _

theorem mqttClientConnect (sound : Sound ok True 0 client) (info : MqttConnectClientInfo)
    (answers : OpenAnswers) : Sound ok True 0 (mqttClientConnect client info answers).1 := by
  rw [Mqtt.mqttClientConnect]
  split
  · exact sound
  rename_i dead
  have idle : client.connState = .tcpDisconnected := not_not.mp dead
  have failed := @fresh ok client sound idle info.keepAlive .tcpDisconnected rfl
  have opened := @fresh ok client sound idle info.keepAlive .tcpConnecting rfl
  simp only
  split
  · exact failed
  rename_i parts known
  split
  · rename_i room
    split
    · exact failed
    split
    · exact failed
    split
    · exact failed
    exact opened.write (appendConnect_eq info parts) room fun _ => connectMessage_whole known
  · exact failed

/-! ### The cyclic timer -/

theorem requestsElapsed (sound : Sound ok True fired client)
    (live : client.connState ≠ .tcpDisconnected) (t : UInt8) :
    Sound ok True fired (requestsElapsed client t) := by
  rcases Requests.elapsed_spec sound.queued.wf t with ⟨wf, _, _, _, released⟩
  have queued : Queued True client.connState (mqttRequestTimeElapsed client.requests t).1 :=
    ⟨wf, fun _ _ => (sound.queued.exact trivial live).releases released,
      fun idle => absurd idle live⟩
  exact ⟨sound.traffic, sound.obeyed, queued, sound.wired, sound.timely⟩

theorem sendKeepAlive (sound : Sound ok usable fired client)
    (connected : client.connState ≠ .mqttConnecting) :
    Sound ok usable fired (sendKeepAlive client) := by
  have ticked : ∀ cyclicTick : UInt16,
      Sound ok usable fired { client with cyclicTick := cyclicTick } := by
    intro cyclicTick
    exact ⟨sound.traffic, sound.obeyed, sound.queued, sound.wired,
      fun connecting => absurd connecting connected, sound.timely.watched⟩
  rw [Mqtt.sendKeepAlive]
  split
  · split
    · rename_i room
      exact (ticked 0).write appendPingreq_eq room fun _ => pingreqMessage_whole
    · exact ticked _
  · exact ticked _

theorem keepAliveElapsed (sound : Sound ok True 1 client)
    (connected : client.connState = .mqttConnected) :
    Sound ok True (if (keepAliveElapsed tcp client).2 then 1 else 0)
      (keepAliveElapsed tcp client).1 := by
  have watched := sound.timely.watched (by rw [connected]; nofun)
  have bound := client.keepAlive.toNat_lt
  have next : (client.serverWatchdog + 1).toNat = client.serverWatchdog.toNat + 1 := by
    rw [mqttCyclicTimerInterval] at watched
    rw [UInt16.toNat_add, UInt16.toNat_one]
    omega
  simp only [Mqtt.keepAliveElapsed]
  split
  · have closed : Sound ok True 0 _ := @close ok
      { client with serverWatchdog := client.serverWatchdog + 1 } tcp sound.traffic sound.obeyed
      sound.armed mqttConnectTimeout
    apply closed.sendKeepAlive
    rw [connState_mqttClose]
    nofun
  · rename_i patient
    rw [next] at patient
    have waited : Sound ok True 1
        { client with serverWatchdog := client.serverWatchdog + 1 } := by
      refine ⟨sound.traffic, sound.obeyed, sound.queued, sound.wired, sound.timely.connecting, ?_⟩
      intro _
      rw [next]
      exact Nat.le_of_not_lt patient
    apply waited.sendKeepAlive
    rw [connected]
    nofun

/-- The timer is set again. -/
theorem restart (sound : Sound ok usable 1 client) :
    Sound ok usable 0 { client with timers := client.timers + 1 } :=
  ⟨sound.traffic, sound.obeyed, sound.queued,
    ⟨sound.wired.conn_eq, sound.wired.timers_eq⟩, sound.timely⟩

/-- A timeout is over. -/
theorem fire (sound : Sound ok usable 0 client) (armed : 0 < client.timers) :
    Sound ok usable 1 { client with timers := client.timers - 1 } := by
  have timers_eq := sound.wired.timers_eq
  refine ⟨sound.traffic, sound.obeyed, sound.queued, ⟨sound.wired.conn_eq, ?_⟩, sound.timely⟩
  simp only
  omega

theorem cyclicElapsed (sound : Sound ok True 1 client) :
    Sound ok True (if (cyclicElapsed tcp client).2 then 1 else 0) (cyclicElapsed tcp client).1 := by
  by_cases connecting : client.connState = .mqttConnecting
  · have early := sound.timely.connecting connecting
    have next : (client.cyclicTick + 1).toNat = client.cyclicTick.toNat + 1 := by
      rw [mqttCyclicTimerInterval, mqttConnectTimout] at early
      rw [UInt16.toNat_add, UInt16.toNat_one]
      omega
    simp only [Mqtt.cyclicElapsed, if_pos connecting, next]
    split
    · exact @close ok { client with cyclicTick := client.cyclicTick + 1 } tcp sound.traffic
        sound.obeyed sound.armed _
    · rename_i patient
      refine ⟨sound.traffic, sound.obeyed, sound.queued, sound.wired, ?_, sound.timely.watched⟩
      intro _
      simp only [next]
      exact Nat.lt_of_not_le patient
  · by_cases connected : client.connState = .mqttConnected
    · have live : client.connState ≠ .tcpDisconnected := by
        rw [connected]
        nofun
      have elapsed := sound.requestsElapsed live 5
      simp only [Mqtt.cyclicElapsed, if_neg connecting, if_pos connected]
      split
      · exact elapsed.keepAliveElapsed connected
      · exact elapsed
    · have timers_eq := sound.wired.timers_eq
      cases state : client.connState with
      | tcpDisconnected => cases timers_eq.trans (congrArg timersOf state)
      | tcpConnecting => cases timers_eq.trans (congrArg timersOf state)
      | mqttConnecting => exact absurd state connecting
      | mqttConnected => exact absurd state connected

theorem mqttCyclicTimer (sound : Sound ok True 1 client) :
    Sound ok True 0 (mqttCyclicTimer tcp client) := by
  have elapsed := @cyclicElapsed _ _ tcp sound
  rw [Mqtt.mqttCyclicTimer]
  generalize Mqtt.cyclicElapsed tcp client = pair at elapsed ⊢
  rcases pair with ⟨after, restartTimer⟩
  cases restartTimer with
  | true => exact elapsed.restart
  | false => exact elapsed

/-! ### Messages of the server -/

theorem pubAckRecRelResponse (sound : Sound ok usable fired client)
    (live : client.connState ≠ .tcpDisconnected) (msg qos : UInt8) (pktId : UInt16) :
    Sound ok usable fired (pubAckRecRelResponse tcp client msg pktId qos).1 := by
  simp only [Mqtt.pubAckRecRelResponse]
  split
  · rename_i room
    have written : Sound ok usable fired (client.write (responseMessage msg qos pktId)
        (appendResponse client.output msg qos pktId)) :=
      sound.write (appendResponse_eq msg qos pktId) room fun _ => responseMessage_whole msg qos pktId
    exact written.send (by simpa using live)
  · exact sound

end Sound

/-- The server is heard. -/
def Established (client : MqttClient) : Prop :=
  client.connState = .mqttConnecting ∨ client.connState = .mqttConnected

theorem Established.live {client : MqttClient} (established : Established client) :
    client.connState ≠ .tcpDisconnected := by
  rcases established with connecting | connected
  · rw [connecting]
    nofun
  · rw [connected]
    nofun

theorem SameLink.established {client next : MqttClient} (same : SameLink client next)
    (established : Established client) : Established next := by
  rw [Established, same.connState]
  exact established

/-- A message is shorter than a number of 32 bits can count, as far as it has arrived. -/
def Countable (client : MqttClient) (p : PbufChain) : Prop :=
  client.incoming.msgIdx.toNat + p.bytes.length < 2 ^ 32

/-- What holds while messages of the server are read. Once one of them has been refused, an item
may be lost. -/
def Reads (ok : Prop) (client : MqttClient) (res : ℕ) : Prop :=
  Established client ∧ Sound ok (res = mqttConnectAccepted) 0 client

/-- What holds after a fragment. One that is too short for an identifier loses no item. -/
def Handled (ok : Prop) (fragment : Fragment) (client : MqttClient) (res : ℕ) : Prop :=
  Established client ∧
    Sound ok (res = mqttConnectAccepted ∨ fragment.payload.length < 2) 0 client

namespace Sound

variable {ok usable : Prop} {fired : ℕ} {client : MqttClient} {tcp : ℕ → TcpAnswers}
  {fragment : Fragment}

theorem handled (sound : Sound ok True 0 client) (established : Established client) (res : ℕ) :
    Handled ok fragment client res :=
  ⟨established, sound.restrict fun _ => trivial⟩

theorem connackReceived (sound : Sound ok True 0 client) (established : Established client) :
    Handled ok fragment (connackReceived tcp client fragment).1
      (connackReceived tcp client fragment).2 := by
  rw [Mqtt.connackReceived]
  split
  · rename_i connecting
    split
    · exact sound.handled established _
    simp only
    split
    · have wired := sound.wired
      rw [connecting] at wired
      have connected : Sound ok True 0
          { client with cyclicTick := 0, connState := .mqttConnected } := by
        refine ⟨sound.traffic, sound.obeyed, ?_, ⟨wired.conn_eq, wired.timers_eq⟩, nofun, fun _ => ?_⟩
        · exact ⟨sound.queued.wf, fun _ _ => sound.queued.exact trivial established.live, nofun⟩
        · exact sound.timely.watched established.live
      refine (connected.connectionCb _).handled ?_ _
      exact (SameLink.connectionCb _ _).established (Or.inr rfl)
    · exact sound.handled established _
  · exact sound.handled established _

theorem publishContinues (sound : Sound ok True 0 client) (established : Established client)
    (payloadOffset : ℕ) : Handled ok fragment (publishContinues tcp client fragment payloadOffset).1
      (publishContinues tcp client fragment payloadOffset).2 := by
  simp only [Mqtt.publishContinues]
  split
  · split
    · exact sound.handled established _
    have told := sound.report (.data ((fragment.payload.drop payloadOffset).take
      (fragment.payload.length - payloadOffset)) (decide (fragment.remainingLength = 0)))
    split
    · refine (told.pubAckRecRelResponse established.live _ _ _).handled ?_ _
      rw [Established, connState_pubAckRecRelResponse]
      exact established
    · exact told.handled established _
  · exact sound.handled established _

theorem publishReceived (sound : Sound ok True 0 client) (established : Established client) :
    Handled ok fragment (publishReceived tcp client fragment).1
      (publishReceived tcp client fragment).2 := by
  rw [Mqtt.publishReceived]
  split
  · split
    · exact sound.handled established _
    · rename_i header _
      have begun : Sound ok True 0 (publishBegins client fragment header) :=
        ⟨sound.traffic, sound.obeyed, sound.queued, sound.wired, sound.timely⟩
      exact begun.publishContinues established _
  · exact sound.publishContinues established _

theorem answerReceived (sound : Sound ok True 0 client) (established : Established client)
    (pktId : UInt16) (long : ¬fragment.payload.length < 2) :
    Handled ok fragment (answerReceived client fragment pktId).1
      (answerReceived client fragment pktId).2 := by
  have exact := sound.queued.exact trivial established.live
  simp only [Mqtt.answerReceived]
  split
  · rename_i requests taken
    rw [(Requests.take_none taken).1]
    exact sound.handled established _
  · rename_i requests r taken
    have answered : answerRequest client.requests pktId =
        (mqttDeleteRequest requests r, some (requests.reqList r).cb) := by
      rw [answerRequest, taken]
    rcases Requests.answer_spec sound.queued.wf exact answered with ⟨wf, exactAfter, _⟩
    have deleted : Sound ok True 0 (client.setRequests (mqttDeleteRequest requests r)) :=
      sound.setRequests ⟨wf, fun _ _ => exactAfter, fun idle => absurd idle established.live⟩
    split
    · split
      · rcases Requests.take_some sound.queued.wf taken with ⟨_, _, _, _, _, wfTaken, _⟩
        have refused : ¬(mqttConnectDisconnected = mqttConnectAccepted ∨
            fragment.payload.length < 2) := by
          rintro (accepted | short)
          · cases accepted
          · exact long short
        exact ⟨established, sound.setRequests ⟨wfTaken, fun usable => absurd usable refused,
          fun idle => absurd idle established.live⟩⟩
      · exact (deleted.complete _ _).handled established _
    · exact (deleted.complete _ _).handled established _

theorem identifiedReceived (sound : Sound ok True 0 client) (established : Established client) :
    Handled ok fragment (identifiedReceived tcp client fragment).1
      (identifiedReceived tcp client fragment).2 := by
  have responded : ∀ msg qos : UInt8, ∀ pktId : UInt16,
      Handled ok fragment (Mqtt.pubAckRecRelResponse tcp client msg pktId qos).1
        mqttConnectAccepted := by
    intro msg qos pktId
    refine (sound.pubAckRecRelResponse established.live _ _ _).handled ?_ _
    rw [Established, connState_pubAckRecRelResponse]
    exact established
  simp only [Mqtt.identifiedReceived]
  split
  · exact sound.handled established _
  rename_i long
  split
  · exact sound.handled established _
  split
  · exact responded _ _ _
  split
  · exact responded _ _ _
  split
  · exact sound.answerReceived established _ long
  · exact sound.handled established _

theorem mqttMessageReceived (sound : Sound ok True 0 client) (established : Established client)
    (stored : ok → fragment.fixedHdrLen.toNat ≤ fragment.msgIdx.toNat) :
    Handled ok fragment (mqttMessageReceived tcp client fragment).1
      (mqttMessageReceived tcp client fragment).2 := by
  have asserted : Sound ok True 0
      (client.assert (fragment.fixedHdrLen.toNat ≤ fragment.msgIdx.toNat)) :=
    sound.assert fun proper => decide_eq_true (stored proper)
  simp only [Mqtt.mqttMessageReceived]
  split
  · exact asserted.handled established _
  split
  · exact asserted.connackReceived established
  split
  · exact asserted.handled established _
  split
  · exact asserted.publishReceived established
  · exact asserted.identifiedReceived established

/-! ### Callbacks of TCP -/

theorem handles (p : PbufChain) (client : MqttClient) :
    Handles (Mqtt.mqttMessageReceived tcp) (client.incoming.msgIdx.toNat + p.bytes.length)
      (Reads (ok ∧ Countable client p)) := by
  have received : ∀ current fragment, Reads (ok ∧ Countable client p) current mqttConnectAccepted →
      (client.incoming.msgIdx.toNat + p.bytes.length < 2 ^ 32 →
        fragment.fixedHdrLen.toNat ≤ fragment.msgIdx.toNat) →
      Handled (ok ∧ Countable client p) fragment (Mqtt.mqttMessageReceived tcp current fragment).1
        (Mqtt.mqttMessageReceived tcp current fragment).2 := by
    intro current fragment reads stored
    have sound : Sound (ok ∧ Countable client p) True 0 current := reads.2.restrict fun _ => rfl
    exact sound.mqttMessageReceived reads.1 fun proper => stored proper.2
  refine ⟨?_, ?_, ?_⟩
  · intro current fragment reads stored _
    rcases received current fragment reads stored with ⟨established, after⟩
    exact ⟨established, after.restrict Or.inl⟩
  · intro current fragment reads nothing stored
    rcases received current fragment reads stored with ⟨established, after⟩
    refine ⟨established, after.restrict fun _ => Or.inr ?_⟩
    simp [nothing]
  · rintro current ⟨established, sound⟩
    exact ⟨established, sound.restrict nofun⟩

/-- The server has been heard. -/
theorem heard (sound : Sound ok True 0 client) :
    Sound ok True 0 (if client.keepAlive ≠ 0 then { client with serverWatchdog := 0 } else client) := by
  split
  · exact ⟨sound.traffic, sound.obeyed, sound.queued, sound.wired, sound.timely.connecting,
      fun _ => Nat.zero_le _⟩
  · exact sound

/-- What is read keeps the connection, whatever it is. -/
theorem reads {p : PbufChain} {incoming : Incoming} {current : MqttClient} {res : ℕ}
    (sound : Sound ok True 0 client) (established : Established client)
    (parsed : mqttParseIncoming (Mqtt.mqttMessageReceived tcp) p client client.incoming =
      some (current, incoming, res)) : Reads (ok ∧ Countable client p) current res := by
  have start : Reads (ok ∧ Countable client p) client mqttConnectAccepted :=
    ⟨established, sound.traffic, sound.obeyed.weaken And.left,
      ⟨sound.queued.wf, fun _ => sound.queued.exact trivial, sound.queued.idle⟩, sound.wired,
      sound.timely⟩
  exact ((handles p client).mqttParseIncoming start parsed).1

theorem mqttTcpRecvCb {p : Option PbufChain} {err : ℤ} {after : MqttClient}
    (sound : Sound ok True 0 client) (established : Established client)
    (countable : ok → ∀ chain, p = some chain → Countable client chain)
    (received : mqttTcpRecvCb tcp client p err = some after) : Sound ok True 0 after := by
  cases p with
  | none =>
      cases received
      exact sound.mqttClose _
  | some p =>
      simp only [Mqtt.mqttTcpRecvCb] at received
      split at received
      · cases received
        exact sound
      rw [Option.map_eq_some_iff] at received
      rcases received with ⟨⟨current, incoming, res⟩, parsed, rfl⟩
      have reads := sound.reads established parsed
      have proper : ok → ok ∧ Countable client p :=
        fun holds => ⟨holds, countable holds p rfl⟩
      have read : Sound ok (res = mqttConnectAccepted) 0
          { current with incoming, arrived := client.arrived ++ [p] } :=
        ⟨reads.2.traffic, reads.2.obeyed.weaken proper, reads.2.queued, reads.2.wired,
          reads.2.timely⟩
      apply heard
      split
      · exact read.mqttClose res
      · rename_i accepted
        exact read.restrict fun _ => not_not.mp accepted

/-- The requests that are complete are taken from the queue one by one. -/
theorem completeQos0 (sound : Sound ok True fired client)
    (live : client.connState ≠ .tcpDisconnected) (fuel : ℕ) :
    Sound ok True fired (completeQos0 fuel client) ∧
      (completeQos0 fuel client).connState = client.connState := by
  induction fuel generalizing client with
  | zero => exact ⟨sound, rfl⟩
  | succ fuel ih =>
      have exact := sound.queued.exact trivial live
      rw [Mqtt.completeQos0]
      split
      · rename_i requests taken
        rw [(Requests.take_none taken).1]
        exact ⟨sound, rfl⟩
      · rename_i requests r taken
        have answered : answerRequest client.requests 0 =
            (mqttDeleteRequest requests r, some (requests.reqList r).cb) := by
          rw [answerRequest, taken]
        rcases Requests.answer_spec sound.queued.wf exact answered with ⟨wf, exactAfter, _⟩
        have deleted : Sound ok True fired (client.setRequests (mqttDeleteRequest requests r)) :=
          sound.setRequests ⟨wf, fun _ _ => exactAfter, fun idle => absurd idle live⟩
        exact ih (deleted.complete _ _) live

theorem mqttTcpSentCb (sound : Sound ok True 0 client) :
    Sound ok True 0 (mqttTcpSentCb tcp client) := by
  rw [Mqtt.mqttTcpSentCb]
  split
  · rename_i connected
    have live : client.connState ≠ .tcpDisconnected := by
      rw [connected]
      nofun
    have reset : Sound ok True 0 { client with cyclicTick := 0, serverWatchdog := 0 } :=
      ⟨sound.traffic, sound.obeyed, sound.queued, sound.wired, fun _ => noTicks,
        fun _ => Nat.zero_le _⟩
    rcases reset.completeQos0 live (mqttReqMaxInFlight + 1) with ⟨completed, same⟩
    apply completed.send
    rw [same]
    exact live
  · exact sound

theorem mqttTcpPollCb (sound : Sound ok True 0 client) :
    Sound ok True 0 (mqttTcpPollCb tcp client) := by
  rw [Mqtt.mqttTcpPollCb]
  split
  · rename_i connected
    apply sound.send
    rw [connected]
    nofun
  · exact sound

theorem mqttTcpErrCb (sound : Sound ok True 0 client) :
    Sound ok True 0 (mqttTcpErrCb tcp client) :=
  @close ok { client with conn := none } tcp sound.traffic sound.obeyed sound.armed _

theorem connecting (sound : Sound ok usable fired client)
    (opening : client.conn = some .connecting) : client.connState = .tcpConnecting := by
  have conn_eq := sound.wired.conn_eq
  rw [opening] at conn_eq
  cases state : client.connState with
  | tcpDisconnected => rw [state] at conn_eq; cases conn_eq
  | tcpConnecting => rfl
  | mqttConnecting => rw [state] at conn_eq; cases conn_eq
  | mqttConnected => rw [state] at conn_eq; cases conn_eq

theorem mqttTcpConnectCb (sound : Sound ok True 0 client) (opening : client.conn = some .connecting)
    (err : ℤ) : Sound ok True 0 (mqttTcpConnectCb tcp client err) := by
  have connecting := sound.connecting opening
  have live : client.connState ≠ .tcpDisconnected := by
    rw [connecting]
    nofun
  have timers_eq := sound.wired.timers_eq
  rw [connecting] at timers_eq
  rw [Mqtt.mqttTcpConnectCb]
  split
  · exact sound
  have entered : Sound ok True 0 { client with
      incoming := { client.incoming with msgIdx := 0 }
      conn := some .established
      connState := .mqttConnecting
      timers := client.timers + 1
      cyclicTick := 0 } := by
    refine ⟨sound.traffic, sound.obeyed, ⟨sound.queued.wf, ?_, nofun⟩,
      ⟨rfl, congrArg (· + 1) timers_eq⟩, fun _ => noTicks, fun _ => sound.timely.watched live⟩
    exact fun _ _ => sound.queued.exact trivial live
  exact entered.send nofun

theorem established (sound : Sound ok usable fired client)
    (opened : client.conn = some .established) : Established client := by
  have conn_eq := sound.wired.conn_eq
  rw [opened] at conn_eq
  cases state : client.connState with
  | tcpDisconnected => rw [state] at conn_eq; cases conn_eq
  | tcpConnecting => rw [state] at conn_eq; cases conn_eq
  | mqttConnecting => exact Or.inl state
  | mqttConnected => exact Or.inr state

end Sound

/-! ## Runs -/

/-- The application calls as it must, and the messages of the server can be counted. -/
def Proper (client : MqttClient) : ClientEvent → Prop
  | .publish args => args.Complete
  | .subUnsub args => args.qos < 3
  | .tcpRecv (some p) _ => Countable client p
  | _ => True

instance (args : PublishArgs) : Decidable args.Complete :=
  inferInstanceAs (Decidable (args.payload = none → args.payloadLength = 0))

instance (client : MqttClient) (p : PbufChain) : Decidable (Countable client p) :=
  inferInstanceAs (Decidable (_ < _))

instance decidableProper (client : MqttClient) :
    ∀ event : ClientEvent, Decidable (Proper client event)
  | .publish args => inferInstanceAs (Decidable args.Complete)
  | .subUnsub args => inferInstanceAs (Decidable (args.qos < 3))
  | .tcpRecv (some p) _ => inferInstanceAs (Decidable (Countable client p))
  | .tcpRecv none _ | .connect _ _ | .disconnect | .cyclicTimer | .tcpConnected _ | .tcpSent
  | .tcpPoll | .tcpErr => isTrue trivial

theorem Sound.step {ok : Prop} {client next : MqttClient} {tcp : ℕ → TcpAnswers}
    {event : ClientEvent} (sound : Sound ok True 0 client)
    (stepped : clientStep tcp client event = some next) :
    Sound (ok ∧ Proper client event) True 0 next := by
  have here : Sound (ok ∧ Proper client event) True 0 client := sound.weaken And.left
  cases event with
  | connect info answers =>
      cases stepped
      exact here.mqttClientConnect info answers
  | disconnect =>
      cases stepped
      exact here.mqttDisconnect
  | publish args =>
      cases stepped
      exact here.mqttPublish And.right
  | subUnsub args =>
      cases stepped
      exact here.mqttSubUnsub And.right
  | cyclicTimer =>
      rw [clientStep] at stepped
      split at stepped
      · rename_i armed
        cases stepped
        exact (here.fire armed).mqttCyclicTimer
      · cases stepped
  | tcpConnected err =>
      rw [clientStep] at stepped
      split at stepped
      · rename_i opening
        cases stepped
        exact here.mqttTcpConnectCb opening err
      · cases stepped
  | tcpRecv p err =>
      rw [clientStep] at stepped
      split at stepped
      · rename_i opened
        refine here.mqttTcpRecvCb (here.established opened) ?_ stepped
        rintro proper chain rfl
        exact proper.2
      · cases stepped
  | tcpSent =>
      rw [clientStep] at stepped
      split at stepped
      · cases stepped
        exact here.mqttTcpSentCb
      · cases stepped
  | tcpPoll =>
      rw [clientStep] at stepped
      split at stepped
      · cases stepped
        exact here.mqttTcpPollCb
      · cases stepped
  | tcpErr =>
      rw [clientStep] at stepped
      split at stepped
      · cases stepped
        exact here.mqttTcpErrCb
      · cases stepped

end MqttAccelero.Mqtt
