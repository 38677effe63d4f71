import MqttAccelero.Mqtt.Sessions

/-!
# Publications

What the application gets of the messages that the server publishes, and which of
them the client acknowledges.

A message is passed on in pieces: its topic with the first one, which has to hold
all that stands in front of the payload, and then the payload, of which the last
piece is marked. A message that the client has given up is lost with the connection,
so what is said below is about a connection that lives.
-/

namespace MqttAccelero.Mqtt

open scoped List

/-! ## What a packet says -/

/-- A message for the application, with the length that is announced for its payload. -/
structure Publication where
  topic : List UInt8
  announced : ℕ
  payload : List UInt8
deriving DecidableEq, Repr

namespace Packet

def IsPublish (packet : Packet) : Prop :=
  mqttCtlPacketType packet.control = mqttMsgTypePublish

instance (packet : Packet) : Decidable packet.IsPublish :=
  inferInstanceAs (Decidable (_ = _))

def qos (packet : Packet) : UInt8 :=
  mqttCtlPacketQos packet.control

def topicLength (packet : Packet) : ℕ :=
  (u16At packet.body 0).toNat

def topic (packet : Packet) : List UInt8 :=
  (packet.body.drop 2).take packet.topicLength

/-- A message with a quality of service has an identifier behind its topic. -/
def pktId (packet : Packet) : UInt16 :=
  u16At packet.body (2 + packet.topicLength)

def payloadOffset (packet : Packet) : ℕ :=
  2 + packet.topicLength + qosLen packet.control

/-- The message, of whose payload a part is known. -/
def published (packet : Packet) (payload : List UInt8) : Publication :=
  ⟨packet.topic, packet.body.length - packet.payloadOffset, payload⟩

/-- An empty packet is no message. -/
def publication (packet : Packet) : Option Publication :=
  if packet.IsPublish ∧ packet.body ≠ [] then
    some (packet.published (packet.body.drop packet.payloadOffset))
  else none

/-- The answer to a message with a quality of service. -/
def acknowledgement (packet : Packet) : Option Message :=
  if packet.IsPublish ∧ packet.body ≠ [] ∧ 0 < packet.qos then
    some (responseMessage (if packet.qos = 1 then mqttMsgTypePuback else mqttMsgTypePubrec) 0
      packet.pktId)
  else none

end Packet

/-- What the application has of a packet of which `seen` bytes have been passed on. -/
def begun : List Packet → ℕ → Option Publication
  | [], _ => none
  | packet :: rest, seen =>
      let body := pendingBody (packet :: rest) seen
      if packet.IsPublish ∧ body ≠ [] then
        some (packet.published (body.drop packet.payloadOffset))
      else none

/-! ## What the application receives -/

/-- The messages that the application has received, and the one that it is receiving. -/
structure Inbox where
  complete : List Publication
  current : Option Publication
deriving DecidableEq, Repr

def Inbox.take (inbox : Inbox) : Report → Inbox
  | .publish topic totLen => { inbox with current := some ⟨topic, totLen.toNat, []⟩ }
  | .data data last =>
      match inbox.current with
      | none => inbox
      | some publication =>
          let publication := { publication with payload := publication.payload ++ data }
          if last then ⟨inbox.complete ++ [publication], none⟩
          else { inbox with current := some publication }
  | _ => inbox

def MqttClient.inbox (client : MqttClient) : Inbox :=
  client.deliveries.foldl Inbox.take ⟨[], none⟩

theorem Inbox.take_nothing (inbox : Inbox) : inbox.take (.data [] false) = inbox := by
  rcases inbox with ⟨complete, _ | publication⟩
  · rfl
  · simp [Inbox.take]

theorem inbox_report (client : MqttClient) {report : Report} (delivery : report.isDelivery = true) :
    (client.report report).inbox = client.inbox.take report := by
  simp [MqttClient.inbox, MqttClient.deliveries, MqttClient.report, delivery]

theorem data_isDelivery (data : List UInt8) (last : Bool) :
    (Report.data data last).isDelivery = true := rfl

theorem SameLink.inbox {client next : MqttClient} (same : SameLink client next) :
    next.inbox = client.inbox := by
  rw [MqttClient.inbox, same.deliveries, MqttClient.inbox]

/-! ## One fragment -/

section

variable {tcp : ℕ → TcpAnswers} {client : MqttClient} {fragment : Fragment} {packet : Packet}

/-- An answer is written once, or not at all if the ring is too full. -/
theorem pubAckRecRelResponse_answers (client : MqttClient) (msg qos : UInt8) (pktId : UInt16) :
    (pubAckRecRelResponse tcp client msg pktId qos).1.inbox = client.inbox ∧
      (pubAckRecRelResponse tcp client msg pktId qos).1.inpubPktId = client.inpubPktId ∧
      (pubAckRecRelResponse tcp client msg pktId qos).1.acknowledgements <+
        client.acknowledgements ++ [responseMessage msg qos pktId] := by
  simp only [pubAckRecRelResponse]
  split
  · generalize appendResponse client.output msg qos pktId = output
    have sent := @SameLink.send tcp (client.write (responseMessage msg qos pktId) output)
    rw [sent.inbox, sent.inpubPktId, sent.acknowledgements, acknowledgements_write]
    refine ⟨rfl, rfl, ?_⟩
    apply List.Sublist.append_left
    split
    · exact List.Sublist.refl _
    · exact List.nil_sublist _
  · exact ⟨rfl, rfl, List.sublist_append_left _ _⟩

/-- The answer that follows the last piece of a message. -/
def lastAnswer (fragment : Fragment) (pktId : UInt16) : List Message :=
  if fragment.remainingLength = 0 ∧ 0 < mqttCtlPacketQos fragment.control then
    [responseMessage (if mqttCtlPacketQos fragment.control = 1 then mqttMsgTypePuback
      else mqttMsgTypePubrec) 0 pktId]
  else []

theorem publishContinues_accepted {payloadOffset : ℕ}
    (accepted : (publishContinues tcp client fragment payloadOffset).2 = mqttConnectAccepted) :
    (publishContinues tcp client fragment payloadOffset).1.inbox =
        client.inbox.take (.data (fragment.payload.drop payloadOffset)
          (decide (fragment.remainingLength = 0))) ∧
      (publishContinues tcp client fragment payloadOffset).1.inpubPktId = client.inpubPktId ∧
      (publishContinues tcp client fragment payloadOffset).1.acknowledgements <+
        client.acknowledgements ++ lastAnswer fragment client.inpubPktId := by
  have whole : (fragment.payload.drop payloadOffset).take (fragment.payload.length - payloadOffset) =
      fragment.payload.drop payloadOffset := by
    rw [← List.length_drop, List.take_length]
  simp only [publishContinues, whole, decide_eq_true_eq] at accepted ⊢
  split at accepted
  · rename_i some
    rw [if_pos some]
    split at accepted
    · cases accepted
    rename_i inside
    rw [if_neg inside]
    have told := inbox_report client (data_isDelivery (fragment.payload.drop payloadOffset)
      (decide (fragment.remainingLength = 0)))
    rw [lastAnswer]
    by_cases answered : fragment.remainingLength = 0 ∧ 0 < mqttCtlPacketQos fragment.control
    · rw [if_pos answered, if_pos answered, ← told]
      exact pubAckRecRelResponse_answers _ _ _ _
    · rw [if_neg answered, if_neg answered]
      exact ⟨told, rfl, List.sublist_append_left _ _⟩
  · rename_i none
    rw [if_neg none]
    have nothing : fragment.payload.drop payloadOffset = [] := by
      rw [List.drop_eq_nil_iff]
      omega
    have more : decide (fragment.remainingLength = 0) = false := by
      exact decide_eq_false fun last => none (Or.inr last)
    rw [nothing, more, Inbox.take_nothing]
    exact ⟨rfl, rfl, List.sublist_append_left _ _⟩

theorem u16At_append {bytes : List UInt8} {offset : ℕ} (missing : List UInt8)
    (inside : offset + 2 ≤ bytes.length) : u16At (bytes ++ missing) offset = u16At bytes offset := by
  rw [u16At, u16At, List.getD_append _ _ _ _ (by omega), List.getD_append _ _ _ _ (by omega)]

/-- What the first piece says, if it holds all that stands in front of the payload. -/
theorem publishHeader_some {header : PublishHeader} {missing : List UInt8}
    (control : fragment.control = packet.control) (split : packet.body = fragment.payload ++ missing)
    (read : publishHeader fragment = some header) :
    header.topic = packet.topic ∧ header.payloadOffset = packet.payloadOffset ∧
      packet.payloadOffset ≤ fragment.payload.length ∧
      (0 < packet.qos → header.pktId = packet.pktId) := by
  simp only [publishHeader] at read
  generalize (if mqttCtlPacketQos fragment.control ≠ 0 then 2 else 1) = behindTopic at read
  split at read
  · cases read
  rename_i long
  split at read
  · cases read
  rename_i topicInside
  split at read
  · cases read
  split at read
  · cases read
  rename_i idInside
  have length : packet.topicLength = (u16At fragment.payload 0).toNat := by
    rw [Packet.topicLength, split, u16At_append missing (by omega)]
  rw [not_or] at topicInside
  obtain rfl := Option.some.inj read
  rw [Packet.payloadOffset, ← control, length]
  refine ⟨?_, rfl, by omega, ?_⟩
  · rw [Packet.topic, split, length, List.drop_append_of_le_length (by omega),
      List.take_append_of_le_length]
    rw [List.length_drop]
    omega
  · intro qos
    rw [Packet.qos, ← control] at qos
    have identified : 2 + (u16At fragment.payload 0).toNat + 2 ≤ fragment.payload.length := by
      rw [not_and] at idInside
      exact Nat.not_lt.mp (idInside qos)
    rw [Packet.pktId, length, split, u16At_append missing identified]
    exact if_pos qos

/-- Nothing has been passed on, and nothing acknowledged. -/
structure SameInbox (client next : MqttClient) : Prop where
  inbox : next.inbox = client.inbox
  inpubPktId : next.inpubPktId = client.inpubPktId
  acknowledgements : next.acknowledgements = client.acknowledgements

theorem SameLink.sameInbox {next : MqttClient} (same : SameLink client next) :
    SameInbox client next :=
  ⟨same.inbox, same.inpubPktId, same.acknowledgements⟩

theorem SameInbox.trans {middle next : MqttClient} (first : SameInbox client middle)
    (second : SameInbox middle next) : SameInbox client next :=
  ⟨second.inbox.trans first.inbox, second.inpubPktId.trans first.inpubPktId,
    second.acknowledgements.trans first.acknowledgements⟩

theorem connackReceived_sameInbox :
    SameInbox client (connackReceived tcp client fragment).1 := by
  simp only [connackReceived]
  split
  · split
    · exact ⟨rfl, rfl, rfl⟩
    split
    · have same := @SameLink.connectionCb tcp
        { client with cyclicTick := 0, connState := .mqttConnected }
        (fragment.payload.getD 1 0).toNat
      exact ⟨same.inbox, same.inpubPktId, same.acknowledgements⟩
    · exact ⟨rfl, rfl, rfl⟩
  · exact ⟨rfl, rfl, rfl⟩

theorem answerReceived_sameInbox (pktId : UInt16) :
    SameInbox client (answerReceived client fragment pktId).1 := by
  have completed : ∀ requests cb err,
      SameInbox client ((client.setRequests requests).complete cb err) := fun _ cb err =>
    ((SameLink.setRequests _ _).trans (SameLink.complete _ cb err)).sameInbox
  simp only [answerReceived]
  split
  · exact (SameLink.setRequests client _).sameInbox
  split
  · split
    · exact (SameLink.setRequests client _).sameInbox
    · exact completed _ _ _
  · exact completed _ _ _

theorem response_isAcknowledgement (msg qos : UInt8) (pktId : UInt16) :
    (responseMessage msg qos pktId).isAcknowledgement =
      decide (msg &&& 0x0f = mqttMsgTypePuback ∨ msg &&& 0x0f = mqttMsgTypePubrec) := by
  rw [Message.isAcknowledgement, responseMessage, mqttCtlPacketType_fixedHeaderByte]

theorem identifiedReceived_sameInbox :
    SameInbox client (identifiedReceived tcp client fragment).1 := by
  have responded : ∀ msg qos : UInt8, ∀ pktId : UInt16,
      (responseMessage msg qos pktId).isAcknowledgement = false →
        SameInbox client (pubAckRecRelResponse tcp client msg pktId qos).1 :=
    fun _ _ _ other => (SameLink.pubAckRecRelResponse client other).sameInbox
  simp only [identifiedReceived]
  split
  · exact ⟨rfl, rfl, rfl⟩
  split
  · exact ⟨rfl, rfl, rfl⟩
  split
  · apply responded
    rw [response_isAcknowledgement]
    decide
  split
  · apply responded
    rw [response_isAcknowledgement]
    decide
  split
  · exact answerReceived_sameInbox _
  · exact ⟨rfl, rfl, rfl⟩

/-- Other packets than the published ones leave the application alone. -/
theorem other_sameInbox (other : ¬packet.IsPublish) (control : fragment.control = packet.control) :
    SameInbox client (mqttMessageReceived tcp client fragment).1 := by
  rw [Packet.IsPublish, ← control] at other
  simp only [mqttMessageReceived, if_neg other]
  apply (SameLink.assert client _).sameInbox.trans
  split
  · exact ⟨rfl, rfl, rfl⟩
  split
  · exact connackReceived_sameInbox
  split
  · exact ⟨rfl, rfl, rfl⟩
  · exact identifiedReceived_sameInbox

theorem toNat_fragment_fixedHdrLen {seen : ℕ} {payload : List UInt8} :
    (packet.fragment seen payload).fixedHdrLen.toNat = packet.header.length := by
  have bounds := packet.header_bounds
  rw [Packet.fragment, UInt8.toNat_ofNat']
  omega

/-- The handler recognizes the first piece by what has arrived. -/
theorem first_iff {seen : ℕ} {payload missing : List UInt8}
    (behind : packet.header.length ≤ seen) (taken : payload ≠ [])
    (split : packet.encode.drop seen = payload ++ missing) :
    (packet.fragment seen payload).msgIdx.toNat =
        (packet.fragment seen payload).fixedHdrLen.toNat + payload.length ↔
      seen = packet.header.length := by
  have short := packet.length_encode_lt
  have some := List.length_pos_of_ne_nil taken
  have length := congrArg List.length split
  rw [List.length_drop, List.length_append] at length
  rw [toNat_fragment_fixedHdrLen, Packet.fragment, UInt32.toNat_ofNat']
  omega

theorem empty_sameInbox (client : MqttClient) (packet : Packet) :
    SameInbox client
      (mqttMessageReceived tcp client (packet.fragment packet.header.length [])).1 := by
  by_cases publish : packet.IsPublish
  · have control : mqttCtlPacketType (packet.fragment packet.header.length []).control =
        mqttMsgTypePublish := publish
    have bounds := packet.header_bounds
    have first : (packet.fragment packet.header.length []).msgIdx.toNat =
        (packet.fragment packet.header.length []).fixedHdrLen.toNat +
          (packet.fragment packet.header.length []).payload.length := by
      rw [toNat_fragment_fixedHdrLen, Packet.fragment, UInt32.toNat_ofNat', List.length_nil]
      omega
    have headless : publishHeader (packet.fragment packet.header.length []) = none := by
      have short : (packet.fragment packet.header.length []).payload.length <
          2 + qosLen (packet.fragment packet.header.length []).control :=
        Nat.lt_of_lt_of_le Nat.two_pos (Nat.le_add_right _ _)
      rw [publishHeader, if_pos short]
    simp only [mqttMessageReceived, publishReceived, control, if_pos first, headless]
    apply (SameLink.assert client _).sameInbox.trans
    split
    · exact ⟨rfl, rfl, rfl⟩
    · exact ⟨rfl, rfl, rfl⟩
  · exact other_sameInbox publish rfl

/-! ## A stream of packets -/

/-- What the application has of the packets that have arrived: those that are complete have been
received, and `seen` bytes of the next one. The answers are those of complete ones. -/
structure Heard (complete later : List Packet) (seen : ℕ) (client : MqttClient) : Prop where
  inbox : client.inbox = ⟨complete.filterMap Packet.publication, begun later seen⟩
  acknowledged : client.acknowledgements <+ complete.filterMap Packet.acknowledgement
  current : ∀ packet ∈ later.head?, packet.IsPublish → pendingBody later seen ≠ [] →
    packet.payloadOffset ≤ (pendingBody later seen).length ∧
      (0 < packet.qos → client.inpubPktId = packet.pktId)

namespace Heard

variable {complete later packets : List Packet} {seen : ℕ} {next : MqttClient}

theorem same (heard : Heard complete later seen client) (same : SameInbox client next) :
    Heard complete later seen next := by
  refine ⟨same.inbox.trans heard.inbox, same.acknowledgements ▸ heard.acknowledged, ?_⟩
  rw [same.inpubPktId]
  exact heard.current

/-- Nothing of the next packet has been passed on. -/
theorem between (inbox : client.inbox = ⟨complete.filterMap Packet.publication, none⟩)
    (acknowledged : client.acknowledgements <+ complete.filterMap Packet.acknowledgement)
    (nothing : pendingBody later seen = []) : Heard complete later seen client := by
  refine ⟨?_, acknowledged, fun _ _ _ some => absurd nothing some⟩
  rw [inbox]
  cases later with
  | nil => rfl
  | cons packet later => simp [begun, nothing]

/-- A packet that is no message is passed over. -/
theorem skip (heard : Heard complete (packet :: packets) seen client)
    (other : ¬packet.IsPublish ∨ packet.body = []) : Heard (complete ++ [packet]) packets 0 client := by
  have publication : packet.publication = none := by
    rw [Packet.publication, if_neg]
    tauto
  have acknowledgement : packet.acknowledgement = none := by
    rw [Packet.acknowledgement, if_neg]
    tauto
  have nothing : begun (packet :: packets) seen = none := by
    rw [begun, if_neg]
    rcases other with other | empty
    · tauto
    · simp [pendingBody, empty]
  apply between
  · rw [heard.inbox, nothing, List.filterMap_append]
    simp [publication]
  · rw [List.filterMap_append]
    simpa [acknowledgement] using heard.acknowledged
  · exact pendingBody_zero packets

/-- The first piece announces how long the payload is. -/
theorem toNat_announced {payload missing : List UInt8} (split : packet.body = payload ++ missing)
    (inside : packet.payloadOffset ≤ payload.length) :
    ((packet.fragment packet.header.length payload).remainingLength +
        UInt32.ofNat (payload.length - packet.payloadOffset)).toNat =
      packet.body.length - packet.payloadOffset := by
  have fits := packet.fits
  have lengths := packet.length_encode
  have length := congrArg List.length split
  rw [List.length_append] at length
  rw [Packet.fragment, UInt32.toNat_add, UInt32.toNat_ofNat', UInt32.toNat_ofNat']
  omega

/-- A piece is passed on as a part of the payload, once the message has been announced. -/
theorem opened {payload missing : List UInt8} (heard : Heard complete (packet :: packets) seen client)
    (publish : packet.IsPublish) (behind : packet.header.length ≤ seen) (taken : payload ≠ [])
    (split : packet.encode.drop seen = payload ++ missing)
    (accepted : (mqttMessageReceived tcp client (packet.fragment seen payload)).2 =
      mqttConnectAccepted) :
    ∃ opened offset part,
      mqttMessageReceived tcp client (packet.fragment seen payload) =
        publishContinues tcp opened (packet.fragment seen payload) offset ∧
      opened.inbox = ⟨complete.filterMap Packet.publication, some (packet.published part)⟩ ∧
      opened.acknowledgements = client.acknowledgements ∧
      (0 < packet.qos → opened.inpubPktId = packet.pktId) ∧
      part ++ payload.drop offset =
        (pendingBody (packet :: packets) seen ++ payload).drop packet.payloadOffset ∧
      packet.payloadOffset ≤ (pendingBody (packet :: packets) seen ++ payload).length := by
  have control : mqttCtlPacketType (packet.fragment seen payload).control = mqttMsgTypePublish :=
    publish
  have notConnack : mqttMsgTypePublish ≠ mqttMsgTypeConnack := by decide
  have notPingresp : mqttMsgTypePublish ≠ mqttMsgTypePingresp := by decide
  simp only [mqttMessageReceived, control, if_neg notConnack, if_neg notPingresp, if_true]
    at accepted ⊢
  split at accepted
  · cases accepted
  rename_i fits
  rw [if_neg fits]
  generalize stays : client.assert _ = current at accepted ⊢
  have same : SameInbox client current := stays ▸ (SameLink.assert client _).sameInbox
  have heardHere := heard.same same
  have first := first_iff behind taken split
  have payloadEq : (packet.fragment seen payload).payload = payload := rfl
  simp only [publishReceived, payloadEq, first] at accepted ⊢
  by_cases begins : seen = packet.header.length
  · rw [if_pos begins] at accepted ⊢
    subst begins
    have body : packet.body = payload ++ missing := by
      rw [← split, Packet.encode, List.drop_left]
    cases read : publishHeader (packet.fragment packet.header.length payload) with
    | none =>
        rw [read] at accepted
        cases accepted
    | some header =>
        have sameControl : (packet.fragment packet.header.length payload).control = packet.control :=
          rfl
        rcases publishHeader_some sameControl body read with
          ⟨topic, payloadOffset, inside, identified⟩
        have announced := toNat_announced body inside
        refine ⟨_, _, [], rfl, ?_, same.acknowledgements, identified, ?_, ?_⟩
        · rw [publishBegins, inbox_report _ rfl, Packet.published, ← announced, ← topic, ← payloadOffset]
          exact congrArg (fun inbox : Inbox => (⟨inbox.complete, _⟩ : Inbox)) heardHere.inbox
        · rw [pendingBody_header (Nat.le_refl _), List.nil_append, List.nil_append, payloadOffset]
        · rw [pendingBody_header (Nat.le_refl _)]
          exact inside
  · rw [if_neg begins] at accepted ⊢
    have some : pendingBody (packet :: packets) seen ≠ [] := by
      have positive := List.length_pos_of_ne_nil taken
      have lengths := packet.length_encode
      have length := congrArg List.length split
      rw [List.length_drop, List.length_append] at length
      rw [pendingBody, ne_eq, List.take_eq_nil_iff, ← List.length_eq_zero_iff]
      omega
    rcases heardHere.current packet rfl publish some with ⟨inside, identified⟩
    refine ⟨current, 0, (pendingBody (packet :: packets) seen).drop packet.payloadOffset, rfl, ?_,
      same.acknowledgements, identified, ?_, ?_⟩
    · rw [heardHere.inbox, begun, if_pos ⟨publish, some⟩]
    · rw [List.drop_append_of_le_length inside, List.drop_zero]
    · rw [List.length_append]
      omega

/-- The last piece has been passed on if nothing is missing. -/
theorem remainingLength_iff {payload missing : List UInt8} (taken : payload ≠ [])
    (split : packet.encode.drop seen = payload ++ missing) :
    (packet.fragment seen payload).remainingLength = 0 ↔ missing = [] := by
  have positive := List.length_pos_of_ne_nil taken
  have length := congrArg List.length split
  rw [List.length_drop, List.length_append] at length
  rw [remainingLength_eq_zero_iff, ← List.length_eq_zero_iff]
  omega

/-- A piece of a message. -/
theorem piece {payload missing : List UInt8} (heard : Heard complete (packet :: packets) seen client)
    (behind : packet.header.length ≤ seen) (taken : payload ≠ [])
    (split : packet.encode.drop seen = payload ++ missing)
    (accepted : (mqttMessageReceived tcp client (packet.fragment seen payload)).2 =
      mqttConnectAccepted) (publish : packet.IsPublish) :
    if missing = [] then
      Heard (complete ++ [packet]) packets 0
        (mqttMessageReceived tcp client (packet.fragment seen payload)).1
    else
      Heard complete (packet :: packets) (seen + payload.length)
        (mqttMessageReceived tcp client (packet.fragment seen payload)).1 := by
  rcases heard.opened publish behind taken split accepted with
    ⟨opened, offset, part, continues, inbox, acknowledgements, identified, whole, inside⟩
  have last := remainingLength_iff taken split
  have goesOn : pendingBody (packet :: packets) seen ++ payload =
      pendingBody (packet :: packets) (seen + payload.length) := pendingBody_append behind split
  rw [continues] at accepted ⊢
  rcases publishContinues_accepted accepted with ⟨passedOn, inpubPktId, answered⟩
  have payloadEq : (packet.fragment seen payload).payload = payload := rfl
  rw [inbox, payloadEq] at passedOn
  rw [goesOn] at whole inside
  generalize (publishContinues tcp opened (packet.fragment seen payload) offset).1 = next at *
  have some : pendingBody (packet :: packets) (seen + payload.length) ≠ [] := by
    rw [← goesOn]
    exact List.append_ne_nil_of_right_ne_nil _ taken
  by_cases ends : missing = []
  · rw [if_pos ends]
    have finished := last.mpr ends
    have complete_body : pendingBody (packet :: packets) (seen + payload.length) = packet.body := by
      have length := congrArg List.length split
      have lengths := packet.length_encode
      rw [ends, List.append_nil, List.length_drop] at length
      rw [pendingBody, List.take_of_length_le]
      omega
    rw [complete_body] at some whole
    have publication : packet.publication = Option.some (packet.published (packet.body.drop
        packet.payloadOffset)) := if_pos ⟨publish, some⟩
    apply between
    · rw [passedOn, List.filterMap_append]
      simp [Inbox.take, finished, publication, whole, Packet.published]
    · have answer : lastAnswer (packet.fragment seen payload) opened.inpubPktId <+
          [packet].filterMap Packet.acknowledgement := by
        rw [lastAnswer]
        split
        · rename_i both
          have acknowledgement : packet.acknowledgement = _ := if_pos ⟨publish, some, both.2⟩
          rw [identified both.2, List.filterMap_cons_some acknowledgement]
          exact List.Sublist.refl _
        · exact List.nil_sublist _
      rw [List.filterMap_append]
      rw [acknowledgements] at answered
      exact answered.trans (heard.acknowledged.append answer)
    · exact pendingBody_zero packets
  · rw [if_neg ends]
    have unfinished := mt last.mp ends
    refine ⟨?_, ?_, ?_⟩
    · rw [passedOn, begun, if_pos ⟨publish, some⟩]
      simp [Inbox.take, unfinished, whole, Packet.published]
    · rw [lastAnswer, if_neg (fun both => unfinished both.1), List.append_nil, acknowledgements]
        at answered
      exact answered.trans heard.acknowledged
    · rintro other here _ _
      obtain rfl := Option.some.inj here
      rw [inpubPktId]
      exact ⟨inside, identified⟩

/-- Of a packet that is not published, nothing is passed on. -/
theorem ahead (heard : Heard complete (packet :: packets) seen client) (last : ℕ)
    (nothing : packet.IsPublish → pendingBody (packet :: packets) seen = [] ∧
      pendingBody (packet :: packets) last = []) :
    Heard complete (packet :: packets) last client := by
  have same : begun (packet :: packets) seen = begun (packet :: packets) last := by
    simp only [begun]
    by_cases publish : packet.IsPublish
    · simp [nothing publish]
    · simp [publish]
  refine ⟨same ▸ heard.inbox, heard.acknowledged, ?_⟩
  rintro other here publish some
  obtain rfl := Option.some.inj here
  exact absurd (nothing publish).2 some

/-- A piece of any packet. -/
theorem taken {payload missing : List UInt8} (heard : Heard complete (packet :: packets) seen client)
    (behind : packet.header.length ≤ seen) (taken : payload ≠ [])
    (split : packet.encode.drop seen = payload ++ missing)
    (accepted : (mqttMessageReceived tcp client (packet.fragment seen payload)).2 =
      mqttConnectAccepted) :
    if missing = [] then
      Heard (complete ++ [packet]) packets 0
        (mqttMessageReceived tcp client (packet.fragment seen payload)).1
    else
      Heard complete (packet :: packets) (seen + payload.length)
        (mqttMessageReceived tcp client (packet.fragment seen payload)).1 := by
  by_cases publish : packet.IsPublish
  · exact heard.piece behind taken split accepted publish
  · have control : (packet.fragment seen payload).control = packet.control := rfl
    have after : Heard complete (packet :: packets) seen
        (mqttMessageReceived tcp client (packet.fragment seen payload)).1 :=
      heard.same (other_sameInbox publish control)
    split
    · exact after.skip (Or.inl publish)
    · exact after.ahead _ fun contrary => absurd contrary publish

end Heard

/-- After a piece that is refused, no other one is handled. -/
theorem deliver_cons {State : Type} {received : State → Fragment → State × ℕ} {state : State}
    {fragment : Fragment} {rest : List Fragment} (taken : fragment.payload ≠ []) :
    deliver received state (fragment :: rest) =
      if (received state fragment).2 = mqttConnectAccepted then
        deliver received (received state fragment).1 rest
      else received state fragment := by
  rw [deliver]
  by_cases accepted : (received state fragment).2 = mqttConnectAccepted
  · rw [if_neg (fun both => both.2 accepted), if_pos accepted]
  · rw [if_pos ⟨taken, accepted⟩, if_neg accepted]

/-- What has been accepted of a stream is what the application has of it. -/
theorem Fragmented.heard {packets later complete : List Packet} {seen last : ℕ}
    {fragments : List Fragment} (fragmented : Fragmented packets seen fragments later last)
    (start : Heard complete packets seen client)
    (accepted : (deliver (mqttMessageReceived tcp) client fragments).2 = mqttConnectAccepted) :
    ∃ more, packets = more ++ later ∧
      Heard (complete ++ more) later last (deliver (mqttMessageReceived tcp) client fragments).1 := by
  induction fragmented generalizing client complete with
  | stay => exact ⟨[], rfl, by simpa [deliver] using start⟩
  | header arrived inHeader _ ih =>
      refine ih (start.ahead _ fun _ => ⟨?_, ?_⟩) accepted
      · exact pendingBody_header (Nat.le_trans arrived inHeader)
      · exact pendingBody_header inHeader
  | @empty packet packets later seen last fragments noBody _ ih =>
      rw [deliver, if_neg (fun both => both.1 rfl)] at accepted ⊢
      have after : Heard (complete ++ [packet]) packets 0 (mqttMessageReceived tcp client
          (packet.fragment packet.header.length [])).1 :=
        (start.skip (Or.inr noBody)).same (empty_sameInbox client packet)
      rcases ih after accepted with ⟨more, split, heard⟩
      refine ⟨packet :: more, congrArg _ split, ?_⟩
      rwa [List.append_assoc] at heard
  | @piece packet packets later seen last fragments payload missing behind taken more split small _ ih =>
      rw [deliver_cons taken] at accepted ⊢
      split at accepted
      · rename_i accepted_piece
        rw [if_pos accepted_piece]
        have after := start.taken behind taken split accepted_piece
        rw [if_neg more] at after
        exact ih after accepted
      · rename_i refused
        exact absurd accepted refused
  | @last packet packets later seen last fragments payload behind taken ends small _ ih =>
      rw [deliver_cons taken] at accepted ⊢
      split at accepted
      · rename_i accepted_piece
        rw [if_pos accepted_piece]
        have split : packet.encode.drop seen = payload ++ [] := by
          rw [ends, List.append_nil]
        have after := start.taken behind taken split accepted_piece
        rw [if_pos rfl] at after
        rcases ih after accepted with ⟨more, splitRest, heard⟩
        refine ⟨packet :: more, congrArg _ splitRest, ?_⟩
        rwa [List.append_assoc] at heard
      · rename_i refused
        exact absurd accepted refused

/-! ## Runs -/

/-- Nothing has been heard of the server. -/
structure Unheard (client next : MqttClient) : Prop extends SameInbox client next where
  connState : next.connState = client.connState
  incoming : next.incoming = client.incoming
  arrived : next.arrived = client.arrived

theorem SameLink.unheard {next : MqttClient} (same : SameLink client next) : Unheard client next :=
  ⟨same.sameInbox, same.connState, same.incoming, same.arrived⟩

/-- Nothing has arrived yet. -/
structure Untouched (client : MqttClient) : Prop where
  arrived : client.arrived = []
  msgIdx : client.incoming.msgIdx = 0
  inbox : client.inbox = ⟨[], none⟩
  acknowledgements : client.acknowledgements = []

/-- Whatever packets the server is sending, what has arrived of them is what the application has. -/
def UpToDate (client : MqttClient) : Prop :=
  ∀ packets, client.arrived.flatMap PbufChain.bytes <+: Packet.encodeAll packets →
    (∀ p ∈ client.arrived, Suits p packets) →
      ∃ complete later seen, packets = complete ++ later ∧ Kept later seen client.incoming ∧
        Packet.encodeAll packets =
          client.arrived.flatMap PbufChain.bytes ++ (Packet.encodeAll later).drop seen ∧
        Heard complete later seen client

theorem Untouched.upToDate (untouched : Untouched client) : UpToDate client := by
  intro packets _ _
  have reading : Reading packets 0 0 client.incoming ⟨0, 0, 0, 0⟩ :=
    Reading.fresh packets untouched.msgIdx rfl rfl
  refine ⟨[], packets, 0, rfl, reading.kept, ?_, ?_⟩
  · rw [untouched.arrived]
    rfl
  · apply Heard.between untouched.inbox
    · rw [untouched.acknowledgements]
      exact List.nil_sublist _
    · exact pendingBody_zero packets

/-- The stream goes on where it has stopped. -/
theorem UpToDate.read {p : PbufChain} {current : MqttClient} {incoming : Incoming}
    (upToDate : UpToDate client)
    (parsed : mqttParseIncoming (mqttMessageReceived tcp) p client client.incoming =
      some (current, incoming, mqttConnectAccepted)) :
    UpToDate { current with incoming, arrived := client.arrived ++ [p] } := by
  intro packets stream suits
  simp only [List.flatMap_append, List.flatMap_singleton] at stream ⊢
  have before : ∀ other ∈ client.arrived, Suits other packets :=
    fun other member => suits other (List.mem_append_left _ member)
  rcases upToDate packets ((List.prefix_append _ _).trans stream) before with
    ⟨complete, later, seen, split, kept, rest, heard⟩
  rw [rest, List.prefix_append_right_inj] at stream
  have suitsLater : Suits p later :=
    (suits p (List.mem_append_right _ List.mem_cons_self)).suffix (split ▸ List.suffix_append _ _)
  rcases mqttParseIncoming_spec (mqttMessageReceived tcp) client kept stream suitsLater with
    ⟨fragments, after, last, incomingNext, fragmented, parsedSo, keptNext⟩
  rw [parsed, Option.some.injEq, Prod.mk.injEq, Prod.mk.injEq] at parsedSo
  rcases parsedSo with ⟨rfl, rfl, accepted⟩
  rcases keptNext accepted.symm with ⟨keptAfter, restNext⟩
  rcases fragmented.heard heard accepted.symm with ⟨more, splitLater, heardAfter⟩
  refine ⟨complete ++ more, after, last, ?_, keptAfter, ?_, ?_⟩
  · rw [split, splitLater, List.append_assoc]
  · rw [rest, restNext, List.append_assoc]
  · exact heardAfter.same ⟨rfl, rfl, rfl⟩

/-- What holds of a client between its steps. -/
structure Attentive (client : MqttClient) : Prop where
  opening : client.connState = .tcpConnecting → Untouched client
  upToDate : client.connState ≠ .tcpDisconnected → UpToDate client

namespace Attentive

variable {next : MqttClient}

theorem closed (dead : client.connState = .tcpDisconnected) : Attentive client := by
  refine ⟨?_, absurd dead⟩
  intro opening
  rw [dead] at opening
  cases opening

theorem unheard (attentive : Attentive client) (unheard : Unheard client next) :
    Attentive next := by
  refine ⟨?_, ?_⟩
  · intro opening
    have untouched := attentive.opening (unheard.connState.symm.trans opening)
    exact ⟨unheard.arrived.trans untouched.arrived, unheard.incoming ▸ untouched.msgIdx,
      unheard.inbox.trans untouched.inbox,
      unheard.acknowledgements.trans untouched.acknowledgements⟩
  · intro live packets
    rw [unheard.connState] at live
    rw [unheard.arrived, unheard.incoming]
    intro stream suits
    rcases attentive.upToDate live packets stream suits with
      ⟨complete, later, seen, split, kept, rest, heard⟩
    exact ⟨complete, later, seen, split, kept, rest, heard.same unheard.toSameInbox⟩

theorem mqttClientConnect (attentive : Attentive client) (info : MqttConnectClientInfo)
    (answers : OpenAnswers) : Attentive (mqttClientConnect client info answers).1 := by
  simp only [Mqtt.mqttClientConnect]
  split
  · exact attentive
  split
  · exact closed rfl
  split
  · split
    · exact closed rfl
    split
    · exact closed rfl
    split
    · exact closed rfl
    have other : ∀ parts, (connectMessage info parts).isAcknowledgement = false := by
      intro parts
      simp only [Message.isAcknowledgement, connectMessage, mqttCtlPacketType_fixedHeaderByte]
      decide
    have untouched : ∀ parts opening output, opening = { wipe client with
        keepAlive := info.keepAlive, requests := mqttInitRequests (wipe client).requests
        conn := some .connecting, connState := .tcpConnecting } →
        Untouched (opening.write (connectMessage info parts) output) := by
      rintro parts opening output rfl
      refine ⟨rfl, rfl, rfl, ?_⟩
      rw [acknowledgements_write, other]
      rfl
    exact ⟨fun _ => untouched _ _ _ rfl, fun _ => (untouched _ _ _ rfl).upToDate⟩
  · exact closed rfl

theorem mqttTcpConnectCb (attentive : Attentive client) (opening : client.connState = .tcpConnecting)
    (err : ℤ) : Attentive (mqttTcpConnectCb tcp client err) := by
  rw [Mqtt.mqttTcpConnectCb]
  split
  · exact attentive
  · have untouched := attentive.opening opening
    refine ⟨?_, fun _ => Untouched.upToDate ?_⟩
    · intro connecting
      cases connecting
    · exact ⟨untouched.arrived, rfl, untouched.inbox, untouched.acknowledgements⟩

theorem mqttTcpRecvCb {p : Option PbufChain} {err : ℤ} (attentive : Attentive client)
    (sound : Sound False True 0 client) (established : Established client)
    (received : mqttTcpRecvCb tcp client p err = some next) : Attentive next := by
  cases p with
  | none =>
      cases received
      exact closed (connState_mqttClose _ _)
  | some p =>
      simp only [Mqtt.mqttTcpRecvCb] at received
      split at received
      · cases received
        exact attentive
      rw [Option.map_eq_some_iff] at received
      rcases received with ⟨⟨current, incoming, res⟩, parsed, rfl⟩
      have reads := sound.reads established parsed
      by_cases accepted : res = mqttConnectAccepted
      · subst accepted
        have read : Attentive { current with incoming, arrived := client.arrived ++ [p] } := by
          refine ⟨?_, fun _ => (attentive.upToDate established.live).read parsed⟩
          intro opening
          rcases reads.1 with connecting | connected
          · rw [connecting] at opening
            cases opening
          · rw [connected] at opening
            cases opening
        simp only [ne_eq, not_true_eq_false, if_false]
        apply read.unheard
        split
        · exact ⟨⟨rfl, rfl, rfl⟩, rfl, rfl, rfl⟩
        · exact ⟨⟨rfl, rfl, rfl⟩, rfl, rfl, rfl⟩
      · apply closed
        simp only [if_pos accepted]
        split
        · exact connState_mqttClose _ _
        · exact connState_mqttClose _ _

theorem mqttClose (tcp : ℕ → TcpAnswers) (client : MqttClient) (reason : ℕ) :
    Attentive (mqttClose tcp client reason) :=
  closed (connState_mqttClose client reason)

end Attentive

theorem Unheard.trans {middle next : MqttClient} (first : Unheard client middle)
    (second : Unheard middle next) : Unheard client next :=
  ⟨first.toSameInbox.trans second.toSameInbox, second.connState.trans first.connState,
    second.incoming.trans first.incoming, second.arrived.trans first.arrived⟩

theorem requestsElapsed_unheard (client : MqttClient) (t : UInt8) :
    Unheard client (requestsElapsed client t) := by
  refine ⟨⟨?_, rfl, rfl⟩, rfl, rfl, rfl⟩
  have nothing : ∀ expired : List (Option ℕ),
      (expired.flatMap fun cb => requestReports cb errTimeout).filter Report.isDelivery = [] := by
    intro expired
    induction expired with
    | nil => rfl
    | cons cb rest ih =>
        rw [List.flatMap_cons, List.filter_append, requestReports_deliveries, ih, List.append_nil]
  simp only [requestsElapsed, MqttClient.inbox, MqttClient.deliveries, MqttClient.setRequests,
    List.filter_append, nothing, List.append_nil]

theorem sendKeepAlive_unheard (client : MqttClient) : Unheard client (sendKeepAlive client) := by
  have other : pingreqMessage.isAcknowledgement = false := by decide
  simp only [sendKeepAlive]
  split
  · split
    · refine ⟨⟨rfl, rfl, ?_⟩, rfl, rfl, rfl⟩
      have written := acknowledgements_write client pingreqMessage (appendPingreq client.output)
      rw [other] at written
      exact written.trans (List.append_nil _)
    · exact ⟨⟨rfl, rfl, rfl⟩, rfl, rfl, rfl⟩
  · exact ⟨⟨rfl, rfl, rfl⟩, rfl, rfl, rfl⟩

/-- The timer gives the connection up or hears nothing. -/
theorem cyclicElapsed_unheard (client : MqttClient) :
    (cyclicElapsed tcp client).1.connState = .tcpDisconnected ∨
      Unheard client (cyclicElapsed tcp client).1 := by
  simp only [cyclicElapsed]
  split
  · split
    · exact Or.inl (connState_mqttClose _ _)
    · exact Or.inr ⟨⟨rfl, rfl, rfl⟩, rfl, rfl, rfl⟩
  split
  · have elapsed := requestsElapsed_unheard client 5
    split
    · simp only [keepAliveElapsed]
      split
      · left
        rw [(connState_sendKeepAlive _).1]
        exact connState_mqttClose _ _
      · right
        apply elapsed.trans
        have counted : Unheard (requestsElapsed client 5) { requestsElapsed client 5 with
            serverWatchdog := (requestsElapsed client 5).serverWatchdog + 1 } :=
          ⟨⟨rfl, rfl, rfl⟩, rfl, rfl, rfl⟩
        exact counted.trans (sendKeepAlive_unheard _)
    · exact Or.inr elapsed
  · exact Or.inr ⟨⟨rfl, rfl, rfl⟩, rfl, rfl, rfl⟩

theorem completeQos0_sameLink (fuel : ℕ) (client : MqttClient) :
    SameLink client (completeQos0 fuel client) := by
  induction fuel generalizing client with
  | zero => exact SameLink.refl client
  | succ fuel ih =>
      rw [completeQos0]
      split
      · exact SameLink.setRequests client _
      · exact (SameLink.setRequests client _).trans ((SameLink.complete _ _ _).trans (ih _))

theorem mqttTcpSentCb_unheard (client : MqttClient) : Unheard client (mqttTcpSentCb tcp client) := by
  simp only [mqttTcpSentCb]
  split
  · have counted : Unheard client { client with cyclicTick := 0, serverWatchdog := 0 } :=
      ⟨⟨rfl, rfl, rfl⟩, rfl, rfl, rfl⟩
    exact counted.trans ((completeQos0_sameLink _ _).trans (SameLink.send _)).unheard
  · exact (SameLink.refl client).unheard

theorem Attentive.step {next : MqttClient} {event : ClientEvent} (attentive : Attentive client)
    (sound : Sound False True 0 client) (stepped : clientStep tcp client event = some next) :
    Attentive next := by
  cases event with
  | connect info answers =>
      cases stepped
      exact attentive.mqttClientConnect info answers
  | disconnect =>
      cases stepped
      rw [mqttDisconnect]
      split
      · exact mqttClose tcp _ _
      · exact attentive
  | publish args =>
      cases stepped
      exact attentive.unheard (SameLink.mqttPublish client args).unheard
  | subUnsub args =>
      cases stepped
      exact attentive.unheard (SameLink.mqttSubUnsub client args).unheard
  | cyclicTimer =>
      rw [clientStep] at stepped
      split at stepped
      · cases stepped
        have fired : Attentive { client with timers := client.timers - 1 } :=
          attentive.unheard ⟨⟨rfl, rfl, rfl⟩, rfl, rfl, rfl⟩
        have elapsed := @cyclicElapsed_unheard tcp { client with timers := client.timers - 1 }
        rw [mqttCyclicTimer]
        generalize cyclicElapsed tcp { client with timers := client.timers - 1 } = pair at elapsed ⊢
        rcases pair with ⟨after, restartTimer⟩
        have attentiveAfter : Attentive after := by
          rcases elapsed with dead | unheard
          · exact closed dead
          · exact fired.unheard unheard
        cases restartTimer with
        | false => exact attentiveAfter
        | true => exact attentiveAfter.unheard ⟨⟨rfl, rfl, rfl⟩, rfl, rfl, rfl⟩
      · cases stepped
  | tcpConnected err =>
      rw [clientStep] at stepped
      split at stepped
      · rename_i opening
        cases stepped
        exact attentive.mqttTcpConnectCb (sound.connecting opening) err
      · cases stepped
  | tcpRecv p err =>
      rw [clientStep] at stepped
      split at stepped
      · rename_i opened
        exact attentive.mqttTcpRecvCb sound (sound.established opened) stepped
      · cases stepped
  | tcpSent =>
      rw [clientStep] at stepped
      split at stepped
      · cases stepped
        exact attentive.unheard (mqttTcpSentCb_unheard client)
      · cases stepped
  | tcpPoll =>
      rw [clientStep] at stepped
      split at stepped
      · cases stepped
        exact attentive.unheard (SameLink.mqttTcpPollCb client).unheard
      · cases stepped
  | tcpErr =>
      rw [clientStep] at stepped
      split at stepped
      · cases stepped
        exact mqttClose tcp _ _
      · cases stepped

theorem attentive_run {events : List ClientEvent} (ran : (clientSystem tcp).run events = some client) :
    Attentive client := by
  have both : Sound False True 0 client ∧ Attentive client := by
    refine System.invariant (fun current => Sound False True 0 current ∧ Attentive current)
      ?_ ⟨Sound.init.weaken False.elim, Attentive.closed rfl⟩ ran
    rintro current event next ⟨sound, attentive⟩ stepped
    exact ⟨(sound.step stepped).weaken False.elim, attentive.step sound stepped⟩
  exact both.2

/-- The packets that have arrived completely are the first ones of the stream. -/
theorem readAll_arrived {packets complete later : List Packet} {seen : ℕ} {bytes : List UInt8}
    {incoming : Incoming} (split : packets = complete ++ later) (kept : Kept later seen incoming)
    (rest : Packet.encodeAll packets = bytes ++ (Packet.encodeAll later).drop seen) :
    Packet.readAll bytes = complete := by
  have bytes_eq : bytes = Packet.encodeAll complete ++ (Packet.encodeAll later).take seen := by
    have whole : Packet.encodeAll packets = Packet.encodeAll complete ++
        ((Packet.encodeAll later).take seen ++ (Packet.encodeAll later).drop seen) := by
      rw [split, List.take_append_drop, Packet.encodeAll, List.flatMap_append]
      rfl
    rw [rest, ← List.append_assoc] at whole
    exact List.append_cancel_right whole
  rw [bytes_eq]
  apply Packet.readAll_append
  cases later with
  | nil =>
      rcases kept with ⟨rfl, _⟩
      rfl
  | cons packet later =>
      have incomplete := kept.incomplete
      rw [Packet.encodeAll_cons, List.take_append_of_le_length (Nat.le_of_lt incomplete)]
      apply Packet.read_initial (List.take_append_drop seen packet.encode)
      rw [ne_eq, List.drop_eq_nil_iff]
      omega

end

/-- A message with an identifier: the topic is `t` and the payload is `1;2`. -/
def tiltPublished : Packet :=
  ⟨0x32, [0x00, 0x01, 0x74, 0x00, 0x07, 0x31, 0x3B, 0x32], by decide⟩

/-- The message comes with the acceptance of the connection and is cut in its payload. -/
def receivingSession : List ClientEvent :=
  [.connect mqttClientInfo ⟨true, 0, 0⟩, .tcpConnected 0,
    .tcpRecv (some ⟨[[0x20, 0x02, 0x00, 0x00, 0x32, 0x08, 0x00, 0x01, 0x74, 0x00, 0x07, 0x31]],
      by decide⟩) 0,
    .tcpRecv (some ⟨[[0x3B, 0x32]], by decide⟩) 0]

theorem receivingSession_enabled :
    ((clientSystem tcpTakes).run receivingSession).isSome := by decide +kernel

example :
    let client := (clientSystem tcpTakes).final receivingSession receivingSession_enabled
    client.inbox = ⟨[⟨[0x74], 3, [0x31, 0x3B, 0x32]⟩], none⟩ ∧
      client.acknowledgements = [responseMessage mqttMsgTypePuback 0 7] := by decide +kernel

end MqttAccelero.Mqtt
