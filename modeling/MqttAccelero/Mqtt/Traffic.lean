import MqttAccelero.Mqtt.Client

/-!
# Messages on their way to the server

Each message is written to the ring as the bytes of a control packet. What TCP has
taken of a connection, followed by what still waits, is all that has been written,
unless a message did not leave a byte of the ring free: the ring is empty then, and
TCP never gets what was in it.
-/

namespace MqttAccelero.Mqtt

/-! ## What is appended -/

section

variable {output : MqttRingbuf}

theorem appendU16_eq (value : UInt16) :
    mqttOutputAppendU16 output value = (u16Bytes value).foldl mqttRingbufPut output := rfl

theorem appendString_eq (str : List UInt8) (length : UInt16) :
    mqttOutputAppendString output str length =
      (stringBytes str length).foldl mqttRingbufPut output := rfl

theorem appendResponse_eq (msg qos : UInt8) (pktId : UInt16) :
    appendResponse output msg qos pktId =
      (responseMessage msg qos pktId).bytes.foldl mqttRingbufPut output := by
  simp only [appendResponse, mqttOutputAppendFixedHeader_eq, appendU16_eq, ← List.foldl_append]
  rfl

theorem appendPingreq_eq :
    appendPingreq output = pingreqMessage.bytes.foldl mqttRingbufPut output := by
  simp only [appendPingreq, mqttOutputAppendFixedHeader_eq, pingreqMessage, Message.bytes,
    List.append_nil]

theorem appendPayload_eq (args : PublishArgs) :
    appendPayload output args = args.payloadBytes.foldl mqttRingbufPut output := by
  rw [appendPayload, PublishArgs.payloadBytes]
  cases args.payload with
  | none => rfl
  | some data =>
      by_cases some : 0 < args.payloadLength
      · simp only [if_pos some]
        rfl
      · have zero : args.payloadLength.toNat = 0 := by
          rw [UInt16.lt_iff_toNat_lt, UInt16.toNat_zero] at some
          omega
        simp only [if_neg some, zero]
        rfl

theorem appendPublish_eq (args : PublishArgs) (pktId remainingLength : UInt16) :
    appendPublish output args pktId remainingLength =
      (publishMessage args pktId remainingLength).bytes.foldl mqttRingbufPut output := by
  have identified : ∀ rb : MqttRingbuf,
      (if 0 < args.qos then mqttOutputAppendU16 rb pktId else rb) =
        (if 0 < args.qos then u16Bytes pktId else []).foldl mqttRingbufPut rb := by
    intro rb
    split <;> rfl
  simp only [appendPublish, appendPayload_eq, identified, mqttOutputAppendFixedHeader_eq,
    appendString_eq, ← List.foldl_append]
  simp [publishMessage, Message.bytes]

theorem appendSubscribe_eq (args : SubscribeArgs) (pktId remainingLength : UInt16) :
    appendSubscribe output args pktId remainingLength =
      (subscribeMessage args pktId remainingLength).bytes.foldl mqttRingbufPut output := by
  have ends : ∀ rb : MqttRingbuf,
      (if args.sub = true then mqttOutputAppendU8 rb args.qosByte else rb) =
        (if args.sub = true then [args.qosByte] else []).foldl mqttRingbufPut rb := by
    intro rb
    split <;> rfl
  simp only [appendSubscribe, ends, mqttOutputAppendFixedHeader_eq, appendString_eq, appendU16_eq,
    ← List.foldl_append]
  simp [subscribeMessage, Message.bytes]

theorem appendOptionalString_eq (flags flag : UInt8) (str : Option (List UInt8)) :
    appendOptionalString output flags flag str =
      (optionalString flags flag str).foldl mqttRingbufPut output := by
  rw [appendOptionalString, optionalString]
  split <;> rfl

theorem appendConnect_eq (info : MqttConnectClientInfo) (parts : ConnectParts) :
    appendConnect output info parts =
      (connectMessage info parts).bytes.foldl mqttRingbufPut output := by
  have level : ∀ rb : MqttRingbuf,
      mqttOutputAppendU8 (mqttOutputAppendU8 rb 4) parts.flags =
        [4, parts.flags].foldl mqttRingbufPut rb := fun _ => rfl
  simp only [appendConnect, appendOptionalString_eq, level, mqttOutputAppendFixedHeader_eq,
    appendString_eq, appendU16_eq, ← List.foldl_append]
  simp [connectMessage, Message.bytes]

end

/-! ## What is on the way -/

/-- The bytes that TCP never gets once the message has been written. -/
def Written.lost (one : Written) : ℕ :=
  mqttOutputRingbufSize *
    ((one.waiting + one.message.bytes.length) / mqttOutputRingbufSize)

/-- A byte of the ring is left free. -/
def Written.Fits (one : Written) : Prop :=
  one.waiting + one.message.bytes.length < mqttOutputRingbufSize

instance (one : Written) : Decidable one.Fits :=
  Nat.decLt _ _

def writtenBytes (written : List Written) : List UInt8 :=
  written.flatMap fun one => one.message.bytes

/-- The bytes written are those that TCP has taken, those that wait and those that are lost. -/
structure Traffic (output : MqttRingbuf) (stream : List UInt8) (written : List Written) : Prop where
  wf : output.Wf
  length : stream.length + (mqttRingbufLen output).toNat + (written.map Written.lost).sum =
    (writtenBytes written).length
  exact : (∀ one ∈ written, one.Fits) → stream ++ output.contents = writtenBytes written
  checked : ∀ one ∈ written,
    totalLength one.message.remainingLength % 65536 + one.waiting ≤ mqttOutputRingbufSize

theorem writtenBytes_concat (written : List Written) (one : Written) :
    writtenBytes (written ++ [one]) = writtenBytes written ++ one.message.bytes := by
  simp [writtenBytes]

theorem Written.lost_eq_zero_iff (one : Written) : one.lost = 0 ↔ one.Fits := by
  rw [Written.lost, Written.Fits, mqttOutputRingbufSize]
  omega

namespace Traffic

variable {output : MqttRingbuf} {stream : List UInt8} {written : List Written}

theorem init : Traffic mqttClientNew.output [] [] := by
  refine ⟨⟨by decide, by decide⟩, rfl, fun _ => rfl, ?_⟩
  intro one member
  cases member

theorem write {next : MqttRingbuf} {message : Message} (traffic : Traffic output stream written)
    (appended : next = message.bytes.foldl mqttRingbufPut output)
    (room : mqttOutputCheckSpace output message.remainingLength = true) :
    Traffic next stream (written ++ [⟨(mqttRingbufLen output).toNat, message⟩]) := by
  have length := traffic.length
  rw [mqttOutputCheckSpace_iff] at room
  subst appended
  refine ⟨traffic.wf.puts _, ?_, ?_, ?_⟩
  · rw [writtenBytes_concat, List.length_append, ← length, traffic.wf.len_puts, List.map_append,
      List.sum_append, List.map_singleton, List.sum_singleton, Written.lost]
    simp only [mqttOutputRingbufSize]
    omega
  · intro fits
    have fitsBefore : ∀ one ∈ written, one.Fits :=
      fun one member => fits one (List.mem_append_left _ member)
    have fitsHere := fits _ (List.mem_append_right _ List.mem_cons_self)
    rw [traffic.wf.contents_puts _ fitsHere, ← List.append_assoc, traffic.exact fitsBefore,
      writtenBytes_concat]
  · intro one member
    rcases List.mem_append.mp member with before | here
    · exact traffic.checked one before
    · rw [List.mem_singleton.mp here]
      exact room

theorem send (traffic : Traffic output stream written) (tpcb : TcpAnswers) :
    Traffic (mqttOutputSend output tpcb).1 (stream ++ (mqttOutputSend output tpcb).2) written := by
  rcases traffic.wf.send tpcb with ⟨wf, taken⟩
  refine ⟨wf, ?_, ?_, traffic.checked⟩
  · have length := traffic.length
    have same := congrArg List.length taken
    rw [List.length_append, MqttRingbuf.length_contents, MqttRingbuf.length_contents] at same
    rw [List.length_append]
    omega
  · intro fits
    rw [List.append_assoc, taken]
    exact traffic.exact fits

/-- Nothing is lost exactly if each message leaves a byte of the ring free. -/
theorem exact_iff (traffic : Traffic output stream written) :
    stream ++ output.contents = writtenBytes written ↔ ∀ one ∈ written, one.Fits := by
  constructor
  · intro whole one member
    have length := traffic.length
    have same := congrArg List.length whole
    rw [List.length_append, MqttRingbuf.length_contents] at same
    have nothing : (written.map Written.lost).sum = 0 := by omega
    have none := List.sum_eq_zero_iff_forall_eq_nat.mp nothing
    exact one.lost_eq_zero_iff.mp (none _ (List.mem_map_of_mem member))
  · exact traffic.exact

end Traffic

/-! ## Whole messages -/

/-- The body has the length that the fixed header says. -/
def Message.Whole (message : Message) : Prop :=
  message.body.length = message.remainingLength.toNat

def Message.packet (message : Message) (whole : message.Whole) : Packet :=
  ⟨message.control, message.body, fits_of_remainingLength whole⟩

theorem Message.encode_packet {message : Message} (whole : message.Whole) :
    (message.packet whole).encode = message.bytes := by
  rw [Message.Whole] at whole
  simp only [Packet.encode, Packet.header, Message.packet, Message.bytes, whole, List.cons_append]

/-- A pointer to the payload is given, unless there is none of it. -/
def PublishArgs.Complete (args : PublishArgs) : Prop :=
  args.payload = none → args.payloadLength = 0

theorem length_u16Bytes (value : UInt16) : (u16Bytes value).length = 2 := rfl

theorem length_stringBytes (str : List UInt8) (length : UInt16) :
    (stringBytes str length).length = 2 + str.length := by
  rw [stringBytes, List.length_append, length_u16Bytes]

theorem responseMessage_whole (msg qos : UInt8) (pktId : UInt16) :
    (responseMessage msg qos pktId).Whole := rfl

theorem pingreqMessage_whole : pingreqMessage.Whole := rfl

theorem PublishArgs.Complete.length {args : PublishArgs} (complete : args.Complete) :
    args.payloadBytes.length = args.payloadLength.toNat := by
  rw [payloadBytes]
  split
  · exact Memory.length_load _ _ _
  · rename_i nothing
    rw [complete nothing]
    rfl

theorem publishMessage_whole {args : PublishArgs} {totalLen : ℕ} (pktId : UInt16)
    (complete : args.Complete) (fits : totalLen ≤ 0xFFFF)
    (total : totalLen = 2 + args.topic.length + args.payloadLength.toNat +
      if 0 < args.qos then 2 else 0) :
    (publishMessage args pktId (UInt16.ofNat totalLen)).Whole := by
  rw [Message.Whole, publishMessage, UInt16.toNat_ofNat_of_lt' (Nat.lt_succ_of_le fits)]
  simp only [List.length_append, length_stringBytes, complete.length, total]
  split
  · rw [length_u16Bytes]
    omega
  · rw [List.length_nil]
    omega

theorem subscribeMessage_whole {args : SubscribeArgs} (pktId : UInt16)
    (fits : args.totalLen ≤ 0xFFFF) :
    (subscribeMessage args pktId (UInt16.ofNat args.totalLen)).Whole := by
  rw [Message.Whole, subscribeMessage, UInt16.toNat_ofNat_of_lt' (Nat.lt_succ_of_le fits)]
  simp only [List.length_append, length_stringBytes, length_u16Bytes, SubscribeArgs.totalLen]
  split
  · rw [List.length_singleton]
    omega
  · rw [List.length_nil]
    omega

/-! ### The connect message -/

section

variable {info : MqttConnectClientInfo} {parts next : ConnectParts}

def willFlags (info : MqttConnectClientInfo) : UInt8 :=
  mqttConnectFlagWill ||| ((info.willQos &&& 3) <<< 3) |||
    (if info.willRetain ≠ 0 then mqttConnectFlagWillRetain else 0)

def MqttConnectClientInfo.hasWill (info : MqttConnectClientInfo) : Bool :=
  info.willTopic.isSome && info.willMsg.isSome

/-- The flags and the length are those before with what is added. -/
structure Adds (parts next : ConnectParts) (present : Bool) (flags : UInt8) (more : ℕ) : Prop where
  flags : next.flags = parts.flags ||| bif present then flags else 0
  length : next.remainingLength.toNat =
    parts.remainingLength.toNat + bif present then more else 0

theorem Adds.nothing (flags : UInt8) (more : ℕ) : Adds parts parts false flags more :=
  ⟨UInt8.or_zero.symm, rfl⟩

theorem lengthen_adds {flags : UInt8} {more : ℕ}
    (known : parts.lengthen flags more = .ok next) : Adds parts next true flags more := by
  simp only [ConnectParts.lengthen] at known
  split at known
  · rename_i fits
    cases known
    exact ⟨rfl, UInt16.toNat_ofNat_of_lt' (Nat.lt_succ_of_le fits)⟩
  · cases known

theorem addWill_adds (known : addWill info parts = .ok next) :
    Adds parts next info.hasWill (willFlags info)
      (2 + (info.willTopic.getD []).length + 2 + (info.willMsg.getD []).length) := by
  simp only [addWill] at known
  split at known
  · rename_i topic msg isTopic isMsg
    rw [MqttConnectClientInfo.hasWill, isTopic, isMsg]
    split at known
    · cases known
    split at known
    · cases known
    split at known
    · cases known
    exact lengthen_adds known
  · rename_i other
    cases known
    have absent : info.hasWill = false := by
      rw [MqttConnectClientInfo.hasWill]
      cases isTopic : info.willTopic with
      | none => rfl
      | some topic =>
          cases isMsg : info.willMsg with
          | none => rfl
          | some msg => exact absurd isMsg (other topic msg isTopic)
    rw [absent]
    exact Adds.nothing _ _

theorem addCredential_adds {flag : UInt8} {credential : Option (List UInt8)}
    (known : addCredential flag credential parts = .ok next) :
    Adds parts next credential.isSome flag (2 + (credential.getD []).length) := by
  cases credential with
  | none =>
      cases known
      exact Adds.nothing _ _
  | some str =>
      simp only [addCredential] at known
      split at known
      · cases known
      split at known
      · cases known
      exact lengthen_adds known

theorem addClientId_adds (known : addClientId info parts = .ok next) :
    Adds parts next true mqttConnectFlagCleanSession (2 + info.clientId.length) := by
  rw [addClientId] at known
  split at known
  · cases known
  · exact lengthen_adds known

theorem willFlags_mem (info : MqttConnectClientInfo) :
    willFlags info ∈ [0x04, 0x0C, 0x14, 0x1C, 0x24, 0x2C, 0x34, (0x3C : UInt8)] := by
  have qos : info.willQos &&& 3 ∈ [0, 1, 2, (3 : UInt8)] := by
    have low : (info.willQos &&& 3).toNat = info.willQos.toNat % 4 := by
      rw [UInt8.toNat_and]
      exact Nat.and_two_pow_sub_one_eq_mod _ 2
    have few := Nat.mod_lt info.willQos.toNat (show 0 < 4 by decide)
    have listed : ∀ qos < 4, UInt8.ofNat qos ∈ [0, 1, 2, (3 : UInt8)] := by decide
    have here := listed _ (low ▸ few)
    rw [UInt8.ofNat_toNat] at here
    exact here
  simp only [List.mem_cons, List.not_mem_nil, or_false] at qos
  rcases qos with zero | one | two | three
  all_goals
    simp only [willFlags, *]
    split <;> decide

/-- The parts that are added have their own bits. -/
theorem connectFlags_bits : ∀ will ∈ [0x04, 0x0C, 0x14, 0x1C, 0x24, 0x2C, 0x34, (0x3C : UInt8)],
    ∀ hasWill hasUser hasPass : Bool,
      let flags := (((0 ||| bif hasWill then will else 0) |||
        bif hasUser then mqttConnectFlagUsername else 0) |||
        bif hasPass then mqttConnectFlagPassword else 0) ||| mqttConnectFlagCleanSession
      decide (flags &&& mqttConnectFlagWill ≠ 0) = hasWill ∧
        decide (flags &&& mqttConnectFlagUsername ≠ 0) = hasUser ∧
        decide (flags &&& mqttConnectFlagPassword ≠ 0) = hasPass := by
  simp only [List.forall_mem_cons, List.not_mem_nil, false_imp_iff, implies_true, and_true]
  decide

theorem length_optionalString {flags flag : UInt8} {str : Option (List UInt8)} {present : Bool}
    (bit : decide (flags &&& flag ≠ 0) = present) :
    (optionalString flags flag str).length = bif present then 2 + (str.getD []).length else 0 := by
  subst bit
  rw [optionalString]
  split
  · rename_i set
    rw [length_stringBytes, decide_eq_true set]
    rfl
  · rename_i clear
    rw [decide_eq_false clear]
    rfl

theorem exists_of_bind_eq_ok {First Last : Type} {first : Except ℤ First}
    {rest : First → Except ℤ Last} {last : Last} (known : first.bind rest = .ok last) :
    ∃ middle, first = .ok middle ∧ rest middle = .ok last := by
  cases first with
  | error err => cases known
  | ok middle => exact ⟨middle, rfl, known⟩

theorem connectMessage_whole (known : connectParts info = .ok parts) :
    (connectMessage info parts).Whole := by
  rw [connectParts] at known
  rcases exists_of_bind_eq_ok known with ⟨willParts, will, known⟩
  rcases exists_of_bind_eq_ok known with ⟨userParts, user, known⟩
  rcases exists_of_bind_eq_ok known with ⟨passParts, pass, identified⟩
  replace will := addWill_adds will
  replace user := addCredential_adds user
  replace pass := addCredential_adds pass
  replace identified := addClientId_adds identified
  have flags := identified.flags
  rw [pass.flags, user.flags, will.flags, cond_true] at flags
  rcases connectFlags_bits _ (willFlags_mem info) info.hasWill info.clientUser.isSome
    info.clientPass.isSome with ⟨willBit, userBit, passBit⟩
  rw [← flags] at willBit userBit passBit
  have length := identified.length
  rw [pass.length, user.length, will.length, cond_true] at length
  have begins : (2 + 4 + 1 + 1 + 2 : UInt16).toNat = 10 := rfl
  have name : protocolName.length = 4 := rfl
  simp only [Message.Whole, connectMessage, List.length_append, length_stringBytes,
    length_u16Bytes, length_optionalString willBit, length_optionalString userBit,
    length_optionalString passBit, length, begins, name, List.length_cons, List.length_nil]
  cases info.hasWill <;> simp only [cond_true, cond_false] <;> omega

end

end MqttAccelero.Mqtt
