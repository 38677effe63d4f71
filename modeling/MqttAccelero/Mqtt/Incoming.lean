import Mathlib.Data.Int.Notation
import Mathlib.Data.Nat.Bitwise
import Mathlib.Logic.Function.Basic
import MqttAccelero.Mqtt.Packet

/-!
# The incoming parser of the client

TCP delivers the stream of the server in chains of buffers, cut anywhere. The
parser keeps the first bytes of the current message in `rx_buffer` and reads the
fixed header from there again at each call; what follows the header is passed on
in fragments, as much at a time as has arrived and the buffer would hold.

`none` is an access past the end of `rx_buffer` or of the chain, a shift by the
width of the number, or a loop that takes nothing and does not end. The bytes that
`pbuf_get_contiguous` copies behind the fixed header in `rx_buffer` are not read
from there again, and are passed on only.
-/

namespace MqttAccelero.Mqtt

def mqttVarHeaderBufferLen : ℕ := 128

def mqttConnectAccepted : ℕ := 0
def mqttConnectDisconnected : ℕ := 256
def mqttConnectTimeout : ℕ := 257

/-- What is kept of the current message from one call to the next. -/
structure Incoming where
  msgIdx : UInt32
  rxBuffer : ℕ → UInt8

/-- One call of `mqtt_message_received`, with what it reads of the buffer. -/
structure Fragment where
  control : UInt8
  msgIdx : UInt32
  fixedHdrLen : UInt8
  remainingLength : UInt32
  payload : List UInt8
deriving DecidableEq, Repr

/-- The local variables of `mqtt_parse_incoming`. -/
structure ParseVars where
  inOffset : UInt16
  msgRemLen : UInt32
  fixedHdrLen : UInt8
  b : UInt8

/-- The buffers of a chain, whose length is a number of 16 bits. -/
structure PbufChain where
  buffers : List (List UInt8)
  fits : buffers.flatten.length < 65536

namespace PbufChain

def bytes (p : PbufChain) : List UInt8 :=
  p.buffers.flatten

def totLen (p : PbufChain) : UInt16 :=
  UInt16.ofNat p.bytes.length

/-- The length of the first buffer. -/
def len (p : PbufChain) : ℕ :=
  (p.buffers.headD []).length

end PbufChain

def pbufGetAt (p : PbufChain) (offset : UInt16) : UInt8 :=
  p.bytes.getD offset.toNat 0

section

universe u

variable {State : Type u} (received : State → Fragment → State × ℕ) (p : PbufChain)

/-- The next byte of the fixed header, stored or just arrived. -/
def headerByte (incoming : Incoming) (vars : ParseVars) : Option (Incoming × ParseVars) :=
  if vars.fixedHdrLen.toNat < incoming.msgIdx.toNat then
    some (incoming, { vars with b := incoming.rxBuffer vars.fixedHdrLen.toNat })
  else if mqttVarHeaderBufferLen ≤ incoming.msgIdx.toNat then none
  else
    let b := pbufGetAt p vars.inOffset
    some ({ incoming with
          msgIdx := incoming.msgIdx + 1
          rxBuffer := Function.update incoming.rxBuffer incoming.msgIdx.toNat b },
      { vars with inOffset := vars.inOffset + 1, b })

/-- What the byte that has been read says of the length, and whether the header ends with it. -/
def countHeaderByte (state : State) (incoming : Incoming) (vars : ParseVars) :
    Option (State × Incoming × ParseVars) :=
  let fixedHdrLen := vars.fixedHdrLen + 1
  if 2 ≤ fixedHdrLen then
    let shift := (fixedHdrLen.toNat - 2) * 7
    if 32 ≤ shift then none
    else
      let msgRemLen := vars.msgRemLen ||| ((vars.b &&& 0x7f).toUInt32 <<< UInt32.ofNat shift)
      if vars.b &&& 0x80 = 0 then
        if msgRemLen = 0 then
          let fragment := ⟨incoming.rxBuffer 0, incoming.msgIdx, fixedHdrLen, 0, []⟩
          some ((received state fragment).1, { incoming with msgIdx := 0 },
            { vars with msgRemLen, fixedHdrLen := 0 })
        else
          let msgRemLen := msgRemLen + fixedHdrLen.toUInt32 - incoming.msgIdx
          some (state, incoming, { vars with msgRemLen, fixedHdrLen })
      else some (state, incoming, { vars with msgRemLen, fixedHdrLen })
  else some (state, incoming, { vars with fixedHdrLen })

/-- One pass of the loop in the fixed header. -/
def parseHeader (state : State) (incoming : Incoming) (vars : ParseVars) :
    Option (State × Incoming × ParseVars) :=
  (headerByte p incoming vars).bind fun (incoming, vars) =>
    countHeaderByte received state incoming vars

def bufferSpace (vars : ParseVars) : UInt16 :=
  UInt16.ofNat mqttVarHeaderBufferLen - vars.fixedHdrLen.toUInt16

/-- The lesser one of what is available and what is missing, as far as it fits the buffer. -/
def limitedLength (vars : ParseVars) : UInt16 :=
  let available := p.totLen - vars.inOffset
  let cpyLen := if available.toUInt32 < vars.msgRemLen then available else vars.msgRemLen.toUInt16
  if bufferSpace vars < cpyLen then bufferSpace vars else cpyLen

/-- How much of the message is passed on at once. -/
def copyLength (incoming : Incoming) (vars : ParseVars) : UInt16 :=
  if mqttVarHeaderBufferLen ≤ incoming.msgIdx.toNat ∧
      (p.len : ℤ) - vars.inOffset.toNat < (limitedLength p vars).toNat then
    UInt16.ofInt (p.len - vars.inOffset.toNat)
  else limitedLength p vars

/-- One pass of the loop behind the fixed header, up to the result of the handler, which refuses
more than the buffer would hold. -/
def parsePayload (state : State) (incoming : Incoming) (vars : ParseVars) :
    Option ((State × Incoming × ParseVars) × ℕ) :=
  let cpyLen := copyLength p incoming vars
  let payload := (p.bytes.drop vars.inOffset.toNat).take cpyLen.toNat
  let incoming := { incoming with msgIdx := incoming.msgIdx + cpyLen.toUInt32 }
  let refused := bufferSpace vars < cpyLen
  let vars := { vars with
    inOffset := vars.inOffset + cpyLen
    msgRemLen := vars.msgRemLen - cpyLen.toUInt32 }
  if refused then some ((state, incoming, vars), mqttConnectDisconnected)
  else if payload.length < cpyLen.toNat then none
  else
    let fragment :=
      ⟨incoming.rxBuffer 0, incoming.msgIdx, vars.fixedHdrLen, vars.msgRemLen, payload⟩
    let (state, res) := received state fragment
    some ((state, incoming, vars), res)

/-- The parser state is reset at the end of a message. -/
def endOfMessage (incoming : Incoming) (vars : ParseVars) : Incoming × ParseVars :=
  if vars.msgRemLen = 0 then ({ incoming with msgIdx := 0 }, { vars with fixedHdrLen := 0 })
  else (incoming, vars)

/-- One pass of the loop, with the result that ends it if it is not `MQTT_CONNECT_ACCEPTED`. -/
def parsePass (state : State) (incoming : Incoming) (vars : ParseVars) :
    Option ((State × Incoming × ParseVars) × ℕ) :=
  if vars.fixedHdrLen < 2 ∨ vars.b &&& 0x80 ≠ 0 then
    (parseHeader received p state incoming vars).map fun next => (next, mqttConnectAccepted)
  else
    (parsePayload received p state incoming vars).map fun ((state, incoming, vars), res) =>
      if res = mqttConnectAccepted then ((state, endOfMessage incoming vars), res)
      else ((state, incoming, vars), res)

def parseLoop : (fuel : ℕ) → State → Incoming → ParseVars → Option (State × Incoming × ℕ)
  | 0, _, _, _ => none
  | fuel + 1, state, incoming, vars =>
      if vars.inOffset < p.totLen then
        (parsePass received p state incoming vars).bind fun ((state, incoming, vars), res) =>
          if res = mqttConnectAccepted then parseLoop fuel state incoming vars
          else some (state, incoming, res)
      else some (state, incoming, mqttConnectAccepted)

/-- Each pass reads a stored byte again or takes one of the buffers at least. -/
def mqttParseIncoming (state : State) (incoming : Incoming) : Option (State × Incoming × ℕ) :=
  parseLoop received p (p.bytes.length + mqttVarHeaderBufferLen + 1) state incoming ⟨0, 0, 0, 0⟩

end

/-! ## Any input -/

section

universe u

variable {State : Type u} {received : State → Fragment → State × ℕ} {p : PbufChain}
  {Holds : State → ℕ → Prop} {budget : ℕ} {state next : State} {incoming incomingNext : Incoming}
  {vars varsNext : ParseVars} {res : ℕ}

/-- What holds of the states along a call, with the result as far as it is known, if each fragment
is handled so. At most `budget` bytes of the message have arrived. -/
structure Handles (received : State → Fragment → State × ℕ) (budget : ℕ)
    (Holds : State → ℕ → Prop) : Prop where
  handled : ∀ state fragment, Holds state mqttConnectAccepted →
    (budget < 2 ^ 32 → fragment.fixedHdrLen.toNat ≤ fragment.msgIdx.toNat) →
    fragment.fixedHdrLen.toNat + fragment.payload.length ≤ mqttVarHeaderBufferLen →
      Holds (received state fragment).1 (received state fragment).2
  ignored : ∀ state fragment, Holds state mqttConnectAccepted → fragment.payload = [] →
    (budget < 2 ^ 32 → fragment.fixedHdrLen.toNat ≤ fragment.msgIdx.toNat) →
      Holds (received state fragment).1 mqttConnectAccepted
  refused : ∀ state, Holds state mqttConnectAccepted → Holds state mqttConnectDisconnected

/-- The parser has not read more of the header than has arrived of the message. -/
structure Consistent (budget : ℕ) (p : PbufChain) (incoming : Incoming) (vars : ParseVars) :
    Prop where
  short : vars.fixedHdrLen.toNat ≤ 6
  inside : vars.inOffset.toNat ≤ p.bytes.length
  stored : budget < 2 ^ 32 → vars.fixedHdrLen.toNat ≤ incoming.msgIdx.toNat
  counted : budget < 2 ^ 32 →
    incoming.msgIdx.toNat + (p.bytes.length - vars.inOffset.toNat) ≤ budget

theorem Consistent.headerByte (consistent : Consistent budget p incoming vars)
    (here : vars.inOffset.toNat < p.bytes.length)
    (read : headerByte p incoming vars = some (incomingNext, varsNext)) :
    varsNext.fixedHdrLen = vars.fixedHdrLen ∧ varsNext.inOffset.toNat ≤ p.bytes.length ∧
      (budget < 2 ^ 32 → vars.fixedHdrLen.toNat + 1 ≤ incomingNext.msgIdx.toNat) ∧
      (budget < 2 ^ 32 →
        incomingNext.msgIdx.toNat + (p.bytes.length - varsNext.inOffset.toNat) ≤ budget) := by
  have fits : p.bytes.length < 65536 := p.fits
  rw [Mqtt.headerByte] at read
  split at read
  · rename_i before
    cases read
    exact ⟨rfl, consistent.inside, fun _ => before, consistent.counted⟩
  · split at read
    · cases read
    · rename_i fresh room
      cases read
      have offset : (vars.inOffset + 1).toNat = vars.inOffset.toNat + 1 := by
        rw [UInt16.toNat_add, UInt16.toNat_one]
        omega
      have msgIdx : (incoming.msgIdx + 1).toNat = incoming.msgIdx.toNat + 1 := by
        rw [mqttVarHeaderBufferLen] at room
        rw [UInt32.toNat_add, UInt32.toNat_one]
        omega
      simp only [offset, msgIdx]
      refine ⟨trivial, here, ?_, ?_⟩
      · intro few
        have stored := consistent.stored few
        omega
      · intro few
        have counted := consistent.counted few
        omega

theorem Handles.parseHeader (handles : Handles received budget Holds)
    (consistent : Consistent budget p incoming vars) (start : Holds state mqttConnectAccepted)
    (here : vars.inOffset.toNat < p.bytes.length)
    (parsed : parseHeader received p state incoming vars = some (next, incomingNext, varsNext)) :
    Holds next mqttConnectAccepted ∧ Consistent budget p incomingNext varsNext := by
  rw [Mqtt.parseHeader, Option.bind_eq_some_iff] at parsed
  rcases parsed with ⟨⟨incomingRead, varsRead⟩, read, parsed⟩
  rcases consistent.headerByte here read with ⟨same, inside, stored, counted⟩
  have short := consistent.short
  have one : (vars.fixedHdrLen + 1).toNat = vars.fixedHdrLen.toNat + 1 := by
    rw [UInt8.toNat_add, UInt8.toNat_one]
    omega
  simp only [countHeaderByte, same] at parsed
  split at parsed
  · split at parsed
    · cases parsed
    · rename_i inRange
      rw [one] at inRange
      have shortNext : (vars.fixedHdrLen + 1).toNat ≤ 6 := by omega
      split at parsed
      · split at parsed
        · cases parsed
          refine ⟨handles.ignored _ _ start rfl ?_, Nat.zero_le _, inside, fun _ => Nat.le_refl _, ?_⟩
          · intro few
            exact one ▸ stored few
          · intro few
            exact Nat.le_trans (Nat.add_le_add_right (Nat.zero_le _) _) (counted few)
        · cases parsed
          exact ⟨start, shortNext, inside, fun few => one ▸ stored few, counted⟩
      · cases parsed
        exact ⟨start, shortNext, inside, fun few => one ▸ stored few, counted⟩
  · rename_i first
    cases parsed
    rw [UInt8.le_iff_toNat_le, one] at first
    have two : (2 : UInt8).toNat = 2 := rfl
    have shortNext : (vars.fixedHdrLen + 1).toNat ≤ 6 := by omega
    exact ⟨start, shortNext, inside, fun few => one ▸ stored few, counted⟩

theorem Handles.parsePayload (handles : Handles received budget Holds)
    (consistent : Consistent budget p incoming vars) (start : Holds state mqttConnectAccepted)
    (parsed : parsePayload received p state incoming vars =
      some ((next, incomingNext, varsNext), res)) :
    Holds next res ∧ (res = mqttConnectAccepted → Consistent budget p incomingNext varsNext) := by
  have fits : p.bytes.length < 65536 := p.fits
  have short := consistent.short
  have inside := consistent.inside
  simp only [Mqtt.parsePayload] at parsed
  split at parsed
  · cases parsed
    exact ⟨handles.refused _ start, nofun⟩
  · rename_i inSpace
    split at parsed
    · cases parsed
    · rename_i whole
      cases parsed
      have space : (bufferSpace vars).toNat = mqttVarHeaderBufferLen - vars.fixedHdrLen.toNat := by
        have size : (UInt16.ofNat mqttVarHeaderBufferLen).toNat = mqttVarHeaderBufferLen := rfl
        rw [bufferSpace, UInt16.toNat_sub_of_le, size, UInt8.toNat_toUInt16]
        rw [UInt16.le_iff_toNat_le, size, UInt8.toNat_toUInt16, mqttVarHeaderBufferLen]
        omega
      rw [UInt16.lt_iff_toNat_lt, space, mqttVarHeaderBufferLen] at inSpace
      rw [List.length_take, List.length_drop] at whole
      have offset : (vars.inOffset + copyLength p incoming vars).toNat =
          vars.inOffset.toNat + (copyLength p incoming vars).toNat := by
        rw [UInt16.toNat_add]
        omega
      have msgIdx : budget < 2 ^ 32 → (incoming.msgIdx + (copyLength p incoming vars).toUInt32).toNat =
          incoming.msgIdx.toNat + (copyLength p incoming vars).toNat := by
        intro few
        have counted := consistent.counted few
        rw [UInt32.toNat_add, UInt16.toNat_toUInt32]
        omega
      refine ⟨handles.handled _ _ start ?_ ?_, ?_⟩
      · intro few
        have stored := consistent.stored few
        simp only [msgIdx few]
        omega
      · rw [List.length_take, List.length_drop, mqttVarHeaderBufferLen]
        simp only
        omega
      · intro _
        refine ⟨short, ?_, ?_, ?_⟩
        · simp only [offset]
          omega
        · intro few
          have stored := consistent.stored few
          simp only [msgIdx few]
          omega
        · intro few
          have counted := consistent.counted few
          simp only [msgIdx few, offset]
          omega

theorem Handles.parsePass (handles : Handles received budget Holds)
    (consistent : Consistent budget p incoming vars) (start : Holds state mqttConnectAccepted)
    (here : vars.inOffset.toNat < p.bytes.length)
    (parsed : parsePass received p state incoming vars =
      some ((next, incomingNext, varsNext), res)) :
    Holds next res ∧ (res = mqttConnectAccepted → Consistent budget p incomingNext varsNext) := by
  rw [Mqtt.parsePass] at parsed
  split at parsed
  · rw [Option.map_eq_some_iff] at parsed
    rcases parsed with ⟨⟨stateHeader, incomingHeader, varsHeader⟩, header, same⟩
    cases same
    rcases handles.parseHeader consistent start here header with ⟨holds, consistentNext⟩
    exact ⟨holds, fun _ => consistentNext⟩
  · rw [Option.map_eq_some_iff] at parsed
    rcases parsed with ⟨⟨⟨stateBody, incomingBody, varsBody⟩, result⟩, body, same⟩
    rcases handles.parsePayload consistent start body with ⟨holds, consistentNext⟩
    simp only at same
    split at same
    · rename_i accepted
      simp only [Prod.mk.injEq] at same
      rcases same with ⟨⟨rfl, ended⟩, rfl⟩
      refine ⟨holds, fun _ => ?_⟩
      rcases consistentNext accepted with ⟨short, inside, stored, counted⟩
      rw [endOfMessage] at ended
      split at ended
      · cases ended
        refine ⟨Nat.zero_le _, inside, fun _ => Nat.le_refl _, ?_⟩
        intro few
        exact Nat.le_trans (Nat.add_le_add_right (Nat.zero_le _) _) (counted few)
      · cases ended
        exact ⟨short, inside, stored, counted⟩
    · cases same
      exact ⟨holds, consistentNext⟩

theorem Handles.parseLoop {fuel : ℕ} (handles : Handles received budget Holds)
    (consistent : Consistent budget p incoming vars) (start : Holds state mqttConnectAccepted)
    (parsed : parseLoop received p fuel state incoming vars = some (next, incomingNext, res)) :
    Holds next res ∧ (res = mqttConnectAccepted → budget < 2 ^ 32 →
      incomingNext.msgIdx.toNat ≤ budget) := by
  induction fuel generalizing state incoming vars with
  | zero => cases parsed
  | succ fuel ih =>
      rw [Mqtt.parseLoop] at parsed
      split at parsed
      · rename_i here
        have below : vars.inOffset.toNat < p.bytes.length := by
          have fits : p.bytes.length < 65536 := p.fits
          rw [UInt16.lt_iff_toNat_lt, PbufChain.totLen, UInt16.toNat_ofNat_of_lt' fits] at here
          exact here
        rw [Option.bind_eq_some_iff] at parsed
        rcases parsed with ⟨⟨⟨stateNext, incomingPass, varsPass⟩, result⟩, passed, continued⟩
        rcases handles.parsePass consistent start below passed with ⟨holds, consistentNext⟩
        simp only at continued
        split at continued
        · rename_i accepted
          exact ih (consistentNext accepted) (accepted ▸ holds) continued
        · rename_i refused
          cases continued
          exact ⟨holds, fun accepted => absurd accepted refused⟩
      · cases parsed
        refine ⟨start, fun _ few => ?_⟩
        exact Nat.le_trans (Nat.le_add_right _ _) (consistent.counted few)

/-- What each fragment keeps is kept by a call, whatever has arrived. -/
theorem Handles.mqttParseIncoming
    (handles : Handles received (incoming.msgIdx.toNat + p.bytes.length) Holds)
    (start : Holds state mqttConnectAccepted)
    (parsed : mqttParseIncoming received p state incoming = some (next, incomingNext, res)) :
    Holds next res ∧ (res = mqttConnectAccepted →
      incoming.msgIdx.toNat + p.bytes.length < 2 ^ 32 →
        incomingNext.msgIdx.toNat ≤ incoming.msgIdx.toNat + p.bytes.length) := by
  apply handles.parseLoop ?_ start parsed
  exact ⟨Nat.zero_le _, Nat.zero_le _, fun _ => Nat.zero_le _, fun _ => Nat.le_refl _⟩

end

/-! ## The groups of the length -/

theorem topBit_eq_zero_iff (b : UInt8) : b &&& 0x80 = 0 ↔ b.toNat < 128 := by
  rw [← UInt8.toNat_inj, UInt8.toNat_and, UInt8.toNat_zero]
  have bound := b.toNat_lt
  have top : b.toNat &&& 2 ^ 7 = (b.toNat.testBit 7).toNat * 2 ^ 7 := Nat.and_two_pow _ _
  have bit : (b.toNat.testBit 7).toNat = b.toNat / 128 % 2 := by
    rw [Nat.toNat_testBit]
  change b.toNat &&& 2 ^ 7 = 0 ↔ _
  rw [top, bit]
  omega

theorem toNat_lowBits (b : UInt8) : (b &&& 0x7f).toNat = b.toNat % 128 := by
  rw [UInt8.toNat_and]
  exact Nat.and_two_pow_sub_one_eq_mod b.toNat 7

/-- The groups before the last have their places in a number of 32 bits. -/
theorem toNat_addGroup {index low : ℕ} {msgRemLen : UInt32} {b : UInt8} (few : index < 4)
    (known : msgRemLen.toNat = low % 128 ^ index) :
    (msgRemLen ||| ((b &&& 0x7f).toUInt32 <<< UInt32.ofNat (index * 7))).toNat =
      low % 128 ^ index + 128 ^ index * (b.toNat % 128) := by
  have powers : 128 ^ index = 2 ^ (index * 7) := by
    rw [Nat.mul_comm, Nat.pow_mul]
  have below : low % 128 ^ index < 2 ^ (index * 7) := by
    rw [← powers]
    exact Nat.mod_lt _ (Nat.pow_pos (by decide))
  have place : (UInt32.ofNat (index * 7)).toNat % 32 = index * 7 := by
    rw [UInt32.toNat_ofNat']
    omega
  have room : 2 ^ (index * 7) * (b.toNat % 128) < 2 ^ 32 := by
    have group : b.toNat % 128 < 2 ^ 7 := Nat.mod_lt _ (by decide)
    calc 2 ^ (index * 7) * (b.toNat % 128) ≤ 2 ^ 21 * (b.toNat % 128) :=
          Nat.mul_le_mul_right _ (Nat.pow_le_pow_right (by decide) (by omega))
      _ < 2 ^ 32 := by omega
  have shifted : ((b &&& 0x7f).toUInt32 <<< UInt32.ofNat (index * 7)).toNat =
      2 ^ (index * 7) * (b.toNat % 128) := by
    rw [UInt32.toNat_shiftLeft, place, UInt8.toNat_toUInt32, toNat_lowBits, Nat.shiftLeft_eq,
      Nat.mul_comm, Nat.mod_eq_of_lt room]
  rw [UInt32.toNat_or, shifted, known, Nat.or_comm, ← Nat.two_pow_add_eq_or_of_lt below, powers,
    Nat.add_comm]

/-! ## The fragments of a stream of packets -/

/-- The fragment of a packet that follows its first `seen` bytes. -/
def Packet.fragment (packet : Packet) (seen : ℕ) (payload : List UInt8) : Fragment where
  control := packet.control
  msgIdx := UInt32.ofNat (seen + payload.length)
  fixedHdrLen := UInt8.ofNat packet.header.length
  remainingLength := UInt32.ofNat (packet.encode.length - (seen + payload.length))
  payload

/-- Fragments lead from byte `seen` of the first packet to a byte of a later one: the body of
each packet is passed on piece by piece, and a packet without a body at once. -/
inductive Fragmented : List Packet → ℕ → List Fragment → List Packet → ℕ → Prop
  | stay {packets : List Packet} {seen : ℕ} : Fragmented packets seen [] packets seen
  | header {packet : Packet} {packets later : List Packet} {seen next last : ℕ}
      {fragments : List Fragment} (arrived : seen ≤ next) (inHeader : next ≤ packet.header.length)
      (rest : Fragmented (packet :: packets) next fragments later last) :
      Fragmented (packet :: packets) seen fragments later last
  | empty {packet : Packet} {packets later : List Packet} {seen last : ℕ}
      {fragments : List Fragment} (noBody : packet.body = [])
      (rest : Fragmented packets 0 fragments later last) :
      Fragmented (packet :: packets) seen
        (packet.fragment packet.header.length [] :: fragments) later last
  | piece {packet : Packet} {packets later : List Packet} {seen last : ℕ}
      {fragments : List Fragment} {payload missing : List UInt8}
      (behind : packet.header.length ≤ seen) (taken : payload ≠ []) (more : missing ≠ [])
      (split : packet.encode.drop seen = payload ++ missing)
      (small : packet.header.length + payload.length ≤ mqttVarHeaderBufferLen)
      (rest : Fragmented (packet :: packets) (seen + payload.length) fragments later last) :
      Fragmented (packet :: packets) seen (packet.fragment seen payload :: fragments) later last
  | last {packet : Packet} {packets later : List Packet} {seen last : ℕ}
      {fragments : List Fragment} {payload : List UInt8}
      (behind : packet.header.length ≤ seen) (taken : payload ≠ [])
      (ends : packet.encode.drop seen = payload)
      (small : packet.header.length + payload.length ≤ mqttVarHeaderBufferLen)
      (rest : Fragmented packets 0 fragments later last) :
      Fragmented (packet :: packets) seen (packet.fragment seen payload :: fragments) later last

theorem Fragmented.suffix {packets later : List Packet} {seen last : ℕ}
    {fragments : List Fragment} (fragmented : Fragmented packets seen fragments later last) :
    later <:+ packets := by
  induction fragmented with
  | stay => exact List.suffix_refl _
  | header _ _ _ ih => exact ih
  | empty _ _ ih => exact ih.trans (List.suffix_cons _ _)
  | piece _ _ _ _ _ _ ih => exact ih
  | last _ _ _ _ _ ih => exact ih.trans (List.suffix_cons _ _)

section

universe u

variable {State : Type u} (received : State → Fragment → State × ℕ)

/-- The fragments are handled in turn. What is returned for a message without a body is ignored;
any other result ends the connection. -/
def deliver : State → List Fragment → State × ℕ
  | state, [] => (state, mqttConnectAccepted)
  | state, fragment :: rest =>
      if fragment.payload ≠ [] ∧ (received state fragment).2 ≠ mqttConnectAccepted then
        received state fragment
      else deliver (received state fragment).1 rest

end

/-! ## One pass -/

/-- The first `seen` bytes of the packet have arrived, and those of its header are stored. -/
structure Arrived (packet : Packet) (seen : ℕ) (incoming : Incoming) : Prop where
  msgIdx : incoming.msgIdx.toNat = seen
  stored : ∀ place < seen, place < packet.header.length →
    packet.header[place]? = some (incoming.rxBuffer place)
  incomplete : seen < packet.encode.length

/-- The first bytes of the header have been read in this call. -/
structure InHeader (packet : Packet) (read : ℕ) (vars : ParseVars) : Prop where
  fixedHdrLen : vars.fixedHdrLen.toNat = read
  below : read < packet.header.length
  more : vars.fixedHdrLen < 2 ∨ vars.b &&& 0x80 ≠ 0
  msgRemLen : vars.msgRemLen.toNat = packet.body.length % 128 ^ (read - 1)

/-- The header has been read in this call, and what is missing of the body is known. -/
structure InBody (packet : Packet) (seen : ℕ) (vars : ParseVars) : Prop where
  fixedHdrLen : vars.fixedHdrLen.toNat = packet.header.length
  last : vars.b &&& 0x80 = 0
  msgRemLen : vars.msgRemLen.toNat = packet.encode.length - seen
  behind : packet.header.length ≤ seen

section

universe u

variable {State : Type u} {received : State → Fragment → State × ℕ} {state : State}
  {packet : Packet} {read seen : ℕ} {incoming : Incoming} {vars : ParseVars}

theorem Packet.length_encode_lt (packet : Packet) : packet.encode.length < 2 ^ 28 + 6 := by
  have bounds := packet.header_bounds
  have fits := packet.fits
  rw [Packet.length_encode]
  omega

theorem toNat_fixedHdrLen_next (fixedHdrLen : vars.fixedHdrLen.toNat = read)
    (below : read < packet.header.length) : (vars.fixedHdrLen + 1).toNat = read + 1 := by
  have bounds := packet.header_bounds
  rw [UInt8.toNat_add, fixedHdrLen, UInt8.toNat_one]
  omega

/-- The length as far as the bytes read so far tell it. -/
theorem toNat_msgRemLen_next {index : ℕ}
    (msgRemLen : vars.msgRemLen.toNat = packet.body.length % 128 ^ index)
    (byte : packet.header[index + 1]? = some vars.b) :
    (vars.msgRemLen ||| ((vars.b &&& 0x7f).toUInt32 <<< UInt32.ofNat (index * 7))).toNat =
      packet.body.length % 128 ^ (index + 1) := by
  have below := (List.getElem?_eq_some_iff.mp byte).1
  have bounds := packet.header_bounds
  rw [toNat_addGroup (by omega) msgRemLen, (Packet.group byte).1, Nat.mod_pow_succ]

/-- A byte behind the first one counts. -/
theorem countHeaderByte_eq {index : ℕ} (fixedHdrLen : vars.fixedHdrLen.toNat = index + 1)
    (byte : packet.header[index + 1]? = some vars.b) :
    countHeaderByte received state incoming vars =
      let msgRemLen :=
        vars.msgRemLen ||| ((vars.b &&& 0x7f).toUInt32 <<< UInt32.ofNat (index * 7))
      if vars.b &&& 0x80 = 0 then
        if msgRemLen = 0 then
          some ((received state
              ⟨incoming.rxBuffer 0, incoming.msgIdx, vars.fixedHdrLen + 1, 0, []⟩).1,
            { incoming with msgIdx := 0 }, { vars with msgRemLen, fixedHdrLen := 0 })
        else
          some (state, incoming, { vars with
            msgRemLen := msgRemLen + (vars.fixedHdrLen + 1).toUInt32 - incoming.msgIdx
            fixedHdrLen := vars.fixedHdrLen + 1 })
      else
        some (state, incoming, { vars with msgRemLen, fixedHdrLen := vars.fixedHdrLen + 1 }) := by
  have below := (List.getElem?_eq_some_iff.mp byte).1
  have bounds := packet.header_bounds
  have next := toNat_fixedHdrLen_next fixedHdrLen below
  have two : (2 : UInt8) ≤ vars.fixedHdrLen + 1 := by
    rw [UInt8.le_iff_toNat_le, next]
    exact Nat.le_add_left 2 index
  have shift : (vars.fixedHdrLen + 1).toNat - 2 = index := by
    rw [next]
    rfl
  have inRange : ¬32 ≤ index * 7 := by omega
  simp only [countHeaderByte, if_pos two, shift, if_neg inRange]

variable (received state incoming vars) in
/-- A byte of the header that is not its last one. -/
theorem countHeaderByte_more (fixedHdrLen : vars.fixedHdrLen.toNat = read)
    (msgRemLen : vars.msgRemLen.toNat = packet.body.length % 128 ^ (read - 1))
    (byte : packet.header[read]? = some vars.b) (more : read + 1 < packet.header.length) :
    ∃ next, countHeaderByte received state incoming vars = some (state, incoming, next) ∧
      InHeader packet (read + 1) next ∧ next.inOffset = vars.inOffset := by
  have next := toNat_fixedHdrLen_next fixedHdrLen (Nat.lt_of_succ_lt more)
  cases read with
  | zero =>
      have one : vars.fixedHdrLen + 1 < 2 := UInt8.lt_iff_toNat_lt.mpr (by rw [next]; decide)
      rw [countHeaderByte, if_neg (UInt8.not_le.mpr one)]
      exact ⟨_, rfl, ⟨next, more, Or.inl one, msgRemLen⟩, rfl⟩
  | succ index =>
      have flagged : vars.b &&& 0x80 ≠ 0 := by
        rw [ne_eq, topBit_eq_zero_iff, (Packet.group byte).2.1]
        omega
      rw [countHeaderByte_eq fixedHdrLen byte]
      simp only [if_neg flagged]
      exact ⟨_, rfl, ⟨next, more, Or.inr flagged, toNat_msgRemLen_next msgRemLen byte⟩, rfl⟩

/-- With the last byte of the header the length is known. -/
theorem lastByte {index : ℕ}
    (msgRemLen : vars.msgRemLen.toNat = packet.body.length % 128 ^ index)
    (byte : packet.header[index + 1]? = some vars.b)
    (last : index + 2 = packet.header.length) : vars.b &&& 0x80 = 0 ∧
      (vars.msgRemLen ||| ((vars.b &&& 0x7f).toUInt32 <<< UInt32.ofNat (index * 7))).toNat =
        packet.body.length := by
  have group := Packet.group byte
  have ends := group.2.1.mpr last
  refine ⟨(topBit_eq_zero_iff _).mpr ends, ?_⟩
  rw [toNat_msgRemLen_next msgRemLen byte, Nat.pow_succ, Nat.mul_comm]
  exact Nat.mod_eq_of_lt ((Nat.div_lt_iff_lt_mul (Nat.pow_pos (by decide))).mp (group.2.2 ends))

variable (received state incoming vars) in
/-- The last byte of the header of a packet without a body. -/
theorem countHeaderByte_empty (fixedHdrLen : vars.fixedHdrLen.toNat = read)
    (msgRemLen : vars.msgRemLen.toNat = packet.body.length % 128 ^ (read - 1))
    (byte : packet.header[read]? = some vars.b) (last : read + 1 = packet.header.length)
    (noBody : packet.body = []) :
    ∃ next, countHeaderByte received state incoming vars = some ((received state
        ⟨incoming.rxBuffer 0, incoming.msgIdx, UInt8.ofNat packet.header.length, 0, []⟩).1,
        { incoming with msgIdx := 0 }, next) ∧
      next.fixedHdrLen = 0 ∧ next.msgRemLen = 0 ∧ next.inOffset = vars.inOffset := by
  have bounds := packet.header_bounds
  have next := toNat_fixedHdrLen_next fixedHdrLen (Nat.lt_of_succ_le (Nat.le_of_eq last))
  cases read with
  | zero => omega
  | succ index =>
      rw [Nat.add_sub_cancel] at msgRemLen
      rcases lastByte msgRemLen byte last with ⟨ends, length⟩
      have zero : vars.msgRemLen |||
          ((vars.b &&& 0x7f).toUInt32 <<< UInt32.ofNat (index * 7)) = 0 := by
        rw [← UInt32.toNat_inj, length, noBody]
        rfl
      have hdrLen : vars.fixedHdrLen + 1 = UInt8.ofNat packet.header.length := by
        rw [← UInt8.toNat_inj, next, last, UInt8.toNat_ofNat']
        omega
      rw [countHeaderByte_eq fixedHdrLen byte]
      simp only [if_pos ends, if_pos zero, hdrLen]
      exact ⟨_, rfl, rfl, zero, rfl⟩

variable (received state incoming vars) in
/-- The last byte of the header of a packet with a body. -/
theorem countHeaderByte_last (fixedHdrLen : vars.fixedHdrLen.toNat = read)
    (msgRemLen : vars.msgRemLen.toNat = packet.body.length % 128 ^ (read - 1))
    (byte : packet.header[read]? = some vars.b) (last : read + 1 = packet.header.length)
    (body : packet.body ≠ []) (arrived : incoming.msgIdx.toNat = seen)
    (behind : packet.header.length ≤ seen) (incomplete : seen < packet.encode.length) :
    ∃ next, countHeaderByte received state incoming vars = some (state, incoming, next) ∧
      InBody packet seen next ∧ next.inOffset = vars.inOffset := by
  have bounds := packet.header_bounds
  have fits := packet.fits
  have next := toNat_fixedHdrLen_next fixedHdrLen (Nat.lt_of_succ_le (Nat.le_of_eq last))
  rw [Packet.length_encode] at incomplete
  cases read with
  | zero => omega
  | succ index =>
      rw [Nat.add_sub_cancel] at msgRemLen
      rcases lastByte msgRemLen byte last with ⟨ends, length⟩
      have positive := List.length_pos_of_ne_nil body
      have nonzero : vars.msgRemLen |||
          ((vars.b &&& 0x7f).toUInt32 <<< UInt32.ofNat (index * 7)) ≠ 0 := by
        intro zero
        rw [zero, UInt32.toNat_zero] at length
        omega
      rw [countHeaderByte_eq fixedHdrLen byte]
      simp only [if_pos ends, if_neg nonzero]
      refine ⟨_, rfl, ⟨next.trans last, ends, ?_, behind⟩, rfl⟩
      generalize vars.msgRemLen ||| _ = total at length
      have sum : (total + (vars.fixedHdrLen + 1).toUInt32).toNat =
          packet.body.length + packet.header.length := by
        rw [UInt32.toNat_add, length, UInt8.toNat_toUInt32, next, last]
        exact Nat.mod_eq_of_lt (by omega)
      simp only [Packet.length_encode]
      rw [UInt32.toNat_sub_of_le, sum, arrived, Nat.add_comm]
      rw [UInt32.le_iff_toNat_le, sum, arrived]
      omega

/-- A byte of the header that has arrived before is read again. -/
theorem headerByte_stored {p : PbufChain} (arrived : Arrived packet seen incoming)
    (fixedHdrLen : vars.fixedHdrLen.toNat = read) (below : read < packet.header.length)
    (before : read < seen) :
    headerByte p incoming vars = some (incoming, { vars with b := incoming.rxBuffer read }) ∧
      packet.header[read]? = some (incoming.rxBuffer read) := by
  refine ⟨?_, arrived.stored read before below⟩
  rw [headerByte, if_pos (by rw [fixedHdrLen, arrived.msgIdx]; exact before), fixedHdrLen]

/-- The next byte of the header arrives. -/
theorem headerByte_fresh {p : PbufChain} {byte : UInt8} (arrived : Arrived packet seen incoming)
    (fixedHdrLen : vars.fixedHdrLen.toNat = seen) (below : seen < packet.header.length)
    (isByte : packet.header[seen]? = some byte)
    (here : p.bytes[vars.inOffset.toNat]? = some byte) :
    ∃ next, headerByte p incoming vars =
        some (next, { vars with inOffset := vars.inOffset + 1, b := byte }) ∧
      next.msgIdx.toNat = seen + 1 ∧ ∀ place < seen + 1, place < packet.header.length →
        packet.header[place]? = some (next.rxBuffer place) := by
  have bounds := packet.header_bounds
  have got : pbufGetAt p vars.inOffset = byte := by
    rw [pbufGetAt, List.getD_eq_getElem?_getD, here, Option.getD_some]
  have notStored : ¬vars.fixedHdrLen.toNat < incoming.msgIdx.toNat := by
    rw [fixedHdrLen, arrived.msgIdx]
    exact Nat.lt_irrefl _
  have inBuffer : ¬mqttVarHeaderBufferLen ≤ incoming.msgIdx.toNat := by
    rw [arrived.msgIdx, mqttVarHeaderBufferLen]
    omega
  simp only [headerByte, if_neg notStored, if_neg inBuffer, got]
  refine ⟨_, rfl, ?_, ?_⟩
  · rw [UInt32.toNat_add, arrived.msgIdx, UInt32.toNat_one]
    omega
  · intro place before inHeader
    simp only [arrived.msgIdx]
    by_cases last : place = seen
    · rw [last, Function.update_self, isByte]
    · rw [Function.update_of_ne last]
      exact arrived.stored place (by omega) inHeader

/-- Where the parser stands in a stream of packets within one call. `left` bytes of the header
of the current packet have arrived in earlier calls and are still to be read again. -/
inductive Reading : List Packet → (seen left : ℕ) → Incoming → ParseVars → Prop
  | ended {incoming : Incoming} {vars : ParseVars} (msgIdx : incoming.msgIdx = 0)
      (fixedHdrLen : vars.fixedHdrLen = 0) (msgRemLen : vars.msgRemLen = 0) :
      Reading [] 0 0 incoming vars
  | header {packet : Packet} {packets : List Packet} {seen read left : ℕ} {incoming : Incoming}
      {vars : ParseVars} (arrived : Arrived packet seen incoming)
      (inHeader : InHeader packet read vars) (within : read ≤ seen)
      (again : left = min seen packet.header.length - read) :
      Reading (packet :: packets) seen left incoming vars
  | body {packet : Packet} {packets : List Packet} {seen : ℕ} {incoming : Incoming}
      {vars : ParseVars} (arrived : Arrived packet seen incoming)
      (inBody : InBody packet seen vars) : Reading (packet :: packets) seen 0 incoming vars

/-- A packet begins. -/
theorem Reading.fresh (packets : List Packet) (msgIdx : incoming.msgIdx = 0)
    (fixedHdrLen : vars.fixedHdrLen = 0) (msgRemLen : vars.msgRemLen = 0) :
    Reading packets 0 0 incoming vars := by
  cases packets with
  | nil => exact Reading.ended msgIdx fixedHdrLen msgRemLen
  | cons packet packets =>
      have bounds := packet.header_bounds
      have arrived : Arrived packet 0 incoming := by
        refine ⟨by rw [msgIdx]; rfl, fun place none => absurd none (Nat.not_lt_zero _), ?_⟩
        exact List.length_pos_of_ne_nil (Packet.encode_ne_nil packet)
      have inHeader : InHeader packet 0 vars := by
        refine ⟨by rw [fixedHdrLen]; rfl, by omega, Or.inl ?_, ?_⟩
        · rw [fixedHdrLen]
          decide
        · rw [msgRemLen, Nat.zero_sub, Nat.pow_zero, Nat.mod_one]
          rfl
      exact Reading.header arrived inHeader (Nat.le_refl 0) (by rw [Nat.zero_min])

/-- The parser takes the rest of a long message from the first buffer of a chain only: either
all bytes lie there, or the buffer for the variable header would hold every message. -/
def Suits (p : PbufChain) (packets : List Packet) : Prop :=
  p.len = p.bytes.length ∨ ∀ packet ∈ packets, packet.encode.length ≤ mqttVarHeaderBufferLen

instance (p : PbufChain) (packets : List Packet) : Decidable (Suits p packets) :=
  inferInstanceAs (Decidable (_ ∨ _))

theorem Suits.suffix {p : PbufChain} {packets later : List Packet} (suits : Suits p packets)
    (suffix : later <:+ packets) : Suits p later :=
  suits.imp_right fun small packet member => small packet (suffix.subset member)

/-- What one pass does: bytes of the chain are taken, which are the next ones of the stream, and
fragments are passed on. -/
structure Advance (p : PbufChain) (packets : List Packet) (seen left : ℕ) (offset : UInt16)
    (fragments : List Fragment) (later : List Packet) (last leftNext : ℕ)
    (offsetNext : UInt16) : Prop where
  fragmented : Fragmented packets seen fragments later last
  taken : ∃ taken, p.bytes.drop offset.toNat = taken ++ p.bytes.drop offsetNext.toNat ∧
    (Packet.encodeAll packets).drop seen = taken ++ (Packet.encodeAll later).drop last
  less : leftNext + (p.bytes.drop offsetNext.toNat).length < left + (p.bytes.drop offset.toNat).length

theorem drop_encodeAll {packets : List Packet} (inPacket : seen ≤ packet.encode.length) :
    (Packet.encodeAll (packet :: packets)).drop seen =
      packet.encode.drop seen ++ Packet.encodeAll packets := by
  rw [Packet.encodeAll_cons, List.drop_append_of_le_length inPacket]

variable (received state) in
/-- Reading a byte of the header again takes nothing. -/
theorem parseHeader_stored {p : PbufChain} (packets : List Packet)
    (arrived : Arrived packet seen incoming) (inHeader : InHeader packet read vars)
    (before : read < seen) :
    ∃ left next, parseHeader received p state incoming vars = some (state, incoming, next) ∧
      Reading (packet :: packets) seen left incoming next ∧ next.inOffset = vars.inOffset ∧
      Advance p (packet :: packets) seen (min seen packet.header.length - read) vars.inOffset []
        (packet :: packets) seen left next.inOffset := by
  rcases headerByte_stored (p := p) arrived inHeader.fixedHdrLen inHeader.below before with
    ⟨got, byte⟩
  have below := inHeader.below
  rw [parseHeader, got, Option.bind_some]
  by_cases more : read + 1 < packet.header.length
  · rcases countHeaderByte_more received state incoming
      { vars with b := incoming.rxBuffer read } inHeader.fixedHdrLen inHeader.msgRemLen
      byte more with ⟨next, counted, inHeaderNext, offset⟩
    replace offset : next.inOffset = vars.inOffset := offset
    refine ⟨min seen packet.header.length - (read + 1), next, counted,
      Reading.header arrived inHeaderNext before rfl, offset, Fragmented.stay, ⟨[], ?_, rfl⟩, ?_⟩
    · rw [offset]
      rfl
    · rw [offset]
      omega
  · have last : read + 1 = packet.header.length := by omega
    have incomplete := arrived.incomplete
    have body : packet.body ≠ [] := by
      intro noBody
      rw [Packet.length_encode, noBody, List.length_nil] at incomplete
      omega
    rcases countHeaderByte_last received state incoming
      { vars with b := incoming.rxBuffer read } inHeader.fixedHdrLen inHeader.msgRemLen
      byte last body arrived.msgIdx (by omega) incomplete with ⟨next, counted, inBody, offset⟩
    replace offset : next.inOffset = vars.inOffset := offset
    refine ⟨0, next, counted, Reading.body arrived inBody, offset, Fragmented.stay,
      ⟨[], ?_, rfl⟩, ?_⟩
    · rw [offset]
      rfl
    · rw [offset]
      omega

theorem drop_eq_cons {bytes : List UInt8} {place : ℕ} {byte : UInt8}
    (here : bytes[place]? = some byte) : bytes.drop place = byte :: bytes.drop (place + 1) := by
  rcases List.getElem?_eq_some_iff.mp here with ⟨inside, same⟩
  rw [List.drop_eq_getElem_cons inside, same]

/-- The bytes of the chain from a place on, if one is left. -/
theorem drop_next {p : PbufChain} {byte : UInt8} {offset : UInt16}
    (here : p.bytes[offset.toNat]? = some byte) :
    p.bytes.drop offset.toNat = byte :: p.bytes.drop (offset + 1).toNat := by
  have inside := (List.getElem?_eq_some_iff.mp here).1
  have fits : p.bytes.length < 65536 := p.fits
  have next : (offset + 1).toNat = offset.toNat + 1 := by
    rw [UInt16.toNat_add, UInt16.toNat_one]
    omega
  rw [next]
  exact drop_eq_cons here

theorem Packet.control_eq {stored : UInt8} (here : packet.header[0]? = some stored) :
    packet.control = stored :=
  Option.some.inj here

/-- The fragment passed on for a packet without a body. -/
theorem emptyFragment_eq (msgIdx : incoming.msgIdx.toNat = packet.header.length)
    (stored : packet.header[0]? = some (incoming.rxBuffer 0)) (body : packet.body = []) :
    (⟨incoming.rxBuffer 0, incoming.msgIdx, UInt8.ofNat packet.header.length, 0, []⟩ : Fragment) =
      packet.fragment packet.header.length [] := by
  have whole := packet.length_encode
  rw [body, List.length_nil, Nat.add_zero] at whole
  have idx : incoming.msgIdx = UInt32.ofNat packet.header.length := by
    rw [← msgIdx, UInt32.ofNat_toNat]
  rw [Packet.fragment, Packet.control_eq stored, idx, whole]
  simp

variable (received state) in
/-- The next byte of the header is taken. -/
theorem parseHeader_fresh {p : PbufChain} {packets : List Packet}
    (arrived : Arrived packet seen incoming) (inHeader : InHeader packet seen vars)
    (here : vars.inOffset.toNat < p.bytes.length)
    (stream : p.bytes.drop vars.inOffset.toNat <+:
      (Packet.encodeAll (packet :: packets)).drop seen) :
    ∃ fragments later last left incomingNext next,
      parseHeader received p state incoming vars =
        some ((deliver received state fragments).1, incomingNext, next) ∧
      (deliver received state fragments).2 = mqttConnectAccepted ∧
      Reading later last left incomingNext next ∧
      Advance p (packet :: packets) seen 0 vars.inOffset fragments later last left
        next.inOffset := by
  have below := inHeader.below
  have bounds := packet.header_bounds
  have whole := packet.length_encode
  obtain ⟨byte, isByte⟩ : ∃ byte, packet.header[seen]? = some byte :=
    ⟨_, List.getElem?_eq_getElem below⟩
  have inStream : (Packet.encodeAll (packet :: packets))[seen]? = some byte := by
    rw [Packet.encodeAll_cons, Packet.encode, List.append_assoc, List.getElem?_append_left below,
      isByte]
  have split := drop_eq_cons inStream
  have arrives : p.bytes[vars.inOffset.toNat]? = some byte := by
    have first := List.getElem?_eq_getElem here
    rw [split, drop_eq_cons first, List.cons_prefix_cons] at stream
    rw [first, stream.1]
  rcases headerByte_fresh arrived inHeader.fixedHdrLen below isByte arrives with
    ⟨incomingNext, got, msgIdx, stored⟩
  have input := drop_next arrives
  have advance : ∀ offset : UInt16, offset = vars.inOffset + 1 →
      Advance p (packet :: packets) seen 0 vars.inOffset [] (packet :: packets) (seen + 1) 0
        offset := by
    rintro _ rfl
    refine ⟨Fragmented.header (Nat.le_succ _) below Fragmented.stay, ⟨[byte], ?_, split⟩, ?_⟩
    · rw [input, List.singleton_append]
    · rw [input, List.length_cons]
      omega
  rw [parseHeader, got, Option.bind_some]
  by_cases more : seen + 1 < packet.header.length
  · rcases countHeaderByte_more received state incomingNext
      { vars with inOffset := vars.inOffset + 1, b := byte } inHeader.fixedHdrLen
      inHeader.msgRemLen isByte more with ⟨next, counted, inHeaderNext, offset⟩
    refine ⟨[], packet :: packets, seen + 1, 0, incomingNext, next, counted, rfl, ?_,
      advance _ offset⟩
    refine Reading.header ⟨msgIdx, stored, by omega⟩ inHeaderNext (Nat.le_refl _) ?_
    omega
  · have last : seen + 1 = packet.header.length := by omega
    by_cases body : packet.body = []
    · rcases countHeaderByte_empty received state incomingNext
        { vars with inOffset := vars.inOffset + 1, b := byte } inHeader.fixedHdrLen
        inHeader.msgRemLen isByte last body with ⟨next, counted, fixedHdrLen, msgRemLen, offset⟩
      replace offset : next.inOffset = vars.inOffset + 1 := offset
      refine ⟨[packet.fragment packet.header.length []], packets, 0, 0,
        { incomingNext with msgIdx := 0 }, next, ?_, rfl,
        Reading.fresh packets rfl fixedHdrLen msgRemLen, ?_⟩
      · rw [emptyFragment_eq (msgIdx.trans last) (stored 0 (Nat.succ_pos _) (by omega)) body]
          at counted
        exact counted
      · refine ⟨Fragmented.empty body Fragmented.stay, ⟨[byte], ?_, ?_⟩, ?_⟩
        · rw [offset, input, List.singleton_append]
        · rw [split, drop_encodeAll (by omega), List.drop_of_length_le]
          · rfl
          · rw [whole, last, body]
            exact Nat.le_refl _
        · rw [offset, input, List.length_cons]
          omega
    · have positive := List.length_pos_of_ne_nil body
      rcases countHeaderByte_last received state incomingNext
        { vars with inOffset := vars.inOffset + 1, b := byte } inHeader.fixedHdrLen
        inHeader.msgRemLen isByte last body msgIdx (by omega) (by omega) with
        ⟨next, counted, inBody, offset⟩
      exact ⟨[], packet :: packets, seen + 1, 0, incomingNext, next, counted, rfl,
        Reading.body ⟨msgIdx, stored, by omega⟩ inBody, advance _ offset⟩

theorem toNat_bufferSpace (inBody : InBody packet seen vars) :
    (bufferSpace vars).toNat = mqttVarHeaderBufferLen - packet.header.length := by
  have bounds := packet.header_bounds
  have space : (UInt16.ofNat mqttVarHeaderBufferLen).toNat = mqttVarHeaderBufferLen := rfl
  rw [bufferSpace, UInt16.toNat_sub_of_le, space, UInt8.toNat_toUInt16, inBody.fixedHdrLen]
  rw [UInt16.le_iff_toNat_le, space, UInt8.toNat_toUInt16, inBody.fixedHdrLen, mqttVarHeaderBufferLen]
  omega

theorem toNat_limitedLength {p : PbufChain} (inBody : InBody packet seen vars)
    (inside : vars.inOffset.toNat ≤ p.bytes.length) :
    (limitedLength p vars).toNat = min (p.bytes.length - vars.inOffset.toNat)
      (min (packet.encode.length - seen) (mqttVarHeaderBufferLen - packet.header.length)) := by
  have fits : p.bytes.length < 65536 := p.fits
  have totLen : p.totLen.toNat = p.bytes.length := by
    rw [PbufChain.totLen, UInt16.toNat_ofNat']
    exact Nat.mod_eq_of_lt fits
  have available : (p.totLen - vars.inOffset).toNat = p.bytes.length - vars.inOffset.toNat := by
    rw [UInt16.toNat_sub_of_le, totLen]
    rw [UInt16.le_iff_toNat_le, totLen]
    exact inside
  have space := toNat_bufferSpace inBody
  have remaining := inBody.msgRemLen
  rw [limitedLength]
  generalize p.totLen - vars.inOffset = free at available
  have lesser : (if free.toUInt32 < vars.msgRemLen then free else vars.msgRemLen.toUInt16).toNat =
      min (p.bytes.length - vars.inOffset.toNat) (packet.encode.length - seen) := by
    split
    · rename_i less
      rw [UInt32.lt_iff_toNat_lt, UInt16.toNat_toUInt32, available, remaining] at less
      rw [available, Nat.min_eq_left (Nat.le_of_lt less)]
    · rename_i notLess
      rw [UInt32.lt_iff_toNat_lt, UInt16.toNat_toUInt32, available, remaining] at notLess
      rw [UInt32.toNat_toUInt16, remaining]
      omega
  generalize (if free.toUInt32 < vars.msgRemLen then free else vars.msgRemLen.toUInt16) = cpyLen
    at lesser
  split
  · rename_i less
    rw [UInt16.lt_iff_toNat_lt, space, lesser] at less
    rw [space]
    omega
  · rename_i notLess
    rw [UInt16.lt_iff_toNat_lt, space, lesser] at notLess
    rw [lesser]
    omega

/-- As much is passed on as has arrived of the message and fits the buffer. -/
theorem toNat_copyLength {p : PbufChain} {packets : List Packet}
    (arrived : Arrived packet seen incoming) (inBody : InBody packet seen vars)
    (here : vars.inOffset.toNat < p.bytes.length) (suits : Suits p (packet :: packets)) :
    (copyLength p incoming vars).toNat = min (p.bytes.length - vars.inOffset.toNat)
      (min (packet.encode.length - seen) (mqttVarHeaderBufferLen - packet.header.length)) := by
  have limited := toNat_limitedLength inBody (Nat.le_of_lt here)
  rw [copyLength, if_neg]
  · exact limited
  · rintro ⟨long, adjusted⟩
    rw [limited] at adjusted
    rw [arrived.msgIdx] at long
    rcases suits with one | small
    · rw [one] at adjusted
      omega
    · have short := small packet List.mem_cons_self
      have incomplete := arrived.incomplete
      omega

variable (received state) in
/-- A piece is passed on if it is not longer than what has arrived and what is missing. -/
theorem parsePayload_eq {p : PbufChain} (arrived : Arrived packet seen incoming)
    (inBody : InBody packet seen vars)
    (few : (copyLength p incoming vars).toNat ≤ min (p.bytes.length - vars.inOffset.toNat)
      (min (packet.encode.length - seen) (mqttVarHeaderBufferLen - packet.header.length))) :
    ∃ payload incomingNext next,
      parsePayload received p state incoming vars =
        some (((received state (packet.fragment seen payload)).1, incomingNext, next),
          (received state (packet.fragment seen payload)).2) ∧
      payload = (p.bytes.drop vars.inOffset.toNat).take (copyLength p incoming vars).toNat ∧
      payload.length = (copyLength p incoming vars).toNat ∧
      next.inOffset.toNat = vars.inOffset.toNat + payload.length ∧
      incomingNext.msgIdx.toNat = seen + payload.length ∧
      incomingNext.rxBuffer = incoming.rxBuffer ∧ next.fixedHdrLen = vars.fixedHdrLen ∧
      next.b = vars.b ∧
      next.msgRemLen.toNat = packet.encode.length - (seen + payload.length) := by
  have fits : p.bytes.length < 65536 := p.fits
  have bounds := packet.header_bounds
  have behind := inBody.behind
  have incomplete := arrived.incomplete
  have short := packet.length_encode_lt
  rw [mqttVarHeaderBufferLen] at few
  have inSpace : ¬bufferSpace vars < copyLength p incoming vars := by
    rw [UInt16.lt_iff_toNat_lt, toNat_bufferSpace inBody, mqttVarHeaderBufferLen]
    omega
  have payload_length :
      ((p.bytes.drop vars.inOffset.toNat).take (copyLength p incoming vars).toNat).length =
        (copyLength p incoming vars).toNat := by
    rw [List.length_take, List.length_drop]
    omega
  have whole := Nat.not_lt.mpr (Nat.le_of_eq payload_length.symm)
  rw [parsePayload, if_neg inSpace, if_neg whole]
  generalize copyLength p incoming vars = cpyLen at few payload_length ⊢
  generalize (p.bytes.drop vars.inOffset.toNat).take cpyLen.toNat = payload at payload_length ⊢
  have msgIdx : (incoming.msgIdx + cpyLen.toUInt32).toNat = seen + cpyLen.toNat := by
    rw [UInt32.toNat_add, arrived.msgIdx, UInt16.toNat_toUInt32]
    omega
  have offset : (vars.inOffset + cpyLen).toNat = vars.inOffset.toNat + cpyLen.toNat := by
    have small := vars.inOffset.toNat_lt
    rw [UInt16.toNat_add]
    omega
  have left : (vars.msgRemLen - cpyLen.toUInt32).toNat =
      packet.encode.length - (seen + cpyLen.toNat) := by
    rw [UInt32.toNat_sub_of_le, inBody.msgRemLen, UInt16.toNat_toUInt32, Nat.sub_add_eq]
    rw [UInt32.le_iff_toNat_le, inBody.msgRemLen, UInt16.toNat_toUInt32]
    omega
  have fragment_eq : (⟨incoming.rxBuffer 0, incoming.msgIdx + cpyLen.toUInt32, vars.fixedHdrLen,
      vars.msgRemLen - cpyLen.toUInt32, payload⟩ : Fragment) = packet.fragment seen payload := by
    have control := Packet.control_eq (arrived.stored 0 (by omega) (by omega))
    have fixedHdrLen : vars.fixedHdrLen = UInt8.ofNat packet.header.length := by
      rw [← inBody.fixedHdrLen, UInt8.ofNat_toNat]
    rw [Packet.fragment, control, fixedHdrLen, payload_length, ← left, ← msgIdx,
      UInt32.ofNat_toNat, UInt32.ofNat_toNat]
  simp only [fragment_eq]
  refine ⟨payload, _, _, rfl, rfl, payload_length, ?_, ?_, rfl, rfl, rfl, ?_⟩
  · rw [offset, payload_length]
  · rw [msgIdx, payload_length]
  · rw [left, payload_length]

variable (received state) in
/-- The next piece of the body is passed on. -/
theorem parsePayload_spec {p : PbufChain} {packets : List Packet}
    (arrived : Arrived packet seen incoming) (inBody : InBody packet seen vars)
    (here : vars.inOffset.toNat < p.bytes.length)
    (stream : p.bytes.drop vars.inOffset.toNat <+: (Packet.encodeAll (packet :: packets)).drop seen)
    (suits : Suits p (packet :: packets)) :
    ∃ payload missing incomingNext next,
      parsePayload received p state incoming vars =
        some (((received state (packet.fragment seen payload)).1, incomingNext, next),
          (received state (packet.fragment seen payload)).2) ∧
      payload ≠ [] ∧ packet.header.length + payload.length ≤ mqttVarHeaderBufferLen ∧
      packet.encode.drop seen = payload ++ missing ∧
      p.bytes.drop vars.inOffset.toNat = payload ++ p.bytes.drop next.inOffset.toNat ∧
      incomingNext.msgIdx.toNat = seen + payload.length ∧
      incomingNext.rxBuffer = incoming.rxBuffer ∧ next.fixedHdrLen = vars.fixedHdrLen ∧
      next.b = vars.b ∧ next.msgRemLen.toNat = missing.length := by
  have bounds := packet.header_bounds
  have incomplete := arrived.incomplete
  have length := toNat_copyLength arrived inBody here suits
  rcases parsePayload_eq received state arrived inBody
    (Nat.le_of_eq length) with ⟨payload, incomingNext, next, parsed, isPayload, payload_length,
      offset, msgIdx, rxBuffer, fixedHdrLen, lastByte, msgRemLen⟩
  rw [← payload_length, mqttVarHeaderBufferLen] at length
  rw [← payload_length] at isPayload
  have inStream : payload = (packet.encode.drop seen).take payload.length := by
    rcases stream with ⟨more, split⟩
    rw [drop_encodeAll (Nat.le_of_lt incomplete)] at split
    have taken := congrArg (List.take payload.length) split
    rw [List.take_append_of_le_length, List.take_append_of_le_length, ← isPayload] at taken
    · exact taken
    · rw [List.length_drop]
      omega
    · rw [List.length_drop]
      omega
  refine ⟨payload, (packet.encode.drop seen).drop payload.length, incomingNext, next, parsed, ?_, ?_,
    ?_, ?_, msgIdx, rxBuffer, fixedHdrLen, lastByte, ?_⟩
  · rw [← List.length_pos_iff]
    omega
  · rw [mqttVarHeaderBufferLen]
    omega
  · have whole := List.take_append_drop payload.length (packet.encode.drop seen)
    rw [← inStream] at whole
    exact whole.symm
  · have whole := List.take_append_drop payload.length (p.bytes.drop vars.inOffset.toNat)
    rw [← isPayload] at whole
    rw [offset, ← List.drop_drop, whole]
  · rw [msgRemLen, List.length_drop, List.length_drop, Nat.sub_add_eq]

theorem InBody.notHeader (inBody : InBody packet seen vars) :
    ¬(vars.fixedHdrLen < 2 ∨ vars.b &&& 0x80 ≠ 0) := by
  have bounds := packet.header_bounds
  have two : (2 : UInt8).toNat = 2 := rfl
  rw [not_or, UInt8.lt_iff_toNat_lt, inBody.fixedHdrLen, two]
  exact ⟨by omega, not_not_intro inBody.last⟩

theorem deliver_singleton {fragment : Fragment} (payload : fragment.payload ≠ []) :
    deliver received state [fragment] = received state fragment := by
  rw [deliver]
  split
  · rfl
  · rename_i notBoth
    have accepted : (received state fragment).2 = mqttConnectAccepted := by
      by_contra refused
      exact notBoth ⟨payload, refused⟩
    rw [deliver, ← accepted]

/-- A piece of a body leads to the next piece or to the next packet. -/
theorem fragmented_piece {packets : List Packet} {payload missing : List UInt8}
    (behind : packet.header.length ≤ seen) (taken : payload ≠ [])
    (split : packet.encode.drop seen = payload ++ missing)
    (small : packet.header.length + payload.length ≤ mqttVarHeaderBufferLen) :
    Fragmented (packet :: packets) seen [packet.fragment seen payload]
      (if missing = [] then packets else packet :: packets)
      (if missing = [] then 0 else seen + payload.length) := by
  by_cases ends : missing = []
  · rw [ends, List.append_nil] at split
    rw [if_pos ends, if_pos ends]
    exact Fragmented.last behind taken split small Fragmented.stay
  · rw [if_neg ends, if_neg ends]
    exact Fragmented.piece behind taken ends split small Fragmented.stay

/-- A piece that does not end the body leads to the next one. -/
theorem Reading.piece {packets : List Packet} {count : ℕ} {incomingNext : Incoming}
    {next : ParseVars} (arrived : Arrived packet seen incoming) (inBody : InBody packet seen vars)
    (more : seen + count < packet.encode.length)
    (msgIdx : incomingNext.msgIdx.toNat = seen + count)
    (rxBuffer : incomingNext.rxBuffer = incoming.rxBuffer)
    (fixedHdrLen : next.fixedHdrLen = vars.fixedHdrLen) (lastByte : next.b = vars.b)
    (msgRemLen : next.msgRemLen.toNat = packet.encode.length - (seen + count)) :
    endOfMessage incomingNext next = (incomingNext, next) ∧
      Reading (packet :: packets) (seen + count) 0 incomingNext next := by
  have behind := inBody.behind
  constructor
  · apply if_neg
    intro zero
    rw [zero, UInt32.toNat_zero] at msgRemLen
    omega
  · have stored : ∀ place < seen + count, place < packet.header.length →
        packet.header[place]? = some (incomingNext.rxBuffer place) := by
      intro place _ inHeader
      rw [rxBuffer]
      exact arrived.stored place (by omega) inHeader
    refine Reading.body ⟨msgIdx, stored, more⟩ ⟨?_, ?_, msgRemLen, by omega⟩
    · rw [fixedHdrLen, inBody.fixedHdrLen]
    · rw [lastByte, inBody.last]

/-- What follows a piece in the stream. -/
theorem drop_piece {packets : List Packet} {payload missing : List UInt8}
    (incomplete : seen ≤ packet.encode.length)
    (split : packet.encode.drop seen = payload ++ missing) :
    (Packet.encodeAll (packet :: packets)).drop seen = payload ++
      (Packet.encodeAll (if missing = [] then packets else packet :: packets)).drop
        (if missing = [] then 0 else seen + payload.length) := by
  rw [drop_encodeAll incomplete, split]
  by_cases ends : missing = []
  · rw [if_pos ends, if_pos ends, ends, List.append_nil, List.drop_zero]
  · have length := congrArg List.length split
    rw [List.length_drop, List.length_append] at length
    have rest : packet.encode.drop (seen + payload.length) = missing := by
      rw [← List.drop_drop, split, List.drop_left]
    have positive := List.length_pos_of_ne_nil ends
    rw [if_neg ends, if_neg ends, drop_encodeAll (by omega), rest, List.append_assoc]

variable (received state) in
theorem parsePass_spec {p : PbufChain} {packets : List Packet} {left : ℕ}
    (reading : Reading packets seen left incoming vars)
    (here : vars.inOffset.toNat < p.bytes.length)
    (stream : p.bytes.drop vars.inOffset.toNat <+: (Packet.encodeAll packets).drop seen)
    (suits : Suits p packets) :
    ∃ fragments later last leftNext incomingNext next,
      parsePass received p state incoming vars =
        some (((deliver received state fragments).1, incomingNext, next),
          (deliver received state fragments).2) ∧
      ((deliver received state fragments).2 = mqttConnectAccepted →
        Reading later last leftNext incomingNext next) ∧
      Advance p packets seen left vars.inOffset fragments later last leftNext next.inOffset := by
  cases reading with
  | ended msgIdx fixedHdrLen msgRemLen =>
      rw [Packet.encodeAll_nil, List.drop_nil, List.prefix_nil, List.drop_eq_nil_iff] at stream
      exact absurd here (Nat.not_lt.mpr stream)
  | @header packet packets _ read _ _ _ arrived inHeader within again =>
      rw [parsePass, if_pos inHeader.more, again]
      rcases Nat.lt_or_eq_of_le within with before | rfl
      · rcases parseHeader_stored received state packets arrived inHeader before
          with ⟨left, next, parsed, reading, _, advance⟩
        rw [parsed]
        exact ⟨[], packet :: packets, seen, left, incoming, next, rfl, fun _ => reading, advance⟩
      · rcases parseHeader_fresh received state arrived inHeader here stream
          with ⟨fragments, later, last, left, incomingNext, next, parsed, accepted, reading, advance⟩
        rw [parsed]
        refine ⟨fragments, later, last, left, incomingNext, next, ?_, fun _ => reading, ?_⟩
        · rw [accepted]
          rfl
        · rw [Nat.min_eq_left (Nat.le_of_lt inHeader.below), Nat.sub_self]
          exact advance
  | @body packet packets _ _ _ arrived inBody =>
      have bounds := packet.header_bounds
      rcases parsePayload_spec received state arrived inBody here stream suits
        with ⟨payload, missing, incomingNext, next, parsed, taken, small, split, input, msgIdx,
          rxBuffer, fixedHdrLen, lastByte, msgRemLen⟩
      have behind := inBody.behind
      have advance : ∀ left : ℕ, left = 0 → Advance p (packet :: packets) seen 0 vars.inOffset
          [packet.fragment seen payload] (if missing = [] then packets else packet :: packets)
          (if missing = [] then 0 else seen + payload.length) left next.inOffset := by
        rintro _ rfl
        refine ⟨fragmented_piece behind taken split small,
          ⟨payload, input, drop_piece (Nat.le_of_lt arrived.incomplete) split⟩, ?_⟩
        have positive := List.length_pos_of_ne_nil taken
        rw [input, List.length_append]
        omega
      rw [parsePass, if_neg inBody.notHeader, parsed, Option.map_some]
      refine ⟨[packet.fragment seen payload], if missing = [] then packets else packet :: packets,
        if missing = [] then 0 else seen + payload.length, 0, ?_⟩
      rw [deliver_singleton taken]
      by_cases accepted :
          (received state (packet.fragment seen payload)).2 = mqttConnectAccepted
      · simp only [if_pos accepted]
        by_cases ends : missing = []
        · have finished : next.msgRemLen = 0 := by
            rw [← UInt32.toNat_inj, msgRemLen, ends]
            rfl
          have ended : endOfMessage incomingNext next =
              ({ incomingNext with msgIdx := 0 }, { next with fixedHdrLen := 0 }) := if_pos finished
          rw [ended]
          refine ⟨_, _, rfl, fun _ => ?_, advance 0 rfl⟩
          rw [if_pos ends, if_pos ends]
          exact Reading.fresh packets rfl rfl finished
        · have length := congrArg List.length split
          have positive := List.length_pos_of_ne_nil ends
          rw [List.length_drop, List.length_append] at length
          rcases Reading.piece arrived inBody (by omega) msgIdx rxBuffer fixedHdrLen lastByte
            (by omega) with ⟨goesOn, reading⟩
          rw [goesOn]
          refine ⟨_, _, rfl, fun _ => ?_, advance 0 rfl⟩
          rw [if_neg ends, if_neg ends]
          exact reading
      · simp only [if_neg accepted]
        exact ⟨_, _, rfl, fun impossible => absurd impossible accepted, advance 0 rfl⟩

/-! ## One call -/

/-- Where the parser stands in a stream of packets between two calls. -/
def Kept : List Packet → ℕ → Incoming → Prop
  | [], seen, incoming => seen = 0 ∧ incoming.msgIdx = 0
  | packet :: _, seen, incoming => Arrived packet seen incoming

theorem Reading.kept {packets : List Packet} {left : ℕ}
    (reading : Reading packets seen left incoming vars) : Kept packets seen incoming := by
  cases reading with
  | ended msgIdx fixedHdrLen msgRemLen => exact ⟨rfl, msgIdx⟩
  | header arrived inHeader within again => exact arrived
  | body arrived inBody => exact arrived

/-- A call reads the stored bytes of the header again. -/
theorem Kept.reading {packets : List Packet} (kept : Kept packets seen incoming) :
    ∃ left ≤ 5, Reading packets seen left incoming ⟨0, 0, 0, 0⟩ := by
  cases packets with
  | nil =>
      rcases kept with ⟨rfl, msgIdx⟩
      exact ⟨0, Nat.zero_le _, Reading.ended msgIdx rfl rfl⟩
  | cons packet packets =>
      have bounds := packet.header_bounds
      have inHeader : InHeader packet 0 ⟨0, 0, 0, 0⟩ := by
        refine ⟨rfl, by omega, Or.inl (by decide), ?_⟩
        rw [Nat.zero_sub, Nat.pow_zero, Nat.mod_one]
        rfl
      exact ⟨min seen packet.header.length - 0, by omega,
        Reading.header kept inHeader (Nat.zero_le _) rfl⟩

theorem Fragmented.trans {packets middle later : List Packet} {seen here last : ℕ}
    {first second : List Fragment} (start : Fragmented packets seen first middle here)
    (rest : Fragmented middle here second later last) :
    Fragmented packets seen (first ++ second) later last := by
  induction start with
  | stay => exact rest
  | header arrived inHeader _ ih => exact Fragmented.header arrived inHeader (ih rest)
  | empty noBody _ ih => exact Fragmented.empty noBody (ih rest)
  | piece behind taken more split small _ ih =>
      exact Fragmented.piece behind taken more split small (ih rest)
  | last behind taken ends small _ ih => exact Fragmented.last behind taken ends small (ih rest)

theorem deliver_append {first second : List Fragment}
    (accepted : (deliver received state first).2 = mqttConnectAccepted) :
    deliver received state (first ++ second) =
      deliver received (deliver received state first).1 second := by
  induction first generalizing state with
  | nil => rfl
  | cons fragment rest ih =>
      rw [List.cons_append, deliver]
      rw [deliver] at accepted ⊢
      split at accepted
      · rename_i refused
        exact absurd accepted refused.2
      · rename_i kept
        rw [if_neg kept, if_neg kept]
        exact ih accepted

variable (received state) in
theorem parseLoop_spec {p : PbufChain} {packets : List Packet} {left fuel : ℕ}
    (reading : Reading packets seen left incoming vars)
    (stream : p.bytes.drop vars.inOffset.toNat <+: (Packet.encodeAll packets).drop seen)
    (suits : Suits p packets) (enough : left + (p.bytes.drop vars.inOffset.toNat).length < fuel) :
    ∃ fragments later last incomingNext, Fragmented packets seen fragments later last ∧
      parseLoop received p fuel state incoming vars =
        some ((deliver received state fragments).1, incomingNext,
          (deliver received state fragments).2) ∧
      ((deliver received state fragments).2 = mqttConnectAccepted →
        Kept later last incomingNext ∧ (Packet.encodeAll packets).drop seen =
          p.bytes.drop vars.inOffset.toNat ++ (Packet.encodeAll later).drop last) := by
  have fits : p.bytes.length < 65536 := p.fits
  have totLen : p.totLen.toNat = p.bytes.length := by
    rw [PbufChain.totLen, UInt16.toNat_ofNat']
    exact Nat.mod_eq_of_lt fits
  induction fuel generalizing state packets seen left incoming vars with
  | zero => cases enough
  | succ fuel ih =>
      rw [parseLoop]
      split
      · rename_i here
        rw [UInt16.lt_iff_toNat_lt, totLen] at here
        rcases parsePass_spec received state reading here stream suits with
          ⟨fragments, later, last, leftNext, incomingNext, next, passed, reads, advance⟩
        rw [passed, Option.bind_some]
        by_cases accepted : (deliver received state fragments).2 = mqttConnectAccepted
        · rcases advance.taken with ⟨taken, input, rest⟩
          have less := advance.less
          rw [input, rest, List.prefix_append_right_inj] at stream
          rcases ih (deliver received state fragments).1 (reads accepted) stream
            (suits.suffix advance.fragmented.suffix) (by omega) with
            ⟨fragmentsNext, laterNext, lastNext, incomingLast, fragmented, parsed, kept⟩
          refine ⟨fragments ++ fragmentsNext, laterNext, lastNext, incomingLast,
            advance.fragmented.trans fragmented, ?_, ?_⟩
          · rw [deliver_append accepted]
            simp only [if_pos accepted]
            exact parsed
          · rw [deliver_append accepted]
            intro stays
            refine ⟨(kept stays).1, ?_⟩
            rw [input, rest, (kept stays).2, List.append_assoc]
        · simp only [if_neg accepted]
          exact ⟨fragments, later, last, incomingNext, advance.fragmented, rfl,
            fun impossible => absurd impossible accepted⟩
      · rename_i ended
        rw [UInt16.lt_iff_toNat_lt, totLen, Nat.not_lt] at ended
        refine ⟨[], packets, seen, incoming, Fragmented.stay, rfl, fun _ => ⟨reading.kept, ?_⟩⟩
        rw [List.drop_of_length_le ended, List.nil_append]

variable (received state) in
/-- A call takes all bytes of its chain and passes the pieces of the bodies on, unless the
handler ends the connection. -/
theorem mqttParseIncoming_spec {p : PbufChain} {packets : List Packet}
    (kept : Kept packets seen incoming)
    (stream : p.bytes <+: (Packet.encodeAll packets).drop seen) (suits : Suits p packets) :
    ∃ fragments later last incomingNext, Fragmented packets seen fragments later last ∧
      mqttParseIncoming received p state incoming =
        some ((deliver received state fragments).1, incomingNext,
          (deliver received state fragments).2) ∧
      ((deliver received state fragments).2 = mqttConnectAccepted →
        Kept later last incomingNext ∧ (Packet.encodeAll packets).drop seen =
          p.bytes ++ (Packet.encodeAll later).drop last) := by
  rcases kept.reading with ⟨left, few, reading⟩
  have start : p.bytes.drop ((⟨0, 0, 0, 0⟩ : ParseVars).inOffset).toNat = p.bytes := List.drop_zero
  have enough : left + (p.bytes.drop ((⟨0, 0, 0, 0⟩ : ParseVars).inOffset).toNat).length <
      p.bytes.length + mqttVarHeaderBufferLen + 1 := by
    rw [start, mqttVarHeaderBufferLen]
    omega
  have parsed := parseLoop_spec received state reading
    (start.symm ▸ stream) suits enough
  rw [start] at parsed
  exact parsed

end

/-! ## The whole stream -/

section

universe u

variable {State : Type u} (received : State → Fragment → State × ℕ)

/-- Chains of buffers as they are received one after the other. -/
def parseAll (state : State) (incoming : Incoming) :
    List PbufChain → Option (State × Incoming × ℕ)
  | [] => some (state, incoming, mqttConnectAccepted)
  | p :: rest =>
      (mqttParseIncoming received p state incoming).bind fun (state, incoming, res) =>
        if res = mqttConnectAccepted then parseAll state incoming rest
        else some (state, incoming, res)

end

/-- The messages that fragments make up, and the part of a body that is still open. -/
def reassemble (pending : List UInt8) :
    List Fragment → List (UInt8 × List UInt8) × List UInt8
  | [] => ([], pending)
  | fragment :: rest =>
      if fragment.remainingLength = 0 then
        ((fragment.control, pending ++ fragment.payload) :: (reassemble [] rest).1,
          (reassemble [] rest).2)
      else reassemble (pending ++ fragment.payload) rest

/-- The part of the body of the first packet within its first bytes. -/
def pendingBody : List Packet → ℕ → List UInt8
  | [], _ => []
  | packet :: _, seen => packet.body.take (seen - packet.header.length)

theorem pendingBody_header {packet : Packet} {packets : List Packet} {seen : ℕ}
    (inHeader : seen ≤ packet.header.length) : pendingBody (packet :: packets) seen = [] := by
  rw [pendingBody, Nat.sub_eq_zero_of_le inHeader, List.take_zero]

theorem pendingBody_zero (packets : List Packet) : pendingBody packets 0 = [] := by
  cases packets with
  | nil => rfl
  | cons packet packets => exact pendingBody_header (Nat.zero_le _)

/-- A piece goes on where the part of the body before it ends. -/
theorem pendingBody_append {packet : Packet} {packets : List Packet} {seen : ℕ}
    {payload missing : List UInt8} (behind : packet.header.length ≤ seen)
    (split : packet.encode.drop seen = payload ++ missing) :
    pendingBody (packet :: packets) seen ++ payload =
      pendingBody (packet :: packets) (seen + payload.length) := by
  have body : packet.body.drop (seen - packet.header.length) = payload ++ missing := by
    rw [← split, Packet.encode, List.drop_append, List.drop_of_length_le behind, List.nil_append]
  have shifted : seen + payload.length - packet.header.length =
      seen - packet.header.length + payload.length := by omega
  rw [pendingBody, pendingBody, shifted, List.take_add, body, List.take_left]

theorem remainingLength_eq_zero_iff {packet : Packet} {seen : ℕ} {payload : List UInt8} :
    (packet.fragment seen payload).remainingLength = 0 ↔
      packet.encode.length ≤ seen + payload.length := by
  have short := packet.length_encode_lt
  rw [Packet.fragment, ← UInt32.toNat_inj, UInt32.toNat_ofNat', UInt32.toNat_zero]
  omega

/-- Fragments make up the packets they lead past. -/
theorem Fragmented.reassemble {packets later : List Packet} {seen last : ℕ}
    {fragments : List Fragment} (fragmented : Fragmented packets seen fragments later last) :
    ∃ complete, packets = complete ++ later ∧
      Mqtt.reassemble (pendingBody packets seen) fragments =
        (complete.map fun packet => (packet.control, packet.body), pendingBody later last) := by
  induction fragmented with
  | stay => exact ⟨[], rfl, rfl⟩
  | header arrived inHeader _ ih =>
      rw [pendingBody_header inHeader] at ih
      rw [pendingBody_header (Nat.le_trans arrived inHeader)]
      exact ih
  | @empty packet packets later seen last fragments noBody _ ih =>
      rcases ih with ⟨complete, split, rest⟩
      have finished : (packet.fragment packet.header.length []).remainingLength = 0 := by
        rw [remainingLength_eq_zero_iff, Packet.length_encode, noBody]
      have nothing : pendingBody (packet :: packets) seen = [] := by
        rw [pendingBody, noBody, List.take_nil]
      rw [pendingBody_zero] at rest
      refine ⟨packet :: complete, congrArg _ split, ?_⟩
      rw [Mqtt.reassemble, if_pos finished, rest, nothing, List.map_cons, noBody]
      rfl
  | @piece packet packets later seen last fragments payload missing behind taken more split small _ ih =>
      rcases ih with ⟨complete, splitPackets, rest⟩
      have unfinished : (packet.fragment seen payload).remainingLength ≠ 0 := by
        have length := congrArg List.length split
        have positive := List.length_pos_of_ne_nil more
        rw [List.length_drop, List.length_append] at length
        rw [ne_eq, remainingLength_eq_zero_iff]
        omega
      refine ⟨complete, splitPackets, ?_⟩
      rw [Mqtt.reassemble, if_neg unfinished, ← rest]
      exact congrArg (Mqtt.reassemble · fragments) (pendingBody_append behind split)
  | @last packet packets later seen last fragments payload behind taken ends small _ ih =>
      rcases ih with ⟨complete, splitPackets, rest⟩
      have length := congrArg List.length ends
      have positive := List.length_pos_of_ne_nil taken
      rw [List.length_drop] at length
      have finished : (packet.fragment seen payload).remainingLength = 0 := by
        rw [remainingLength_eq_zero_iff]
        omega
      have whole : pendingBody (packet :: packets) seen ++ payload = packet.body := by
        have shifted : packet.body.length ≤ seen + payload.length - packet.header.length := by
          have lengths := packet.length_encode
          omega
        rw [pendingBody_append behind (ends.trans (List.append_nil payload).symm), pendingBody,
          List.take_of_length_le shifted]
      rw [pendingBody_zero] at rest
      refine ⟨packet :: complete, congrArg _ splitPackets, ?_⟩
      rw [Mqtt.reassemble, if_pos finished, rest, List.map_cons, ← whole]
      rfl

section

universe u

variable {State : Type u} {received : State → Fragment → State × ℕ}

variable (received) in
theorem parseAll_spec {chains : List PbufChain} {packets : List Packet} {seen : ℕ} (state : State)
    {incoming : Incoming} (kept : Kept packets seen incoming)
    (stream : chains.flatMap PbufChain.bytes <+: (Packet.encodeAll packets).drop seen)
    (suits : ∀ p ∈ chains, Suits p packets) :
    ∃ fragments later last incomingNext, Fragmented packets seen fragments later last ∧
      parseAll received state incoming chains =
        some ((deliver received state fragments).1, incomingNext,
          (deliver received state fragments).2) ∧
      ((deliver received state fragments).2 = mqttConnectAccepted →
        Kept later last incomingNext ∧ (Packet.encodeAll packets).drop seen =
          chains.flatMap PbufChain.bytes ++ (Packet.encodeAll later).drop last) := by
  induction chains generalizing packets seen state incoming with
  | nil => exact ⟨[], packets, seen, incoming, Fragmented.stay, rfl, fun _ => ⟨kept, rfl⟩⟩
  | cons p chains ih =>
      rw [List.flatMap_cons] at stream ⊢
      have first : p.bytes <+: (Packet.encodeAll packets).drop seen :=
        (List.prefix_append _ _).trans stream
      rcases mqttParseIncoming_spec received state kept first
        (suits p List.mem_cons_self) with
        ⟨fragments, later, last, incomingNext, fragmented, parsed, keptNext⟩
      rw [parseAll, parsed, Option.bind_some]
      by_cases accepted : (deliver received state fragments).2 = mqttConnectAccepted
      · rcases keptNext accepted with ⟨keptLater, rest⟩
        rw [rest, List.prefix_append_right_inj] at stream
        have suitsLater : ∀ other ∈ chains, Suits other later := fun other member =>
          (suits other (List.mem_cons_of_mem _ member)).suffix fragmented.suffix
        rcases ih (deliver received state fragments).1 keptLater stream suitsLater with
          ⟨fragmentsNext, laterNext, lastNext, incomingLast, fragmentedNext, parsedNext, keptLast⟩
        refine ⟨fragments ++ fragmentsNext, laterNext, lastNext, incomingLast,
          fragmented.trans fragmentedNext, ?_, ?_⟩
        · rw [deliver_append accepted]
          simp only [if_pos accepted]
          exact parsedNext
        · rw [deliver_append accepted]
          intro stays
          refine ⟨(keptLast stays).1, ?_⟩
          rw [rest, (keptLast stays).2, List.append_assoc]
      · simp only [if_neg accepted]
        exact ⟨fragments, later, last, incomingNext, fragmented, rfl,
          fun impossible => absurd impossible accepted⟩

/-- However the stream of the server is cut, the handler is called with the messages in order,
each body in consecutive pieces, and the parser needs no more of `rx_buffer` than there is. -/
theorem fragments_reassemble {chains : List PbufChain} {packets : List Packet} {state : State}
    {incoming : Incoming} (fresh : incoming.msgIdx = 0)
    (stream : chains.flatMap PbufChain.bytes <+: Packet.encodeAll packets)
    (suits : ∀ p ∈ chains, Suits p packets) :
    ∃ fragments complete later last incomingNext,
      parseAll received state incoming chains =
        some ((deliver received state fragments).1, incomingNext,
          (deliver received state fragments).2) ∧
      packets = complete ++ later ∧
      reassemble [] fragments =
        (complete.map fun packet => (packet.control, packet.body), pendingBody later last) ∧
      Fragmented packets 0 fragments later last ∧
      ((deliver received state fragments).2 = mqttConnectAccepted →
        Packet.encodeAll packets =
          chains.flatMap PbufChain.bytes ++ (Packet.encodeAll later).drop last) := by
  have kept : Kept packets 0 incoming :=
    have reading : Reading packets 0 0 incoming ⟨0, 0, 0, 0⟩ := Reading.fresh packets fresh rfl rfl
    reading.kept
  rcases parseAll_spec received state kept stream suits with
    ⟨fragments, later, last, incomingNext, fragmented, parsed, rest⟩
  rcases fragmented.reassemble with ⟨complete, split, reassembled⟩
  rw [pendingBody_zero] at reassembled
  exact ⟨fragments, complete, later, last, incomingNext, parsed, split, reassembled, fragmented,
    fun accepted => (rest accepted).2⟩

end

/-- A message of one topic and three bytes, and one without a body. -/
def publishAndPing : List Packet :=
  [⟨0x30, [0, 1, 116, 1, 2, 3], by decide⟩, ⟨0xd0, [], by decide⟩]

/-- The stream is cut in the header, and in front of the last byte. -/
def cutTwice : List PbufChain :=
  [⟨[[0x30]], by decide⟩, ⟨[[6, 0, 1, 116, 1, 2, 3, 0xd0]], by decide⟩, ⟨[[0]], by decide⟩]

def countFragments (count : ℕ) (_ : Fragment) : ℕ × ℕ :=
  (count + 1, mqttConnectAccepted)

theorem fragments_reassemble_cutTwice :
    ∃ fragments complete later last incomingNext,
      parseAll countFragments 0 ⟨0, fun _ => 0⟩ cutTwice =
        some ((deliver countFragments 0 fragments).1, incomingNext,
          (deliver countFragments 0 fragments).2) ∧
      publishAndPing = complete ++ later ∧
      reassemble [] fragments =
        (complete.map fun packet => (packet.control, packet.body), pendingBody later last) ∧
      Fragmented publishAndPing 0 fragments later last ∧
      ((deliver countFragments 0 fragments).2 = mqttConnectAccepted →
        Packet.encodeAll publishAndPing =
          cutTwice.flatMap PbufChain.bytes ++ (Packet.encodeAll later).drop last) :=
  fragments_reassemble rfl (by decide) (by decide)

/-! ## Chains of several buffers -/

section

universe u

variable {State : Type u} {received : State → Fragment → State × ℕ} {state : State}
  {packet : Packet} {seen left : ℕ} {incoming : Incoming} {vars : ParseVars} {p : PbufChain}

/-- The rest of a long message lies beyond the first buffer of the chain, and so do other bytes. -/
structure Beyond (p : PbufChain) (packet : Packet) (seen : ℕ) (vars : ParseVars) : Prop where
  long : mqttVarHeaderBufferLen ≤ seen
  chained : p.len < p.bytes.length
  inFirst : vars.inOffset.toNat ≤ p.len
  missing : p.len - vars.inOffset.toNat < packet.encode.length - seen

/-- Of a long message no more is passed on than the first buffer holds. -/
theorem copyLength_le_first (arrived : Arrived packet seen incoming)
    (beyond : Beyond p packet seen vars) :
    (copyLength p incoming vars).toNat ≤ p.len - vars.inOffset.toNat ∧
      (copyLength p incoming vars).toNat ≤ (limitedLength p vars).toNat := by
  have fits : p.bytes.length < 65536 := p.fits
  have inFirst := beyond.inFirst
  have chained := beyond.chained
  have long := beyond.long
  rw [← arrived.msgIdx] at long
  rw [copyLength]
  split
  · rw [UInt16.ofInt, UInt16.toNat_ofNat']
    omega
  · rename_i kept
    rw [not_and, Int.not_lt] at kept
    have small := kept long
    omega

/-- The handler lets the rest of the message pass. -/
def AcceptsRest (received : State → Fragment → State × ℕ) (packet : Packet) : Prop :=
  ∀ state place payload, mqttVarHeaderBufferLen ≤ place →
    packet.header.length + payload.length ≤ mqttVarHeaderBufferLen →
      (received state (packet.fragment place payload)).2 = mqttConnectAccepted

variable (state) in
/-- A pass leaves the parser in front of the end of the first buffer. -/
theorem parsePass_beyond (reading : Reading [packet] seen left incoming vars)
    (beyond : Beyond p packet seen vars)
    (accepts : AcceptsRest received packet) :
    ∃ stateNext seenNext leftNext incomingNext next,
      parsePass received p state incoming vars =
        some ((stateNext, incomingNext, next), mqttConnectAccepted) ∧
      Reading [packet] seenNext leftNext incomingNext next ∧ Beyond p packet seenNext next := by
  have bounds := packet.header_bounds
  have long := beyond.long
  have inFirst := beyond.inFirst
  have chained := beyond.chained
  have missing := beyond.missing
  rw [mqttVarHeaderBufferLen] at long
  cases reading with
  | @header _ _ _ read _ _ _ arrived inHeader within again =>
      have below := inHeader.below
      rcases parseHeader_stored (p := p) received state [] arrived inHeader (by omega) with
        ⟨left, next, parsed, reading, offset, _⟩
      rw [parsePass, if_pos inHeader.more, parsed]
      refine ⟨state, seen, left, incoming, next, rfl, reading, beyond.long, chained, ?_, ?_⟩
      · rw [offset]
        exact inFirst
      · rw [offset]
        exact missing
  | body arrived inBody =>
      have inside : vars.inOffset.toNat ≤ p.bytes.length := by omega
      have first := copyLength_le_first arrived beyond
      have limited := toNat_limitedLength inBody inside
      have few : (copyLength p incoming vars).toNat ≤ min (p.bytes.length - vars.inOffset.toNat)
          (min (packet.encode.length - seen)
            (mqttVarHeaderBufferLen - packet.header.length)) := limited ▸ first.2
      rcases parsePayload_eq received state arrived inBody few with
        ⟨payload, incomingNext, next, parsed, _, length, offset, msgIdx, rxBuffer, fixedHdrLen,
          lastByte, msgRemLen⟩
      rw [← length] at first few
      rw [mqttVarHeaderBufferLen] at few
      have accepted := accepts state seen payload beyond.long (by
        rw [mqttVarHeaderBufferLen]
        omega)
      have goesOn : endOfMessage incomingNext next = (incomingNext, next) ∧
          Reading [packet] (seen + payload.length) 0 incomingNext next :=
        Reading.piece arrived inBody (by omega) msgIdx rxBuffer fixedHdrLen lastByte msgRemLen
      rw [parsePass, if_neg inBody.notHeader, parsed, Option.map_some]
      simp only [accepted, goesOn.1, if_true]
      refine ⟨_, seen + payload.length, 0, incomingNext, next, rfl, goesOn.2, ?_⟩
      refine ⟨by rw [mqttVarHeaderBufferLen]; omega, chained, ?_, ?_⟩
      · omega
      · omega

/-- If the first of several buffers ends within a long message, the parser does not return. -/
theorem parseLoop_beyond {fuel : ℕ} (reading : Reading [packet] seen left incoming vars)
    (beyond : Beyond p packet seen vars)
    (accepts : AcceptsRest received packet) :
    parseLoop received p fuel state incoming vars = none := by
  have fits : p.bytes.length < 65536 := p.fits
  have totLen : p.totLen.toNat = p.bytes.length := by
    rw [PbufChain.totLen, UInt16.toNat_ofNat']
    exact Nat.mod_eq_of_lt fits
  induction fuel generalizing state seen left incoming vars with
  | zero => rfl
  | succ fuel ih =>
      have here : vars.inOffset < p.totLen := by
        have inFirst := beyond.inFirst
        have chained := beyond.chained
        rw [UInt16.lt_iff_toNat_lt, totLen]
        omega
      rcases parsePass_beyond state reading beyond accepts with
        ⟨stateNext, seenNext, leftNext, incomingNext, next, passed, readingNext, beyondNext⟩
      rw [parseLoop, if_pos here, passed, Option.bind_some]
      simp only [if_true]
      exact ih readingNext beyondNext

end

def longPublish : Packet :=
  ⟨0x30, 0 :: 1 :: List.replicate 198 116, by decide +kernel⟩

/-- The first buffers of the message have filled `rx_buffer`. -/
def longPublishKept : Incoming :=
  ⟨128, fun place => longPublish.header.getD place 0⟩

def twoBuffers : PbufChain :=
  ⟨[[116, 116], [116]], by decide⟩

theorem longPublish_arrived : Arrived longPublish 128 longPublishKept := by
  refine ⟨rfl, ?_, by decide +kernel⟩
  intro place _ inHeader
  change _ = some (longPublish.header.getD place 0)
  rw [List.getD_eq_getElem?_getD, List.getElem?_eq_getElem inHeader, Option.getD_some]

end MqttAccelero.Mqtt
