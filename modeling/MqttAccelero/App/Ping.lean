import MqttAccelero.Lib.Memory
import MqttAccelero.Lib.System

/-!
# The ping command

`ping_send` numbers its echo requests; `ping_recv` looks at every ICMP packet that
comes in and eats the reply it waits for. It takes the first 20 bytes for the IP
header, whatever length the header gives for itself, and does not look at the ICMP
type.
-/

namespace MqttAccelero.Ping

open Memory

/-! ## Packet buffers -/

/-- A `struct pbuf` at the address `addr`, with the memory around it. -/
structure PacketBuf where
  addr : ℕ
  payload : ℕ
  len : UInt16
  totLen : UInt16
  /-- `PBUF_TYPE_FLAG_STRUCT_DATA_CONTIGUOUS` of `type_internal`. -/
  contiguous : Bool
  ref : UInt8
  memory : ℕ → UInt8

def sizeofStructPbuf : ℕ := 16

/-- The second part is what is returned. -/
def pbufRemoveHeader (p : PacketBuf) (headerSizeDecrement : ℕ) : PacketBuf × UInt8 :=
  if headerSizeDecrement > 0xffff then (p, 1)
  else if headerSizeDecrement = 0 then (p, 0)
  else
    let incrementMagnitude := UInt16.ofNat headerSizeDecrement
    if incrementMagnitude ≤ p.len then
      ({ p with
          payload := p.payload + headerSizeDecrement
          len := p.len - incrementMagnitude
          totLen := p.totLen - incrementMagnitude }, 0)
    else (p, 1)

/-- `pbuf_add_header`, which is `pbuf_add_header_impl` without `force`. -/
def pbufAddHeader (p : PacketBuf) (headerSizeIncrement : ℕ) : PacketBuf × UInt8 :=
  if headerSizeIncrement > 0xffff then (p, 1)
  else if headerSizeIncrement = 0 then (p, 0)
  else
    let incrementMagnitude := UInt16.ofNat headerSizeIncrement
    if incrementMagnitude + p.totLen < incrementMagnitude then (p, 1)
    else if p.contiguous then
      if p.payload < p.addr + sizeofStructPbuf + headerSizeIncrement then (p, 1)
      else
        ({ p with
            payload := p.payload - headerSizeIncrement
            len := p.len + incrementMagnitude
            totLen := p.totLen + incrementMagnitude }, 0)
    else (p, 1)

def pbufFree (p : PacketBuf) : PacketBuf := { p with ref := p.ref - 1 }

/-! ## Requests -/

/-- `PP_HTONS` on a little-endian machine. -/
def lwipHtons (n : UInt16) : UInt16 := ((n &&& 0x00ff) <<< 8) ||| ((n &&& 0xff00) >>> 8)

def icmpEr : UInt8 := 0
def icmpEcho : UInt8 := 8

def pingId : UInt16 := 0xafaf
def pingDataSize : ℕ := 32
def pbufIpHlen : ℕ := 20
def sizeofIcmpEchoHdr : ℕ := 8

/-- `FOLD_U32T` -/
def foldU32 (u : UInt32) : UInt32 := (u >>> 16) + (u &&& 0xffff)

/-- The sum of `lwip_standard_chksum` over data at an even address. -/
def chksumWords : List UInt8 → UInt32
  | low :: high :: rest => UInt32.ofNat (leNat [low, high]) + chksumWords rest
  | [last] => last.toUInt32
  | [] => 0

def inetChksum (data : List UInt8) : UInt16 := ~~~(foldU32 (foldU32 (chksumWords data))).toUInt16

/-- The bytes of an echo message. -/
def echoBytes (type code : UInt8) (chksum id seqno : UInt16) (data : List UInt8) : List UInt8 :=
  [type, code] ++ leBytes 2 chksum.toNat ++ leBytes 2 id.toNat ++ leBytes 2 seqno.toNat ++ data

/-- The new `ping_seq_num` and the message. -/
def pingPrepareEcho (pingSeqNum : UInt16) (len : ℕ) : UInt16 × List UInt8 :=
  let dataLen := len - sizeofIcmpEchoHdr
  let pingSeqNum := pingSeqNum + 1
  let data := (List.range dataLen).map UInt8.ofNat
  let echo := fun chksum => echoBytes icmpEcho 0 chksum pingId (lwipHtons pingSeqNum) data
  (pingSeqNum, echo (inetChksum (echo 0)))

/-! ## Replies -/

structure RecvDone where
  ret : UInt8
  p : PacketBuf
  /-- `pbuf_free` has been called. -/
  freed : Bool

def pingRecv (pingSeqNum : UInt16) (p : PacketBuf) : RecvDone :=
  if pbufIpHlen + sizeofIcmpEchoHdr ≤ p.totLen.toNat then
    let (p, err) := pbufRemoveHeader p pbufIpHlen
    if err = 0 then
      let id := loadLe p.memory (p.payload + 4) 2
      let seqno := loadLe p.memory (p.payload + 6) 2
      if id = pingId.toNat ∧ seqno = (lwipHtons pingSeqNum).toNat then ⟨1, pbufFree p, true⟩
      else ⟨0, (pbufAddHeader p pbufIpHlen).1, false⟩
    else ⟨0, p, false⟩
  else ⟨0, p, false⟩

/-- The length that an IP header gives for itself. -/
def PacketBuf.headerLen (p : PacketBuf) : ℕ := 4 * (p.memory p.payload &&& 0x0f).toNat

/-- A packet as `raw_input` passes it on: a buffer of `pbuf_alloc`, in one piece, with a
whole IP header. -/
structure Packet where
  p : PacketBuf
  contiguous : p.contiguous = true
  behindStruct : p.addr + sizeofStructPbuf ≤ p.payload
  inOnePiece : p.totLen = p.len
  legal : 20 ≤ p.headerLen
  wholeHeader : p.headerLen ≤ p.len.toNat

namespace Packet

def bytes (packet : Packet) : List UInt8 := load packet.p.memory packet.p.payload packet.p.len.toNat

/-- The ICMP message, behind the IP header with its options. -/
def icmp (packet : Packet) : List UInt8 := packet.bytes.drop packet.p.headerLen

end Packet

/-! ## The command -/

structure Delivery where
  packet : Packet
  /-- The last request sent before. -/
  latest : Option (List UInt8)
  done : RecvDone

structure PingState where
  isInit : Bool
  pingSeqNum : UInt16
  /-- The messages handed to `raw_sendto`. -/
  sent : List (List UInt8)
  delivered : List Delivery

inductive PingEvent where
  | pingInit
  /-- `ping_send`; without memory for the request it gives up. -/
  | pingSend (allocated : Bool)
  | recv (packet : Packet)

def pingStep (state : PingState) : PingEvent → Option PingState
  | .pingInit => if state.isInit then none else some { state with isInit := true }
  | .pingSend allocated =>
      if state.isInit then
        if allocated then
          let (pingSeqNum, echo) :=
            pingPrepareEcho state.pingSeqNum (sizeofIcmpEchoHdr + pingDataSize)
          some { state with pingSeqNum := pingSeqNum, sent := state.sent ++ [echo] }
        else some state
      else none
  | .recv packet =>
      if state.isInit then
        some { state with
          delivered := state.delivered ++
            [⟨packet, state.sent.getLast?, pingRecv state.pingSeqNum packet.p⟩] }
      else none

def pingSystem : System PingState PingEvent where
  init := ⟨false, 0, [], []⟩
  step := pingStep

/-! ## What is claimed, and the condition for it -/

/-- A 16-bit field of a message, in network order. -/
def field16 (message : List UInt8) (offset : ℕ) : ℕ :=
  256 * (message.getD offset 0).toNat + (message.getD (offset + 1) 0).toNat

/-- An echo reply with our identifier and the number of the request. -/
structure IsReplyTo (request message : List UInt8) : Prop where
  whole : sizeofIcmpEchoHdr ≤ message.length
  type : message.head? = some icmpEr
  id : field16 message 4 = 0xafaf
  seqno : field16 message 6 = field16 request 6

/-- What a host makes of a request: the type is another, and the checksum with it. -/
structure IsEcho (request message : List UInt8) : Prop where
  type : message.head? = some icmpEr
  rest : message.drop 4 = request.drop 4

namespace Delivery

/-- The packet was eaten and freed if it answers the latest request, and only then; and
it was left as it was otherwise. -/
structure Exact (delivery : Delivery) : Prop where
  eaten_iff : (delivery.done.ret = 1 ∧ delivery.done.freed = true) ↔
    ∃ request, delivery.latest = some request ∧ IsReplyTo request delivery.packet.icmp
  kept : delivery.done.ret = 0 → delivery.done.p = delivery.packet.p ∧ delivery.done.freed = false

end Delivery

def PingState.Exact (state : PingState) : Prop := ∀ delivery ∈ state.delivered, delivery.Exact

/-- The bytes where an echo message has them are our identifier and the number. -/
def Carries (number : ℕ) (message : List UInt8) : Prop :=
  sizeofIcmpEchoHdr ≤ message.length ∧ field16 message 4 = 0xafaf ∧ field16 message 6 = number

/-- The condition on a packet: behind an IP header without options, what carries the
identifier and the current number is an echo reply, and a request has been sent. With
options, the message and the bytes from 20 on must say the same. -/
def Unmistakable (state : PingState) : PingEvent → Prop
  | .recv packet =>
      let number := state.pingSeqNum.toNat
      let awaited := packet.icmp.head? = some icmpEr ∧ state.sent ≠ []
      if packet.p.headerLen = 20 then Carries number packet.icmp → awaited
      else Carries number (packet.bytes.drop 20) ↔ Carries number packet.icmp ∧ awaited
  | _ => True

/-! ## Byte order -/

theorem toNat_lwipHtons (n : UInt16) :
    (lwipHtons n).toNat = 256 * (n.toNat % 256) + n.toNat / 256 := by
  have bound := n.toNat_lt
  have low : n.toNat &&& 255 = n.toNat % 256 := Nat.and_two_pow_sub_one_eq_mod n.toNat 8
  have high : (n.toNat &&& 65280) >>> 8 = n.toNat / 256 := by
    have masked : n.toNat / 256 &&& 255 = n.toNat / 256 % 256 :=
      Nat.and_two_pow_sub_one_eq_mod (n.toNat / 256) 8
    have mask : 65280 >>> 8 = 255 := rfl
    rw [Nat.shiftRight_and_distrib, mask, Nat.shiftRight_eq_div_pow, masked]
    omega
  have shifted : (n.toNat % 256) <<< 8 % 2 ^ 16 = (n.toNat % 256) <<< 8 := by
    rw [Nat.shiftLeft_eq]
    omega
  have small : n.toNat / 256 < 2 ^ 8 := by omega
  have swapped : (lwipHtons n).toNat =
      ((n.toNat &&& 255) <<< 8 % 2 ^ 16) ||| ((n.toNat &&& 65280) >>> 8) := by
    simp [lwipHtons]
  rw [swapped, low, high, shifted, ← Nat.shiftLeft_add_eq_or_of_lt small, Nat.shiftLeft_eq]
  omega

theorem loadLe_two (memory : ℕ → UInt8) (start : ℕ) :
    loadLe memory start 2 = (memory start).toNat + 256 * (memory (start + 1)).toNat := by
  simp [loadLe, load, leNat, List.range_succ]

/-- A field of the message behind `skip` bytes. -/
theorem field16_drop_load {memory : ℕ → UInt8} {start length skip offset : ℕ}
    (inside : skip + offset + 1 < length) :
    field16 ((load memory start length).drop skip) offset =
      256 * (memory (start + skip + offset)).toNat +
        (memory (start + skip + (offset + 1))).toNat := by
  have byte : ∀ index, skip + index < length →
      ((load memory start length).drop skip).getD index 0 = memory (start + skip + index) := by
    intro index within
    simp [load, List.getD_eq_getElem?_getD, List.getElem?_range within, Nat.add_assoc]
  rw [field16, byte offset (by omega), byte (offset + 1) (by omega)]

/-- The identifier reads the same in both orders. -/
theorem loadLe_eq_pingId_iff {memory : ℕ → UInt8} {start : ℕ} :
    loadLe memory start 2 = pingId.toNat ↔
      256 * (memory start).toNat + (memory (start + 1)).toNat = 0xafaf := by
  have low := (memory start).toNat_lt
  have high := (memory (start + 1)).toNat_lt
  have id : pingId.toNat = 0xafaf := rfl
  rw [loadLe_two, id]
  omega

theorem loadLe_eq_htons_iff {memory : ℕ → UInt8} {start : ℕ} {n : UInt16} :
    loadLe memory start 2 = (lwipHtons n).toNat ↔
      256 * (memory start).toNat + (memory (start + 1)).toNat = n.toNat := by
  have low := (memory start).toNat_lt
  have high := (memory (start + 1)).toNat_lt
  have bound := n.toNat_lt
  rw [loadLe_two, toNat_lwipHtons]
  omega

/-! ## What `ping_recv` does -/

variable {packet : Packet} {pingSeqNum : UInt16}

/-- The packet without its first 20 bytes. -/
def PacketBuf.stripped (p : PacketBuf) : PacketBuf :=
  { p with payload := p.payload + 20, len := p.len - 20, totLen := p.totLen - 20 }

theorem pbufRemoveHeader_eq (p : PacketBuf) (enough : 20 ≤ p.len) :
    pbufRemoveHeader p pbufIpHlen = (p.stripped, 0) := by
  simp [pbufRemoveHeader, pbufIpHlen, PacketBuf.stripped, enough]

/-- `pbuf_add_header` puts back what `pbuf_remove_header` has taken off. -/
theorem pbufAddHeader_stripped (packet : Packet) (enough : 20 ≤ packet.p.totLen.toNat) :
    pbufAddHeader packet.p.stripped pbufIpHlen = (packet.p, 0) := by
  have behindStruct := packet.behindStruct
  have lenBack : packet.p.len - 20 + 20 = packet.p.len := UInt16.sub_add_cancel _ _
  have totLenBack : packet.p.totLen - 20 + 20 = packet.p.totLen := UInt16.sub_add_cancel _ _
  have noWrap : ¬20 + (packet.p.totLen - 20) < 20 := by
    rw [UInt16.add_comm, totLenBack, UInt16.not_lt, UInt16.le_iff_toNat_le]
    exact enough
  have inside : ¬packet.p.payload + 20 < packet.p.addr + sizeofStructPbuf + 20 := by omega
  have short : ¬20 > 0xffff := by decide
  have nonzero : ¬20 = 0 := by decide
  have magnitude : UInt16.ofNat 20 = 20 := rfl
  simp only [pbufAddHeader, pbufIpHlen, PacketBuf.stripped, packet.contiguous, magnitude,
    if_neg short, if_neg nonzero, if_neg noWrap, if_neg inside, if_true, lenBack, totLenBack,
    Nat.add_sub_cancel]
  rw [← packet.contiguous]

/-- The comparisons of `ping_recv` in the bytes of the packet. -/
theorem carries_iff (packet : Packet) (pingSeqNum : UInt16) :
    Carries pingSeqNum.toNat (packet.bytes.drop 20) ↔
      pbufIpHlen + sizeofIcmpEchoHdr ≤ packet.p.totLen.toNat ∧
        loadLe packet.p.stripped.memory (packet.p.stripped.payload + 4) 2 = pingId.toNat ∧
        loadLe packet.p.stripped.memory (packet.p.stripped.payload + 6) 2 =
          (lwipHtons pingSeqNum).toNat := by
  have sameLen : packet.p.totLen.toNat = packet.p.len.toNat := congrArg _ packet.inOnePiece
  have length : (packet.bytes.drop 20).length = packet.p.len.toNat - 20 := by
    simp [Packet.bytes]
  have whole_iff : sizeofIcmpEchoHdr ≤ packet.p.len.toNat - 20 ↔
      pbufIpHlen + sizeofIcmpEchoHdr ≤ packet.p.len.toNat := by
    simp only [sizeofIcmpEchoHdr, pbufIpHlen]
    omega
  rw [loadLe_eq_pingId_iff, loadLe_eq_htons_iff, sameLen, Carries, length, whole_iff]
  apply and_congr_right
  intro whole
  have enough : 28 ≤ packet.p.len.toNat := whole
  rw [Packet.bytes, field16_drop_load (by omega), field16_drop_load (by omega)]
  exact Iff.rfl

/-- The length check is enough for `pbuf_remove_header`. -/
theorem pbufRemoveHeader_packet
    (enough : pbufIpHlen + sizeofIcmpEchoHdr ≤ packet.p.totLen.toNat) :
    pbufRemoveHeader packet.p pbufIpHlen = (packet.p.stripped, 0) := by
  apply pbufRemoveHeader_eq
  rw [← packet.inOnePiece, UInt16.le_iff_toNat_le]
  exact Nat.le_of_add_right_le enough

theorem pingRecv_of_carries (carries : Carries pingSeqNum.toNat (packet.bytes.drop 20)) :
    pingRecv pingSeqNum packet.p = ⟨1, pbufFree packet.p.stripped, true⟩ := by
  rcases (carries_iff packet pingSeqNum).mp carries with ⟨enough, matched⟩
  simp only [pingRecv, if_pos enough, pbufRemoveHeader_packet enough, if_true, if_pos matched]

theorem pingRecv_of_not_carries (other : ¬Carries pingSeqNum.toNat (packet.bytes.drop 20)) :
    pingRecv pingSeqNum packet.p = ⟨0, packet.p, false⟩ := by
  rw [carries_iff] at other
  by_cases enough : pbufIpHlen + sizeofIcmpEchoHdr ≤ packet.p.totLen.toNat
  · have unmatched := fun matched => other ⟨enough, matched⟩
    have restored := pbufAddHeader_stripped packet (Nat.le_of_add_right_le enough)
    simp only [pingRecv, if_pos enough, pbufRemoveHeader_packet enough, if_true, if_neg unmatched,
      restored]
  · rw [pingRecv, if_neg enough]

theorem eaten_pingRecv_iff (packet : Packet) (pingSeqNum : UInt16) :
    ((pingRecv pingSeqNum packet.p).ret = 1 ∧ (pingRecv pingSeqNum packet.p).freed = true) ↔
      Carries pingSeqNum.toNat (packet.bytes.drop 20) := by
  constructor
  · rintro ⟨eaten, _⟩
    by_contra other
    rw [pingRecv_of_not_carries other] at eaten
    have zero : (0 : UInt8) = 1 := eaten
    exact absurd zero (by decide)
  · intro carries
    rw [pingRecv_of_carries carries]
    exact ⟨rfl, rfl⟩

/-- What is not eaten is left as it was. -/
theorem kept_pingRecv (packet : Packet) (pingSeqNum : UInt16)
    (notEaten : (pingRecv pingSeqNum packet.p).ret = 0) :
    (pingRecv pingSeqNum packet.p).p = packet.p ∧
      (pingRecv pingSeqNum packet.p).freed = false := by
  by_cases carries : Carries pingSeqNum.toNat (packet.bytes.drop 20)
  · rw [pingRecv_of_carries carries] at notEaten
    have one : (1 : UInt8) = 0 := notEaten
    exact absurd one (by decide)
  · rw [pingRecv_of_not_carries carries]
    exact ⟨rfl, rfl⟩

/-! ## Every delivery -/

/-- The last request sent carries the number in use. -/
def NumberedLast (state : PingState) : Prop :=
  ∀ request, state.sent.getLast? = some request → Carries state.pingSeqNum.toNat request

theorem field16_echoBytes_seqno (type code : UInt8) (chksum id seqno : UInt16)
    (data : List UInt8) :
    field16 (echoBytes type code chksum id seqno data) 6 =
      256 * (seqno.toNat % 256) + seqno.toNat / 256 := by
  have bound := seqno.toNat_lt
  have fields : field16 (echoBytes type code chksum id seqno data) 6 =
      256 * (seqno.toNat % 256) + seqno.toNat / 256 % 256 := by
    simp [field16, echoBytes, leBytes]
  omega

/-- The request carries the new number in network order. -/
theorem carries_pingPrepareEcho (pingSeqNum : UInt16) (len : ℕ) :
    Carries (pingPrepareEcho pingSeqNum len).1.toNat (pingPrepareEcho pingSeqNum len).2 := by
  have bound := (pingSeqNum + 1).toNat_lt
  refine ⟨?_, rfl, ?_⟩
  · simp [pingPrepareEcho, echoBytes, sizeofIcmpEchoHdr]
    omega
  · simp only [pingPrepareEcho]
    rw [field16_echoBytes_seqno, toNat_lwipHtons]
    omega

/-- What a step can do. -/
theorem pingStep_cases {state next : PingState} {event : PingEvent}
    (stepped : pingStep state event = some next) :
    (next.pingSeqNum = state.pingSeqNum ∧ next.sent = state.sent ∧
        next.delivered = state.delivered ∧ ∀ packet, event ≠ .recv packet) ∨
      (∃ len, next.pingSeqNum = (pingPrepareEcho state.pingSeqNum len).1 ∧
        next.sent = state.sent ++ [(pingPrepareEcho state.pingSeqNum len).2] ∧
        next.delivered = state.delivered ∧ ∀ packet, event ≠ .recv packet) ∨
      ∃ packet, event = .recv packet ∧
        next.pingSeqNum = state.pingSeqNum ∧ next.sent = state.sent ∧
        next.delivered = state.delivered ++
          [⟨packet, state.sent.getLast?, pingRecv state.pingSeqNum packet.p⟩] := by
  cases event with
  | pingInit =>
      simp only [pingStep] at stepped
      split at stepped
      · cases stepped
      · cases stepped
        exact Or.inl ⟨rfl, rfl, rfl, nofun⟩
  | pingSend allocated =>
      simp only [pingStep] at stepped
      split at stepped
      · split at stepped
        · cases stepped
          exact Or.inr (Or.inl ⟨_, rfl, rfl, rfl, nofun⟩)
        · cases stepped
          exact Or.inl ⟨rfl, rfl, rfl, nofun⟩
      · cases stepped
  | recv packet =>
      simp only [pingStep] at stepped
      split at stepped
      · cases stepped
        exact Or.inr (Or.inr ⟨packet, rfl, rfl, rfl, rfl⟩)
      · cases stepped

theorem numberedLast_init : NumberedLast pingSystem.init := nofun

theorem NumberedLast.step {state next : PingState} {event : PingEvent}
    (numbered : NumberedLast state) (stepped : pingStep state event = some next) :
    NumberedLast next := by
  unfold NumberedLast
  rcases pingStep_cases stepped with
    ⟨number, sent, -, -⟩ | ⟨len, number, sent, -, -⟩ | ⟨packet, -, number, sent, -⟩
  · rw [number, sent]
    exact numbered
  · intro request last
    rw [sent, List.getLast?_concat] at last
    cases last
    rw [number]
    exact carries_pingPrepareEcho _ _
  · rw [number, sent]
    exact numbered

/-- The reply awaited, in terms of the number in use. -/
theorem answersLatest_iff {state : PingState} (numbered : NumberedLast state)
    (packet : Packet) :
    (∃ request, state.sent.getLast? = some request ∧ IsReplyTo request packet.icmp) ↔
      Carries state.pingSeqNum.toNat packet.icmp ∧ packet.icmp.head? = some icmpEr ∧
        state.sent ≠ [] := by
  constructor
  · rintro ⟨request, last, reply⟩
    refine ⟨⟨reply.whole, reply.id, ?_⟩, reply.type, ?_⟩
    · rw [reply.seqno, (numbered request last).2.2]
    · intro nothing
      rw [nothing] at last
      cases last
  · rintro ⟨⟨whole, id, seqno⟩, type, something⟩
    refine ⟨state.sent.getLast something, List.getLast?_eq_some_getLast something, ?_⟩
    refine ⟨whole, type, id, ?_⟩
    rw [seqno, (numbered _ (List.getLast?_eq_some_getLast something)).2.2]

theorem unmistakable_recv_iff {state : PingState} (packet : Packet) :
    Unmistakable state (.recv packet) ↔
      (Carries state.pingSeqNum.toNat (packet.bytes.drop 20) ↔
        Carries state.pingSeqNum.toNat packet.icmp ∧ packet.icmp.head? = some icmpEr ∧
          state.sent ≠ []) := by
  simp only [Unmistakable]
  split
  · next plain =>
      have sameBytes : packet.icmp = packet.bytes.drop 20 := by rw [Packet.icmp, plain]
      rw [sameBytes]
      exact iff_self_and.symm
  · exact Iff.rfl

theorem exact_recv_iff {state : PingState} (numbered : NumberedLast state) (packet : Packet) :
    (⟨packet, state.sent.getLast?, pingRecv state.pingSeqNum packet.p⟩ : Delivery).Exact ↔
      Unmistakable state (.recv packet) := by
  rw [unmistakable_recv_iff, ← answersLatest_iff numbered]
  have eaten := eaten_pingRecv_iff packet state.pingSeqNum
  constructor
  · intro exact_
    exact eaten.symm.trans exact_.eaten_iff
  · intro same
    exact ⟨eaten.trans same, kept_pingRecv packet state.pingSeqNum⟩

theorem unmistakable_of_not_recv {state : PingState} {event : PingEvent}
    (other : ∀ packet, event ≠ .recv packet) : Unmistakable state event := by
  cases event with
  | pingInit => trivial
  | pingSend allocated => trivial
  | recv packet => exact absurd rfl (other packet)

theorem exact_step {state next : PingState} {event : PingEvent} (numbered : NumberedLast state)
    (stepped : pingStep state event = some next) :
    next.Exact ↔ state.Exact ∧ Unmistakable state event := by
  unfold PingState.Exact
  rcases pingStep_cases stepped with
    ⟨-, -, same, other⟩ | ⟨-, -, -, same, other⟩ | ⟨packet, rfl, -, -, delivered⟩
  · rw [same]
    exact (and_iff_left (unmistakable_of_not_recv other)).symm
  · rw [same]
    exact (and_iff_left (unmistakable_of_not_recv other)).symm
  · rw [← exact_recv_iff numbered packet, delivered]
    simp [or_imp, forall_and]

theorem field16_drop (message : List UInt8) (skip offset : ℕ) :
    field16 (message.drop skip) offset = field16 message (skip + offset) := by
  simp [field16, List.getD_eq_getElem?_getD, Nat.add_assoc]

theorem IsEcho.carries {request message : List UInt8} {number : ℕ}
    (echo : IsEcho request message) (carries : Carries number request) :
    Carries number message := by
  rcases carries with ⟨whole, id, seqno⟩
  have sameLength := congrArg List.length echo.rest
  have sameField : ∀ offset, field16 message (4 + offset) = field16 request (4 + offset) := by
    intro offset
    rw [← field16_drop, ← field16_drop, echo.rest]
  refine ⟨?_, (sameField 0).trans id, (sameField 2).trans seqno⟩
  simp only [List.length_drop, sizeofIcmpEchoHdr] at sameLength whole ⊢
  omega

/-- Behind an IP header without options, every echo of the last request is eaten. -/
theorem echo_eaten {state : PingState} (numbered : NumberedLast state) {packet : Packet}
    {request : List UInt8} (last : state.sent.getLast? = some request)
    (echo : IsEcho request packet.icmp) (plain : packet.p.headerLen = 20) :
    (pingRecv state.pingSeqNum packet.p).ret = 1 ∧
      (pingRecv state.pingSeqNum packet.p).freed = true := by
  have sameBytes : packet.icmp = packet.bytes.drop 20 := by rw [Packet.icmp, plain]
  rw [eaten_pingRecv_iff, ← sameBytes]
  exact echo.carries (numbered request last)

theorem IsEcho.isReplyTo {request message : List UInt8} {number : ℕ}
    (echo : IsEcho request message) (carries : Carries number request) :
    IsReplyTo request message := by
  rcases echo.carries carries with ⟨whole, id, seqno⟩
  exact ⟨whole, echo.type, id, seqno.trans carries.2.2.symm⟩

/-- Every packet is treated as it should be exactly if none of them can be mistaken. The
echo of the last request is the reply waited for, and without IP options it is eaten. -/
theorem ping_replies_matched_iff {events : List PingEvent} {final : PingState}
    (ran : pingSystem.run events = some final) :
    (final.Exact ↔ pingSystem.Along Unmistakable pingSystem.init events) ∧
      ∀ (request : List UInt8) (packet : Packet), final.sent.getLast? = some request →
        IsEcho request packet.icmp →
        IsReplyTo request packet.icmp ∧
          (packet.p.headerLen = 20 →
            (pingRecv final.pingSeqNum packet.p).ret = 1 ∧
              (pingRecv final.pingSeqNum packet.p).freed = true) := by
  have exact_iff := System.good_iff_along Unmistakable NumberedLast PingState.Exact
    (fun _ _ _ numbered stepped => numbered.step stepped)
    (fun _ _ _ numbered stepped => exact_step numbered stepped) numberedLast_init ran
  have exactAtStart : pingSystem.init.Exact := nofun
  have numbered : NumberedLast final :=
    System.invariant NumberedLast (fun _ _ _ numbered stepped => numbered.step stepped)
      numberedLast_init ran
  constructor
  · rw [exact_iff]
    exact and_iff_right exactAtStart
  · intro request packet last echo
    exact ⟨echo.isReplyTo (numbered request last), echo_eaten numbered last echo⟩

/-- A message of the type without data, with our identifier and the number 1, behind an
IP header without options. -/
def numberOne (type : UInt8) : Packet where
  p :=
    { addr := 0
      payload := 32
      len := 28
      totLen := 28
      contiguous := true
      ref := 1
      memory := fun address =>
        [0x45, 0, 0, 28, 0, 0, 0, 0, 64, 1, 0, 0, 192, 168, 0, 1, 192, 168, 0, 2,
          type, 0, 0, 0, 0xaf, 0xaf, 0, 1].getD (address - 32) 0 }
  contiguous := rfl
  behindStruct := by simp [sizeofStructPbuf]
  inOnePiece := rfl
  legal := by simp +decide [PacketBuf.headerLen]
  wholeHeader := by simp +decide [PacketBuf.headerLen]

theorem replyAfterPing_enabled :
    (pingSystem.run [.pingInit, .pingSend true, .recv (numberOne icmpEr)]).isSome := by
  decide +kernel

theorem ping_replies_matched_reply :
    let events := [.pingInit, .pingSend true, .recv (numberOne icmpEr)]
    let final := pingSystem.final events replyAfterPing_enabled
    (final.Exact ↔ pingSystem.Along Unmistakable pingSystem.init events) ∧
      ∀ (request : List UInt8) (packet : Packet), final.sent.getLast? = some request →
        IsEcho request packet.icmp →
        IsReplyTo request packet.icmp ∧
          (packet.p.headerLen = 20 →
            (pingRecv final.pingSeqNum packet.p).ret = 1 ∧
              (pingRecv final.pingSeqNum packet.p).freed = true) :=
  ping_replies_matched_iff (System.run_final replyAfterPing_enabled)

/-- Another host's echo request with the identifier and the number is eaten. -/
theorem ping_replies_matched_violated :
    ∃ final, pingSystem.run [.pingInit, .pingSend true, .recv (numberOne icmpEcho)] = some final ∧
      final.delivered.map (fun delivery => (delivery.done.ret, delivery.done.freed)) =
        [(1, true)] ∧ ¬final.Exact := by
  refine ⟨_, rfl, by decide +kernel, ?_⟩
  intro exact_
  have treated := exact_ _ (List.mem_singleton.mpr rfl)
  rcases treated.eaten_iff.mp ⟨by decide +kernel, by decide +kernel⟩ with ⟨request, _, reply⟩
  have type := reply.type
  exact absurd type (by decide +kernel)

end MqttAccelero.Ping
