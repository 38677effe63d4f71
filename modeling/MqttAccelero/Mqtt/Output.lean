import Mathlib.Data.Nat.Bitwise
import MqttAccelero.Lib.Cyclic
import MqttAccelero.Mqtt.Packet

/-!
# The output ring buffer of the client

Messages are appended byte by byte and handed to TCP in at most two pieces. The
ring keeps no count: it is empty when the two positions meet, also when they meet
because all of it was filled.

The answers of TCP are given: how much it takes at the time of each of the two
calls of `altcp_sndbuf`, and whether each `altcp_write` takes what it is given. It
takes all of it or nothing.
-/

namespace MqttAccelero.Mqtt

def mqttOutputRingbufSize : ℕ := 256

/-- What lies behind the end of `buf` is another part of the memory. -/
structure MqttRingbuf where
  put : UInt16
  get : UInt16
  buf : ℕ → UInt8

def mqttRingbufPut (rb : MqttRingbuf) (item : UInt8) : MqttRingbuf :=
  let put := rb.put + 1
  { rb with
    buf := Function.update rb.buf rb.put.toNat item
    put := if mqttOutputRingbufSize ≤ put.toNat then 0 else put }

def mqttRingbufAdvanceGetIdx (rb : MqttRingbuf) (len : UInt16) : MqttRingbuf :=
  let get := rb.get + len
  { rb with get := if mqttOutputRingbufSize ≤ get.toNat then get - 256 else get }

def mqttRingbufLen (rb : MqttRingbuf) : UInt16 :=
  let len := rb.put.toUInt32 - rb.get.toUInt32
  (if 0xFFFF < len then len + 256 else len).toUInt16

def mqttRingbufFree (rb : MqttRingbuf) : ℤ :=
  mqttOutputRingbufSize - (mqttRingbufLen rb).toNat

def lwipMin (x y : UInt16) : UInt16 :=
  if x < y then x else y

def mqttRingbufLinearReadLength (rb : MqttRingbuf) : UInt16 :=
  lwipMin (mqttRingbufLen rb) (256 - rb.get)

/-- What `altcp_sndbuf` and `altcp_write` answer to one `mqtt_output_send`. -/
structure TcpAnswers where
  sndbuf : UInt16
  written : Bool
  sndbufNext : UInt16
  writtenNext : Bool
deriving DecidableEq, Repr

/-- The ring buffer afterwards, and the bytes that TCP has taken. -/
def mqttOutputSend (rb : MqttRingbuf) (tpcb : TcpAnswers) : MqttRingbuf × List UInt8 :=
  let ringbufLinLen := mqttRingbufLinearReadLength rb
  let sendLen := tpcb.sndbuf
  if sendLen = 0 ∨ ringbufLinLen = 0 then (rb, [])
  else
    let wrap := decide (ringbufLinLen < sendLen) && decide (ringbufLinLen < mqttRingbufLen rb)
    let sendLen := if ringbufLinLen < sendLen then ringbufLinLen else sendLen
    if tpcb.written then
      let first := Memory.load rb.buf rb.get.toNat sendLen.toNat
      let rb := mqttRingbufAdvanceGetIdx rb sendLen
      if wrap then
        let sendLen := lwipMin tpcb.sndbufNext (mqttRingbufLinearReadLength rb)
        if tpcb.writtenNext then
          (mqttRingbufAdvanceGetIdx rb sendLen,
            first ++ Memory.load rb.buf rb.get.toNat sendLen.toNat)
        else (rb, first)
      else (rb, first)
    else (rb, [])

/-! ## Appending to a message -/

def mqttOutputAppendU8 (rb : MqttRingbuf) (value : UInt8) : MqttRingbuf :=
  mqttRingbufPut rb value

def mqttOutputAppendU16 (rb : MqttRingbuf) (value : UInt16) : MqttRingbuf :=
  mqttRingbufPut (mqttRingbufPut rb (value >>> 8).toUInt8) (value &&& 0xff).toUInt8

def mqttOutputAppendBuf (rb : MqttRingbuf) (data : List UInt8) : MqttRingbuf :=
  data.foldl mqttRingbufPut rb

/-- The string is as long as `length` says. -/
def mqttOutputAppendString (rb : MqttRingbuf) (str : List UInt8) (length : UInt16) : MqttRingbuf :=
  str.foldl mqttRingbufPut
    (mqttRingbufPut (mqttRingbufPut rb (length >>> 8).toUInt8) (length &&& 0xff).toUInt8)

/-- The loop over the groups of seven bits; 16 bits are at most three of them. -/
def appendRemainingLength : (passes : ℕ) → MqttRingbuf → UInt16 → MqttRingbuf
  | 0, rb, _ => rb
  | passes + 1, rb, rLength =>
      let rb := mqttOutputAppendU8 rb
        ((rLength &&& 0x7f) ||| (if 128 ≤ rLength then 0x80 else 0)).toUInt8
      let rLength := rLength >>> 7
      if 0 < rLength then appendRemainingLength passes rb rLength else rb

def fixedHeaderByte (msgType fdup fqos fretain : UInt8) : UInt8 :=
  ((msgType &&& 0x0f) <<< 4) ||| ((fdup &&& 1) <<< 3) ||| ((fqos &&& 3) <<< 1) ||| (fretain &&& 1)

def mqttOutputAppendFixedHeader (rb : MqttRingbuf) (msgType fdup fqos fretain : UInt8)
    (rLength : UInt16) : MqttRingbuf :=
  appendRemainingLength 3 (mqttOutputAppendU8 rb (fixedHeaderByte msgType fdup fqos fretain)) rLength

def countRemainingLength : (passes : ℕ) → (totalLen rLength : UInt16) → UInt16
  | 0, totalLen, _ => totalLen
  | passes + 1, totalLen, rLength =>
      let totalLen := totalLen + 1
      let rLength := rLength >>> 7
      if 0 < rLength then countRemainingLength passes totalLen rLength else totalLen

def mqttOutputCheckSpace (rb : MqttRingbuf) (rLength : UInt16) : Bool :=
  decide (((countRemainingLength 3 (1 + rLength) rLength).toNat : ℤ) ≤ mqttRingbufFree rb)

/-! ## The ring as a queue of bytes -/

theorem toNat_lwipMin (x y : UInt16) : (lwipMin x y).toNat = min x.toNat y.toNat := by
  rw [lwipMin]
  split
  · rename_i less
    exact (Nat.min_eq_left (Nat.le_of_lt (UInt16.lt_iff_toNat_lt.mp less))).symm
  · rename_i atLeast
    exact (Nat.min_eq_right (UInt16.le_iff_toNat_le.mp (UInt16.not_lt.mp atLeast))).symm

namespace MqttRingbuf

/-- The positions lie in the buffer. -/
structure Wf (rb : MqttRingbuf) : Prop where
  put_lt : rb.put.toNat < mqttOutputRingbufSize
  get_lt : rb.get.toNat < mqttOutputRingbufSize

/-- The bytes that wait for TCP. -/
def contents (rb : MqttRingbuf) : List UInt8 :=
  Cyclic.read rb.buf mqttOutputRingbufSize rb.get.toNat (mqttRingbufLen rb).toNat

variable {rb : MqttRingbuf}

theorem Wf.toNat_len (wf : Wf rb) : (mqttRingbufLen rb).toNat =
    (rb.put.toNat + mqttOutputRingbufSize - rb.get.toNat) % mqttOutputRingbufSize := by
  have put_lt := wf.put_lt
  have get_lt := wf.get_lt
  rw [mqttOutputRingbufSize] at *
  have difference : (rb.put.toUInt32 - rb.get.toUInt32).toNat =
      (4294967296 - rb.get.toNat + rb.put.toNat) % 4294967296 := by
    rw [UInt32.toNat_sub, UInt16.toNat_toUInt32, UInt16.toNat_toUInt32]
  have top : (0xFFFF : UInt32).toNat = 65535 := rfl
  have size : (256 : UInt32).toNat = 256 := rfl
  rw [mqttRingbufLen]
  split
  · rename_i negative
    rw [UInt32.lt_iff_toNat_lt, difference, top] at negative
    rw [UInt32.toNat_toUInt16, UInt32.toNat_add, difference, size]
    omega
  · rename_i positive
    rw [UInt32.lt_iff_toNat_lt, difference, top] at positive
    rw [UInt32.toNat_toUInt16, difference]
    omega

theorem Wf.len_lt (wf : Wf rb) : (mqttRingbufLen rb).toNat < mqttOutputRingbufSize := by
  rw [wf.toNat_len]
  exact Nat.mod_lt _ (by decide)

/-- The next byte is put behind those that wait. -/
theorem Wf.put_eq (wf : Wf rb) :
    rb.put.toNat = (rb.get.toNat + (mqttRingbufLen rb).toNat) % mqttOutputRingbufSize := by
  have put_lt := wf.put_lt
  have get_lt := wf.get_lt
  rw [wf.toNat_len]
  rw [mqttOutputRingbufSize] at *
  omega

@[simp]
theorem length_contents : (contents rb).length = (mqttRingbufLen rb).toNat :=
  Cyclic.length_read

/-! ### Putting -/

theorem Wf.toNat_put_next (wf : Wf rb) (item : UInt8) :
    (mqttRingbufPut rb item).put.toNat = (rb.put.toNat + 1) % mqttOutputRingbufSize := by
  have put_lt := wf.put_lt
  have next : (rb.put + 1).toNat = rb.put.toNat + 1 := by
    rw [UInt16.toNat_add, UInt16.toNat_one]
    rw [mqttOutputRingbufSize] at put_lt
    omega
  simp only [mqttRingbufPut, next]
  rw [mqttOutputRingbufSize] at *
  split
  · rw [UInt16.toNat_zero]
    omega
  · rw [next]
    omega

theorem Wf.put (wf : Wf rb) (item : UInt8) : Wf (mqttRingbufPut rb item) := by
  refine ⟨?_, wf.get_lt⟩
  rw [wf.toNat_put_next]
  exact Nat.mod_lt _ (by decide)

theorem Wf.len_put (wf : Wf rb) (item : UInt8) : (mqttRingbufLen (mqttRingbufPut rb item)).toNat =
    ((mqttRingbufLen rb).toNat + 1) % mqttOutputRingbufSize := by
  have get_lt := wf.get_lt
  have kept : (mqttRingbufPut rb item).get = rb.get := rfl
  rw [(wf.put item).toNat_len, wf.toNat_put_next, wf.toNat_len, kept]
  rw [mqttOutputRingbufSize] at *
  omega

theorem Wf.puts (wf : Wf rb) (data : List UInt8) : Wf (data.foldl mqttRingbufPut rb) := by
  induction data generalizing rb with
  | nil => exact wf
  | cons item data ih => exact ih (wf.put item)

theorem Wf.len_puts (wf : Wf rb) (data : List UInt8) :
    (mqttRingbufLen (data.foldl mqttRingbufPut rb)).toNat =
      ((mqttRingbufLen rb).toNat + data.length) % mqttOutputRingbufSize := by
  induction data generalizing rb with
  | nil => exact (Nat.mod_eq_of_lt wf.len_lt).symm
  | cons item data ih =>
      rw [List.foldl_cons, ih (wf.put item), wf.len_put, Nat.mod_add_mod, List.length_cons,
        Nat.add_assoc, Nat.add_comm 1]

theorem get_puts (data : List UInt8) : (data.foldl mqttRingbufPut rb).get = rb.get := by
  induction data generalizing rb with
  | nil => rfl
  | cons item data ih => exact ih

theorem Wf.buf_puts (wf : Wf rb) (data : List UInt8) : (data.foldl mqttRingbufPut rb).buf =
    Cyclic.write rb.buf mqttOutputRingbufSize rb.put.toNat data := by
  induction data generalizing rb with
  | nil => rfl
  | cons item data ih =>
      have cell : (mqttRingbufPut rb item).buf = Function.update rb.buf rb.put.toNat item := rfl
      rw [List.foldl_cons, ih (wf.put item), cell, wf.toNat_put_next, Cyclic.write_mod,
        Cyclic.write_cons, Nat.mod_eq_of_lt wf.put_lt]

/-- What is appended waits behind what waited before if a byte of the ring stays free. -/
theorem Wf.contents_puts (wf : Wf rb) (data : List UInt8)
    (room : (mqttRingbufLen rb).toNat + data.length < mqttOutputRingbufSize) :
    contents (data.foldl mqttRingbufPut rb) = contents rb ++ data := by
  rw [contents, get_puts, wf.len_puts, Nat.mod_eq_of_lt room, wf.buf_puts, wf.put_eq,
    Cyclic.write_mod]
  exact Cyclic.read_write_next (Nat.le_of_lt room)

/-! ### Sending -/

theorem Wf.toNat_advance (wf : Wf rb) {len : UInt16}
    (waiting : len.toNat ≤ (mqttRingbufLen rb).toNat) :
    (mqttRingbufAdvanceGetIdx rb len).get.toNat =
      (rb.get.toNat + len.toNat) % mqttOutputRingbufSize := by
  have get_lt := wf.get_lt
  have len_lt := Nat.lt_of_le_of_lt waiting wf.len_lt
  rw [mqttOutputRingbufSize] at *
  have next : (rb.get + len).toNat = rb.get.toNat + len.toNat := by
    rw [UInt16.toNat_add]
    omega
  have size : (256 : UInt16).toNat = 256 := rfl
  simp only [mqttRingbufAdvanceGetIdx, next, mqttOutputRingbufSize]
  split
  · rw [UInt16.toNat_sub, next, size]
    omega
  · rw [next]
    omega

theorem Wf.advance (wf : Wf rb) {len : UInt16} (waiting : len.toNat ≤ (mqttRingbufLen rb).toNat) :
    Wf (mqttRingbufAdvanceGetIdx rb len) := by
  refine ⟨wf.put_lt, ?_⟩
  rw [wf.toNat_advance waiting]
  exact Nat.mod_lt _ (by decide)

theorem Wf.contents_advance (wf : Wf rb) {len : UInt16}
    (waiting : len.toNat ≤ (mqttRingbufLen rb).toNat) :
    contents (mqttRingbufAdvanceGetIdx rb len) = (contents rb).drop len.toNat := by
  have left : (mqttRingbufLen (mqttRingbufAdvanceGetIdx rb len)).toNat =
      (mqttRingbufLen rb).toNat - len.toNat := by
    have put_lt := wf.put_lt
    have get_lt := wf.get_lt
    have kept : (mqttRingbufAdvanceGetIdx rb len).put = rb.put := rfl
    rw [(wf.advance waiting).toNat_len, wf.toNat_advance waiting, kept]
    rw [wf.toNat_len] at waiting ⊢
    rw [mqttOutputRingbufSize] at *
    omega
  have kept : (mqttRingbufAdvanceGetIdx rb len).buf = rb.buf := rfl
  rw [contents, left, wf.toNat_advance waiting, kept, Cyclic.read_mod, contents, Cyclic.read_drop]

theorem Wf.toNat_linear (wf : Wf rb) : (mqttRingbufLinearReadLength rb).toNat =
    min (mqttRingbufLen rb).toNat (mqttOutputRingbufSize - rb.get.toNat) := by
  have get_lt := wf.get_lt
  have size : (256 : UInt16).toNat = 256 := rfl
  have behind : (256 - rb.get).toNat = 256 - rb.get.toNat := by
    rw [UInt16.toNat_sub_of_le, size]
    rw [UInt16.le_iff_toNat_le, size]
    exact Nat.le_of_lt get_lt
  rw [mqttRingbufLinearReadLength, mqttOutputRingbufSize, toNat_lwipMin, behind]

/-- The bytes up to the end of the buffer are the first of those that wait. -/
theorem Wf.load_linear (wf : Wf rb) {len : UInt16} (linear : len ≤ mqttRingbufLinearReadLength rb) :
    Memory.load rb.buf rb.get.toNat len.toNat = (contents rb).take len.toNat := by
  have get_lt := wf.get_lt
  rw [UInt16.le_iff_toNat_le, wf.toNat_linear] at linear
  rw [contents, Cyclic.read_take, Nat.min_eq_left (by omega), Cyclic.read_eq_load (by omega)]

/-- Bytes are taken from the front of those that wait, as TCP takes them. -/
theorem Wf.send_piece (wf : Wf rb) {len : UInt16} (linear : len ≤ mqttRingbufLinearReadLength rb) :
    Wf (mqttRingbufAdvanceGetIdx rb len) ∧
      Memory.load rb.buf rb.get.toNat len.toNat ++ contents (mqttRingbufAdvanceGetIdx rb len) =
        contents rb := by
  have waiting : len.toNat ≤ (mqttRingbufLen rb).toNat := by
    rw [UInt16.le_iff_toNat_le, wf.toNat_linear] at linear
    omega
  refine ⟨wf.advance waiting, ?_⟩
  rw [wf.load_linear linear, wf.contents_advance waiting, List.take_append_drop]

/-- Whatever TCP answers, the bytes it has taken and those that still wait are those that
waited. -/
theorem Wf.send (wf : Wf rb) (tpcb : TcpAnswers) :
    Wf (mqttOutputSend rb tpcb).1 ∧
      (mqttOutputSend rb tpcb).2 ++ contents (mqttOutputSend rb tpcb).1 = contents rb := by
  have nothing : Wf rb ∧ [] ++ contents rb = contents rb := ⟨wf, List.nil_append _⟩
  simp only [mqttOutputSend]
  split
  · exact nothing
  · have linear : (if mqttRingbufLinearReadLength rb < tpcb.sndbuf then
        mqttRingbufLinearReadLength rb else tpcb.sndbuf) ≤ mqttRingbufLinearReadLength rb := by
      split
      · exact UInt16.le_refl _
      · exact UInt16.not_lt.mp ‹_›
    generalize (if mqttRingbufLinearReadLength rb < tpcb.sndbuf then
        mqttRingbufLinearReadLength rb else tpcb.sndbuf) = sendLen at linear ⊢
    rcases wf.send_piece linear with ⟨wfFirst, first⟩
    split
    · split
      · have linearNext : lwipMin tpcb.sndbufNext
            (mqttRingbufLinearReadLength (mqttRingbufAdvanceGetIdx rb sendLen)) ≤
              mqttRingbufLinearReadLength (mqttRingbufAdvanceGetIdx rb sendLen) := by
          rw [UInt16.le_iff_toNat_le, toNat_lwipMin]
          exact Nat.min_le_right _ _
        rcases wfFirst.send_piece linearNext with ⟨wfSecond, second⟩
        split
        · refine ⟨wfSecond, ?_⟩
          rw [List.append_assoc, second, first]
        · exact ⟨wfFirst, first⟩
      · exact ⟨wfFirst, first⟩
    · exact nothing

end MqttRingbuf

/-! ## Messages -/

/-- One group of the remaining length, as the loop writes it. -/
theorem groupByte (rLength : UInt16) :
    ((rLength &&& 0x7f) ||| (if 128 ≤ rLength then 0x80 else 0)).toUInt8 =
      if rLength.toNat < 128 then UInt8.ofNat rLength.toNat
      else UInt8.ofNat (rLength.toNat % 128 + 128) := by
  have low : (rLength &&& 0x7f).toNat = rLength.toNat % 128 := by
    rw [UInt16.toNat_and]
    exact Nat.and_two_pow_sub_one_eq_mod rLength.toNat 7
  have bound : (128 : UInt16).toNat = 128 := rfl
  by_cases last : rLength.toNat < 128
  · have notMore : ¬128 ≤ rLength := by
      rw [UInt16.le_iff_toNat_le, bound]
      omega
    rw [if_pos last, if_neg notMore, UInt16.or_zero]
    apply UInt8.toNat.inj
    rw [UInt16.toNat_toUInt8, low, Varint.toNat_last last]
    omega
  · have more : 128 ≤ rLength := by
      rw [UInt16.le_iff_toNat_le, bound]
      omega
    rw [if_neg last, if_pos more]
    apply UInt8.toNat.inj
    have joined := Nat.two_pow_add_eq_or_of_lt (Nat.mod_lt rLength.toNat (by decide : 0 < 2 ^ 7)) 1
    have flag : (0x80 : UInt16).toNat = 2 ^ 7 * 1 := rfl
    rw [UInt16.toNat_toUInt8, UInt16.toNat_or, low, Varint.toNat_group, flag, Nat.or_comm]
    simp only [Nat.reducePow, Nat.mul_one] at joined ⊢
    rw [← joined]
    omega

theorem toNat_shiftRight_seven (rLength : UInt16) :
    (rLength >>> 7).toNat = rLength.toNat / 128 := by
  rw [UInt16.toNat_shiftRight]
  exact Nat.shiftRight_eq_div_pow rLength.toNat 7

/-- There is another group exactly if the number does not fit this one. -/
theorem shiftRight_seven_pos (rLength : UInt16) :
    (0 : UInt16) < rLength >>> 7 ↔ ¬rLength.toNat < 128 := by
  rw [UInt16.lt_iff_toNat_lt, toNat_shiftRight_seven, UInt16.toNat_zero]
  omega

theorem appendRemainingLength_eq {passes : ℕ} (rb : MqttRingbuf) {rLength : UInt16}
    (fits : rLength.toNat < 128 ^ (passes + 1)) : appendRemainingLength (passes + 1) rb rLength =
      (Varint.encode (passes + 1) rLength.toNat).foldl mqttRingbufPut rb := by
  induction passes generalizing rb rLength with
  | zero =>
      have small : rLength.toNat < 128 := by simpa using fits
      have last := mt (shiftRight_seven_pos rLength).mp (not_not_intro small)
      simp only [appendRemainingLength, mqttOutputAppendU8, groupByte, if_pos small, if_neg last,
        Varint.encode_small small, List.foldl_cons, List.foldl_nil]
  | succ passes ih =>
      rw [appendRemainingLength]
      simp only [mqttOutputAppendU8, groupByte, shiftRight_seven_pos]
      by_cases small : rLength.toNat < 128
      · rw [if_pos small, if_neg (not_not_intro small), Varint.encode_small small]
        rfl
      · have fitsHigh : (rLength >>> 7).toNat < 128 ^ (passes + 1) := by
          rw [toNat_shiftRight_seven]
          exact Varint.high_lt fits
        rw [if_neg small, if_pos small, ih _ fitsHigh, toNat_shiftRight_seven,
          Varint.encode_large small]
        rfl

theorem countRemainingLength_eq {passes : ℕ} {totalLen rLength : UInt16}
    (fits : rLength.toNat < 128 ^ (passes + 1)) :
    (countRemainingLength (passes + 1) totalLen rLength).toNat =
      (totalLen.toNat + (Varint.encode (passes + 1) rLength.toNat).length) % 65536 := by
  induction passes generalizing totalLen rLength with
  | zero =>
      have small : rLength.toNat < 128 := by simpa using fits
      have last := mt (shiftRight_seven_pos rLength).mp (not_not_intro small)
      simp only [countRemainingLength, if_neg last, Varint.encode_small small]
      rfl
  | succ passes ih =>
      rw [countRemainingLength]
      simp only [shiftRight_seven_pos]
      by_cases small : rLength.toNat < 128
      · rw [if_neg (not_not_intro small), Varint.encode_small small]
        rfl
      · have fitsHigh : (rLength >>> 7).toNat < 128 ^ (passes + 1) := by
          rw [toNat_shiftRight_seven]
          exact Varint.high_lt fits
        rw [if_pos small, ih fitsHigh, toNat_shiftRight_seven, Varint.encode_large small,
          List.length_cons, UInt16.toNat_add, UInt16.toNat_one]
        omega

theorem remainingLength_lt (rLength : UInt16) : rLength.toNat < 128 ^ 3 :=
  Nat.lt_trans rLength.toNat_lt (by decide)

/-- A packet as large as the client builds them. -/
theorem fits_of_remainingLength {body : List UInt8} {rLength : UInt16}
    (length : body.length = rLength.toNat) : body.length < 128 ^ 4 := by
  rw [length]
  exact Nat.lt_trans (remainingLength_lt rLength) (by decide)

theorem mqttOutputAppendFixedHeader_eq (rb : MqttRingbuf) (msgType fdup fqos fretain : UInt8)
    (rLength : UInt16) : mqttOutputAppendFixedHeader rb msgType fdup fqos fretain rLength =
      (fixedHeaderByte msgType fdup fqos fretain :: Varint.encode 4 rLength.toNat).foldl
        mqttRingbufPut rb := by
  rw [mqttOutputAppendFixedHeader, appendRemainingLength_eq _ (remainingLength_lt rLength),
    Varint.encode_of_lt (remainingLength_lt rLength)]
  rfl

/-- How long a message is with its fixed header. -/
def totalLength (rLength : UInt16) : ℕ :=
  1 + (Varint.encode 4 rLength.toNat).length + rLength.toNat

/-- The check compares the length of the message, which 16 bits may not hold, with the bytes
that are free. -/
theorem mqttOutputCheckSpace_iff {rb : MqttRingbuf} {rLength : UInt16} :
    mqttOutputCheckSpace rb rLength = true ↔
      totalLength rLength % 65536 + (mqttRingbufLen rb).toNat ≤ mqttOutputRingbufSize := by
  have total : (countRemainingLength 3 (1 + rLength) rLength).toNat =
      totalLength rLength % 65536 := by
    rw [countRemainingLength_eq (remainingLength_lt rLength), totalLength,
      Varint.encode_of_lt (remainingLength_lt rLength), UInt16.toNat_add, UInt16.toNat_one]
    omega
  rw [mqttOutputCheckSpace, decide_eq_true_iff, total, mqttRingbufFree]
  omega

end MqttAccelero.Mqtt
