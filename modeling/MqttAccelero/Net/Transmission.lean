import MqttAccelero.Lib.Framing
import MqttAccelero.Lib.System
import MqttAccelero.Net.Output

/-!
# The bulk IN stream

Calls of `ll_output_cb`, one at a time, on a configured device. `TxState` guards
the transmit buffer: it is 1 from the start of a transfer until the host has
taken its last packet, the zero-length one included, and the buffer is only
written while it is 0.
-/

namespace MqttAccelero.Net

open Usb UsbDevice Framing

/-- A call of `ll_output_cb` on a chain with the payloads `p`. -/
structure OutputCall where
  p : List (List UInt8)
  pc : OutputPc

structure OutputState where
  usb : UsbDevice
  call : Option OutputCall
  /-- The payloads of the finished calls and what they returned. -/
  finished : List (List UInt8 × ℤ)

inductive OutputEvent where
  | usb (event : UsbEvent)
  | call (p : List (List UInt8))
  | step

def outputSystemStep (state : OutputState) : OutputEvent → Option OutputState
  | .usb event => (usbStep state.usb event).map fun usb => { state with usb }
  | .call p =>
      match state.call with
      | some _ => none
      | none => some { state with call := some ⟨p, .loadHandle p⟩ }
  | .step =>
      match state.call with
      | none => none
      | some ⟨p, .ret err⟩ =>
          some { state with call := none, finished := state.finished ++ [(p.flatten, err)] }
      | some ⟨p, pc⟩ =>
          (outputStep state.usb pc).map fun result =>
            { state with usb := result.1, call := some ⟨p, result.2⟩ }

/-- A device which class Init has just configured. -/
def configuredDevice : UsbDevice :=
  UsbDevice.usbdCdcEcmInit
    { pClassData := none, nextId := 0, outEp := none, inEp := none, totalLength := 0
      userRxBuffer := fun _ => 0, userTxBuffer := fun _ => 0, pending := .none, inPackets := [] }
    true

def outputSystem : System OutputState OutputEvent where
  init := ⟨configuredDevice, none, []⟩
  step := outputSystemStep

/-- The class stays configured, and every call gets a frame of 1 to 1514 bytes. -/
def Sends : OutputEvent → Prop
  | .usb event => event ≠ .classDeInit
  | .call p => 1 ≤ p.flatten.length ∧ p.flatten.length ≤ cdcEcmEthMaxSegsze
  | .step => True

instance : DecidablePred Sends
  | .usb event => inferInstanceAs (Decidable (event ≠ .classDeInit))
  | .call _ => inferInstanceAs (Decidable (_ ∧ _))
  | .step => inferInstanceAs (Decidable True)

def packetsOf (frames : List (List UInt8)) : List (List UInt8) :=
  frames.flatMap (packetize cdcEcmDataFsMaxPacketSize)

def firstPackets (frame : List UInt8) (count : ℕ) : List (List UInt8) :=
  (List.range count).map (packetAt cdcEcmDataFsMaxPacketSize frame)

/-! ## The transfer in flight -/

/-- No transfer: the host has taken all packets of `frames`. -/
structure TxFree (side : TransmitSide) (frames : List (List UInt8)) (length state : ℕ) :
    Prop where
  handle : ∃ id, side.handle = some ⟨id, length, state⟩
  inEp : side.inEp = none
  sent : side.sent = packetsOf frames

/-- The transfers by which `frame`, the last of `frames`, goes to the host. -/
inductive InFlight (side : TransmitSide) : List (List UInt8) → Prop where
  /-- `index` of the packets of the data transfer have been taken. -/
  | data {front : List (List UInt8)} {frame : List UInt8} {index : ℕ}
      (inEp : side.inEp = some ⟨frame.length, index * cdcEcmDataFsMaxPacketSize, false⟩)
      (more : index * cdcEcmDataFsMaxPacketSize < frame.length)
      (total : side.totalLength = frame.length)
      (stored : Memory.load side.buffer 0 frame.length = frame)
      (sent : side.sent = packetsOf front ++ firstPackets frame index) :
      InFlight side (front ++ [frame])
  /-- All bytes have been taken; a zero-length packet is due if the last packet was full. -/
  | dataDone {front : List (List UInt8)} {frame : List UInt8} {count : ℕ}
      (inEp : side.inEp = some ⟨count, count, true⟩)
      (total : side.totalLength = frame.length) (nonempty : 0 < frame.length)
      (sent : side.sent = packetsOf front ++ if frame.length % cdcEcmDataFsMaxPacketSize = 0
        then firstPackets frame (frame.length / cdcEcmDataFsMaxPacketSize)
        else packetize cdcEcmDataFsMaxPacketSize frame) :
      InFlight side (front ++ [frame])
  | zeroLength {front : List (List UInt8)} {frame : List UInt8}
      (inEp : side.inEp = some ⟨0, 0, false⟩) (total : side.totalLength = 0)
      (multiple : frame.length % cdcEcmDataFsMaxPacketSize = 0)
      (sent : side.sent = packetsOf front ++
        firstPackets frame (frame.length / cdcEcmDataFsMaxPacketSize)) :
      InFlight side (front ++ [frame])
  | zeroLengthDone {front : List (List UInt8)} {frame : List UInt8} {count : ℕ}
      (inEp : side.inEp = some ⟨count, count, true⟩) (total : side.totalLength = 0)
      (sent : side.sent = packetsOf front ++ packetize cdcEcmDataFsMaxPacketSize frame) :
      InFlight side (front ++ [frame])

/-- Between calls: nothing in flight, or the last frame is, with `TxState` set. -/
def TxPhase (side : TransmitSide) (frames : List (List UInt8)) : Prop :=
  (∃ length, TxFree side frames length 0) ∨
    (∃ id length, side.handle = some ⟨id, length, 1⟩) ∧ InFlight side frames

theorem packetsOf_append (front : List (List UInt8)) (frame : List UInt8) :
    packetsOf (front ++ [frame]) =
      packetsOf front ++ packetize cdcEcmDataFsMaxPacketSize frame := by
  simp [packetsOf]

theorem firstPackets_succ (frame : List UInt8) (count : ℕ) :
    firstPackets frame (count + 1) =
      firstPackets frame count ++ [packetAt cdcEcmDataFsMaxPacketSize frame count] := by
  simp [firstPackets, List.range_succ]

theorem packetAt_of_multiple {frame : List UInt8}
    (multiple : frame.length % cdcEcmDataFsMaxPacketSize = 0) :
    packetAt cdcEcmDataFsMaxPacketSize frame (frame.length / cdcEcmDataFsMaxPacketSize) = [] := by
  rw [packetAt, Nat.div_mul_cancel (Nat.dvd_of_mod_eq_zero multiple), List.drop_length,
    List.take_nil]

theorem load_eq_packetAt {buffer : ℕ → UInt8} {frame : List UInt8} {index : ℕ}
    (stored : Memory.load buffer 0 frame.length = frame)
    (inside : index * cdcEcmDataFsMaxPacketSize ≤ frame.length) :
    Memory.load buffer (index * cdcEcmDataFsMaxPacketSize)
        (min cdcEcmDataFsMaxPacketSize (frame.length - index * cdcEcmDataFsMaxPacketSize)) =
      packetAt cdcEcmDataFsMaxPacketSize frame index := by
  have block := Memory.take_drop_load buffer 0 frame.length (index * cdcEcmDataFsMaxPacketSize)
    (min cdcEcmDataFsMaxPacketSize (frame.length - index * cdcEcmDataFsMaxPacketSize)) (by omega)
  rw [stored, Nat.zero_add] at block
  rw [← block, packetAt, ← List.length_drop, ← List.take_eq_take_min]

theorem firstPackets_of_last {frame : List UInt8} {index : ℕ}
    (more : index * cdcEcmDataFsMaxPacketSize < frame.length)
    (last : frame.length ≤ (index + 1) * cdcEcmDataFsMaxPacketSize) :
    firstPackets frame (index + 1) =
      if frame.length % cdcEcmDataFsMaxPacketSize = 0 then
        firstPackets frame (frame.length / cdcEcmDataFsMaxPacketSize)
      else packetize cdcEcmDataFsMaxPacketSize frame := by
  by_cases multiple : frame.length % cdcEcmDataFsMaxPacketSize = 0
  · have count : index + 1 = frame.length / cdcEcmDataFsMaxPacketSize := by
      simp only [cdcEcmDataFsMaxPacketSize] at *
      omega
    rw [if_pos multiple, count]
  · have count : index = frame.length / cdcEcmDataFsMaxPacketSize := by
      simp only [cdcEcmDataFsMaxPacketSize] at *
      omega
    rw [if_neg multiple, count]
    rfl

theorem InFlight.inPacket {usb next : UsbDevice} {frames : List (List UInt8)}
    (flight : InFlight usb.transmitSide frames)
    (stepped : usbStep usb .inPacket = some next) : InFlight next.transmitSide frames := by
  rcases usbStep_inPacket stepped with ⟨transfer, started, unfinished, shape⟩
  cases flight with
  | @data front frame index inEp more total stored sent =>
      have same : transfer = ⟨frame.length, index * cdcEcmDataFsMaxPacketSize, false⟩ :=
        Option.some.inj (started.symm.trans inEp)
      subst same
      have packet : usb.inPacket ⟨frame.length, index * cdcEcmDataFsMaxPacketSize, false⟩ =
          packetAt cdcEcmDataFsMaxPacketSize frame index := load_eq_packetAt stored (Nat.le_of_lt more)
      have sentNext : usb.inPackets ++ [packetAt cdcEcmDataFsMaxPacketSize frame index] =
          packetsOf front ++ firstPackets frame (index + 1) := by
        rw [firstPackets_succ, ← List.append_assoc]
        exact congrArg (· ++ _) sent
      rw [packet, length_packetAt, sentNext] at shape
      dsimp only at shape
      by_cases last : frame.length ≤ (index + 1) * cdcEcmDataFsMaxPacketSize
      · have count : index * cdcEcmDataFsMaxPacketSize + min cdcEcmDataFsMaxPacketSize
            (frame.length - index * cdcEcmDataFsMaxPacketSize) = frame.length := by
          simp only [cdcEcmDataFsMaxPacketSize] at *
          omega
        rw [count, decide_eq_true rfl] at shape
        rw [shape]
        refine .dataDone rfl total (Nat.zero_lt_of_lt more) ?_
        rw [firstPackets_of_last more last]
      · have count : index * cdcEcmDataFsMaxPacketSize + min cdcEcmDataFsMaxPacketSize
            (frame.length - index * cdcEcmDataFsMaxPacketSize) =
              (index + 1) * cdcEcmDataFsMaxPacketSize := by
          simp only [cdcEcmDataFsMaxPacketSize] at *
          omega
        have unfinished : decide ((index + 1) * cdcEcmDataFsMaxPacketSize = frame.length) = false := by
          simp only [decide_eq_false_iff_not]
          omega
        rw [count, unfinished] at shape
        rw [shape]
        exact .data rfl (by omega) total stored rfl
  | @dataDone front frame count inEp total nonempty sent =>
      have same : transfer = ⟨count, count, true⟩ := Option.some.inj (started.symm.trans inEp)
      subst same
      cases unfinished
  | @zeroLength front frame inEp total multiple sent =>
      have same : transfer = ⟨0, 0, false⟩ := Option.some.inj (started.symm.trans inEp)
      subst same
      have packet : usb.inPacket ⟨0, 0, false⟩ = [] := rfl
      rw [packet] at shape
      rw [shape]
      refine .zeroLengthDone rfl total ?_
      change usb.inPackets ++ [[]] = _
      rw [packetize_eq_append_last, packetAt_of_multiple multiple, ← List.append_assoc]
      exact congrArg (· ++ _) sent
  | @zeroLengthDone front frame count inEp total sent =>
      have same : transfer = ⟨count, count, true⟩ := Option.some.inj (started.symm.trans inEp)
      subst same
      cases unfinished

theorem InFlight.dataIn {usb next : UsbDevice} {frames : List (List UInt8)} {id length : ℕ}
    (flight : InFlight usb.transmitSide frames)
    (handle : usb.transmitSide.handle = some ⟨id, length, 1⟩)
    (stepped : usbStep usb .dataIn = some next) : TxPhase next.transmitSide frames := by
  rcases usbStep_dataIn stepped handle with ⟨transfer, started, finished, shape⟩
  cases flight with
  | data inEp =>
      have same := Option.some.inj (started.symm.trans inEp)
      subst same
      cases finished
  | @dataDone front frame count inEp total nonempty sent =>
      change usb.totalLength = frame.length at total
      rw [total] at shape
      by_cases multiple : frame.length % cdcEcmDataFsMaxPacketSize = 0
      · rw [if_pos multiple] at sent
        rw [if_pos ⟨nonempty, multiple⟩] at shape
        right
        rw [shape]
        exact ⟨⟨id, length, handle⟩, .zeroLength rfl rfl multiple sent⟩
      · rw [if_neg multiple] at sent
        rw [if_neg fun both => multiple both.2] at shape
        left
        rw [shape]
        exact ⟨length, ⟨id, rfl⟩, rfl, sent.trans (packetsOf_append front frame).symm⟩
  | zeroLength inEp =>
      have same := Option.some.inj (started.symm.trans inEp)
      subst same
      cases finished
  | @zeroLengthDone front frame count inEp total sent =>
      change usb.totalLength = 0 at total
      rw [total, if_neg fun both => absurd both.1 (Nat.lt_irrefl 0)] at shape
      left
      rw [shape]
      exact ⟨length, ⟨id, rfl⟩, rfl, sent.trans (packetsOf_append front frame).symm⟩

theorem installed_of_transmitHandle {usb : UsbDevice} {hcdc : TransmitHandle}
    (handle : usb.transmitSide.handle = some hcdc) : usb.installed ≠ none := by
  rw [installed_eq_transmitSide, TransmitSide.installed, handle]
  exact Option.some_ne_none _

theorem TxFree.idle {usb next : UsbDevice} {frames : List (List UInt8)} {length state : ℕ}
    (free : TxFree usb.transmitSide frames length state) {event : UsbEvent}
    (stepped : usbStep usb event = some next) (stays : event ≠ .classDeInit) :
    next.transmitSide = usb.transmitSide := by
  have nothing : usb.inEp = none := free.inEp
  rcases free.handle with ⟨id, handle⟩
  have present := installed_of_transmitHandle handle
  rcases usbStep_transmitSide stepped present stays with same | rfl | rfl
  · exact same
  · rcases usbStep_inPacket stepped with ⟨transfer, started, -⟩
    rw [nothing] at started
    cases started
  · rcases usbStep_dataIn stepped handle with ⟨transfer, started, -⟩
    rw [nothing] at started
    cases started

theorem TxPhase.usb_step {usb next : UsbDevice} {frames : List (List UInt8)} {event : UsbEvent}
    (phase : TxPhase usb.transmitSide frames) (stepped : usbStep usb event = some next)
    (stays : event ≠ .classDeInit) : TxPhase next.transmitSide frames := by
  rcases phase with ⟨length, free⟩ | ⟨⟨id, length, handle⟩, flight⟩
  · left
    rw [free.idle stepped stays]
    exact ⟨length, free⟩
  · have present := installed_of_transmitHandle handle
    rcases usbStep_transmitSide stepped present stays with same | rfl | rfl
    · rw [same]
      exact Or.inr ⟨⟨id, length, handle⟩, flight⟩
    · rcases usbStep_inPacket stepped with ⟨transfer, -, -, shape⟩
      right
      refine ⟨⟨id, length, ?_⟩, flight.inPacket stepped⟩
      rw [shape]
      exact handle
    · exact flight.dataIn handle stepped

/-! ## A call -/

/-- The transmitter is free, and the buffer starts with `copied`. -/
structure Filling (side : TransmitSide) (frames : List (List UInt8)) (copied : List UInt8)
    (length state : ℕ) : Prop where
  free : TxFree side frames length state
  holds : Memory.load side.buffer 0 copied.length = copied

/-- What holds at each statement of a call, `frames` being the frames accepted before it. -/
def CallAt (side : TransmitSide) (frames : List (List UInt8)) (p : List (List UInt8)) :
    OutputPc → Prop
  | .loadHandle q => q = p ∧ TxPhase side frames
  | .loadTxBuffer hcdc q | .busyWait hcdc _ q =>
      q = p ∧ hcdc = side.installed ∧ TxPhase side frames
  | .clearTxLength hcdc q => q = p ∧ hcdc = side.installed ∧ ∃ length, TxFree side frames length 0
  | .copySegment hcdc pdata rest => hcdc = side.installed ∧ ∃ copied,
      Filling side frames copied pdata 0 ∧ copied.length = pdata ∧
        copied ++ rest.flatten = p.flatten
  | .addTxLength hcdc pdata len rest => hcdc = side.installed ∧ ∃ copied length,
      Filling side frames copied length 0 ∧ length + len = pdata ∧ copied.length = pdata ∧
        copied ++ rest.flatten = p.flatten
  | .readTxLength hcdc | .testHandle hcdc | .testTxState hcdc | .setTxState hcdc =>
      hcdc = side.installed ∧ Filling side frames p.flatten p.flatten.length 0
  | .setTxBuffer length =>
      length = p.flatten.length ∧ Filling side frames p.flatten p.flatten.length 0
  | .storeTxLength hcdc length => hcdc = side.installed ∧ length = p.flatten.length ∧
      Filling side frames p.flatten p.flatten.length 0
  | .transmitPacket => Filling side frames p.flatten p.flatten.length 0
  | .setTotalLength hcdc | .llTransmit hcdc =>
      hcdc = side.installed ∧ Filling side frames p.flatten p.flatten.length 1
  | .ret err => (err = errOk ∧ TxPhase side (frames ++ [p.flatten])) ∨
      (err = errUse ∧ TxPhase side frames)
  | .fault => False

/-- The call has begun to write the buffer or the transfer fields. -/
def OutputPc.commits : OutputPc → Bool
  | .loadHandle _ | .loadTxBuffer _ _ | .busyWait _ _ _ | .ret _ | .fault => false
  | _ => true

theorem TxPhase.present {side : TransmitSide} {frames : List (List UInt8)}
    (phase : TxPhase side frames) : ∃ hcdc, side.handle = some hcdc := by
  rcases phase with ⟨length, ⟨id, handle⟩, -, -⟩ | ⟨⟨id, length, handle⟩, -⟩
  · exact ⟨_, handle⟩
  · exact ⟨_, handle⟩

/-- From the first write on, nothing is in flight until the call starts its own transfer. -/
theorem CallAt.txFree {side : TransmitSide} {frames p : List (List UInt8)} {pc : OutputPc}
    (call : CallAt side frames p pc) (commits : pc.commits = true) :
    ∃ length state, TxFree side frames length state := by
  cases pc with
  | loadHandle _ | loadTxBuffer _ _ | busyWait _ _ _ | ret _ | fault => cases commits
  | clearTxLength hcdc q =>
      rcases call.2.2 with ⟨length, free⟩
      exact ⟨length, 0, free⟩
  | copySegment hcdc pdata rest =>
      rcases call.2 with ⟨copied, filling, -⟩
      exact ⟨_, _, filling.free⟩
  | addTxLength hcdc pdata len rest =>
      rcases call.2 with ⟨copied, length, filling, -⟩
      exact ⟨_, _, filling.free⟩
  | storeTxLength hcdc length => exact ⟨_, _, call.2.2.free⟩
  | transmitPacket =>
      have filling : Filling side frames p.flatten p.flatten.length 0 := call
      exact ⟨_, _, filling.free⟩
  | _ => exact ⟨_, _, call.2.free⟩

theorem TxPhase.installed_usbStep {usb next : UsbDevice} {frames : List (List UInt8)}
    {event : UsbEvent} (phase : TxPhase usb.transmitSide frames)
    (stepped : usbStep usb event = some next) (stays : event ≠ .classDeInit) :
    next.transmitSide.installed = usb.transmitSide.installed := by
  rcases phase.present with ⟨hcdc, handle⟩
  have same := installed_of_usbStep stepped (installed_of_transmitHandle handle) stays
  rw [installed_eq_transmitSide, installed_eq_transmitSide] at same
  exact same

theorem CallAt.usb_step {usb next : UsbDevice} {frames p : List (List UInt8)} {pc : OutputPc}
    {event : UsbEvent} (call : CallAt usb.transmitSide frames p pc)
    (stepped : usbStep usb event = some next) (stays : event ≠ .classDeInit) :
    CallAt next.transmitSide frames p pc := by
  cases pc with
  | loadHandle q => exact ⟨call.1, call.2.usb_step stepped stays⟩
  | loadTxBuffer hcdc q | busyWait hcdc tries q =>
      rcases call with ⟨same, current, phase⟩
      have stillCurrent := current.trans (phase.installed_usbStep stepped stays).symm
      exact ⟨same, stillCurrent, phase.usb_step stepped stays⟩
  | ret err =>
      rcases call with ⟨ok, phase⟩ | ⟨use, phase⟩
      · exact Or.inl ⟨ok, phase.usb_step stepped stays⟩
      · exact Or.inr ⟨use, phase.usb_step stepped stays⟩
  | fault => cases call
  | _ =>
      rcases call.txFree rfl with ⟨length, state, free⟩
      rw [free.idle stepped stays]
      exact call

theorem withTxHandle_of_transmit {usb : UsbDevice} {pointer : Option HandleId}
    {seen : TransmitHandle} (handle : usb.transmitSide.handle = some seen)
    (current : pointer = usb.transmitSide.installed) (next : ClassHandle → UsbDevice × OutputPc) :
    ∃ hcdc : ClassHandle, hcdc.transmit = seen ∧ withTxHandle usb pointer next = next hcdc := by
  rcases Option.map_eq_some_iff.mp handle with ⟨hcdc, present, same⟩
  refine ⟨hcdc, same, withTxHandle_of_installed present ?_ next⟩
  rw [current, installed_eq_transmitSide]

/-- Through a current pointer a call reads the fields which the free transmitter has. -/
theorem TxFree.through {usb : UsbDevice} {frames : List (List UInt8)} {length state : ℕ}
    (free : TxFree usb.transmitSide frames length state) {pointer : Option HandleId}
    (current : pointer = usb.transmitSide.installed) (next : ClassHandle → UsbDevice × OutputPc) :
    ∃ hcdc : ClassHandle, hcdc.txLength = length ∧ hcdc.txState = state ∧
      withTxHandle usb pointer next = next hcdc := by
  rcases free.handle with ⟨id, handle⟩
  rcases withTxHandle_of_transmit handle current next with ⟨hcdc, seen, through⟩
  exact ⟨hcdc, congrArg TransmitHandle.txLength seen, congrArg TransmitHandle.txState seen, through⟩

/-- Writing the transmit fields leaves the transmitter free and the handle installed. -/
theorem TxFree.update {usb : UsbDevice} {frames : List (List UInt8)} {length state : ℕ}
    (free : TxFree usb.transmitSide frames length state) (update : ClassHandle → ClassHandle)
    (seen : TransmitHandle → TransmitHandle)
    (same : ∀ full, (update full).transmit = seen full.transmit) {newLength newState : ℕ}
    (wrote : ∀ id, seen ⟨id, length, state⟩ = ⟨id, newLength, newState⟩) :
    TxFree (usb.updateHandle update).transmitSide frames newLength newState ∧
      (usb.updateHandle update).transmitSide.installed = usb.transmitSide.installed := by
  rcases free.handle with ⟨id, handle⟩
  have written : (usb.updateHandle update).transmitSide.handle = some ⟨id, newLength, newState⟩ := by
    rcases Option.map_eq_some_iff.mp handle with ⟨full, present, fields⟩
    simp [transmitSide, updateHandle, present, same, fields, wrote]
  refine ⟨⟨⟨id, written⟩, free.inEp, free.sent⟩, ?_⟩
  rw [TransmitSide.installed, written, TransmitSide.installed, handle]
  rfl

theorem CallAt.busyWait_step {usb next : UsbDevice} {frames p q : List (List UInt8)}
    {after : OutputPc} {pointer : Option HandleId} {tries : ℕ}
    (call : CallAt usb.transmitSide frames p (.busyWait pointer tries q))
    (stepped : outputStep usb (.busyWait pointer tries q) = some (next, after)) :
    CallAt next.transmitSide frames p after := by
  simp only [outputStep, Option.some.injEq] at stepped
  rcases call with ⟨same, current, phase⟩
  rcases phase.present with ⟨hcdc, handle⟩
  rcases withTxHandle_of_transmit handle current _ with ⟨full, seen, through⟩
  rw [through] at stepped
  split at stepped
  · cases stepped
    exact ⟨same, current, phase⟩
  · rename_i leaves
    split at stepped
    · cases stepped
      exact Or.inr ⟨rfl, phase⟩
    · rename_i triesLeft
      cases stepped
      have idle : full.txState = 0 := by
        by_contra busy
        exact leaves ⟨busy, Nat.pos_of_ne_zero triesLeft⟩
      refine ⟨same, current, ?_⟩
      rcases phase with free | ⟨⟨id, length, busy⟩, -⟩
      · exact free
      · rw [handle, ← seen] at busy
        have stateBusy : full.txState = 1 := congrArg TransmitHandle.txState (Option.some.inj busy)
        rw [idle] at stateBusy
        cases stateBusy

theorem CallAt.copySegment_step {usb next : UsbDevice} {frames p rest : List (List UInt8)}
    {after : OutputPc} {pointer : Option HandleId} {pdata : ℕ}
    (call : CallAt usb.transmitSide frames p (.copySegment pointer pdata rest))
    (stepped : outputStep usb (.copySegment pointer pdata rest) = some (next, after)) :
    CallAt next.transmitSide frames p after := by
  rcases call with ⟨current, copied, filling, rfl, whole⟩
  cases rest with
  | nil =>
      simp only [outputStep, Option.some.injEq, Prod.mk.injEq] at stepped
      rcases stepped with ⟨rfl, rfl⟩
      have all : copied = p.flatten := by simpa using whole
      subst all
      exact ⟨current, filling⟩
  | cons curr rest =>
      simp only [outputStep, Option.some.injEq, Prod.mk.injEq] at stepped
      rcases stepped with ⟨rfl, rfl⟩
      have free := filling.free
      refine ⟨current, copied ++ curr, copied.length,
        ⟨⟨free.handle, free.inEp, free.sent⟩, ?_⟩, rfl, List.length_append, ?_⟩
      · have appended := Memory.load_store_append usb.userTxBuffer 0 copied.length curr
        rw [Nat.zero_add] at appended
        rw [List.length_append]
        exact appended.trans (congrArg (· ++ curr) filling.holds)
      · rw [← whole, List.flatten_cons, List.append_assoc]

theorem CallAt.llTransmit_step {usb next : UsbDevice} {frames p : List (List UInt8)}
    {after : OutputPc} {pointer : Option HandleId}
    (call : CallAt usb.transmitSide frames p (.llTransmit pointer))
    (nonempty : 1 ≤ p.flatten.length)
    (stepped : outputStep usb (.llTransmit pointer) = some (next, after)) :
    CallAt next.transmitSide frames p after := by
  simp only [outputStep, Option.some.injEq] at stepped
  rcases call with ⟨current, filling⟩
  rcases filling.free.through current _ with ⟨hcdc, length, -, through⟩
  rw [through, length] at stepped
  cases stepped
  rcases filling.free.handle with ⟨id, handle⟩
  refine Or.inl ⟨rfl, Or.inr ⟨⟨id, _, handle⟩, ?_⟩⟩
  have started : (usb.usbdLlTransmit p.flatten.length).transmitSide.inEp =
      some ⟨p.flatten.length, 0 * cdcEcmDataFsMaxPacketSize, false⟩ := by
    rw [Nat.zero_mul]
    rfl
  refine .data started ?_ rfl filling.holds ?_
  · rw [Nat.zero_mul]
    exact nonempty
  · exact filling.free.sent.trans (List.append_nil _).symm

theorem CallAt.step {usb next : UsbDevice} {frames p : List (List UInt8)} {pc after : OutputPc}
    (call : CallAt usb.transmitSide frames p pc) (nonempty : 1 ≤ p.flatten.length)
    (small : p.flatten.length ≤ cdcEcmEthMaxSegsze)
    (stepped : outputStep usb pc = some (next, after)) :
    CallAt next.transmitSide frames p after := by
  cases pc with
  | loadHandle q =>
      simp only [outputStep, Option.some.injEq, Prod.mk.injEq] at stepped
      rcases stepped with ⟨rfl, rfl⟩
      exact ⟨call.1, installed_eq_transmitSide usb, call.2⟩
  | loadTxBuffer pointer q =>
      simp only [outputStep, Option.some.injEq] at stepped
      rcases call.2.2.present with ⟨hcdc, handle⟩
      rcases withTxHandle_of_transmit handle call.2.1 _ with ⟨full, -, through⟩
      rw [through] at stepped
      cases stepped
      exact call
  | busyWait pointer tries q => exact call.busyWait_step stepped
  | clearTxLength pointer q =>
      simp only [outputStep, Option.some.injEq] at stepped
      rcases call with ⟨rfl, current, length, free⟩
      rcases free.through current _ with ⟨hcdc, -, -, through⟩
      rw [through] at stepped
      cases stepped
      have cleared := free.update (fun hcdc => { hcdc with txLength := 0 })
        (fun hcdc => { hcdc with txLength := 0 }) (fun _ => rfl) (fun _ => rfl)
      exact ⟨current.trans cleared.2.symm, [], ⟨cleared.1, rfl⟩, rfl, rfl⟩
  | copySegment pointer pdata rest => exact call.copySegment_step stepped
  | addTxLength pointer pdata len rest =>
      simp only [outputStep, Option.some.injEq] at stepped
      rcases call with ⟨current, copied, length, filling, rfl, lengthCopied, whole⟩
      rcases filling.free.through current _ with ⟨hcdc, -, -, through⟩
      rw [through] at stepped
      cases stepped
      have added := filling.free.update (fun hcdc => { hcdc with txLength := hcdc.txLength + len })
        (fun hcdc => { hcdc with txLength := hcdc.txLength + len }) (fun _ => rfl)
        (fun id => show _ = TransmitHandle.mk id (length + len) 0 from rfl)
      exact ⟨current.trans added.2.symm, copied, ⟨added.1, filling.holds⟩, lengthCopied, whole⟩
  | readTxLength pointer =>
      simp only [outputStep, Option.some.injEq] at stepped
      rcases call with ⟨current, filling⟩
      rcases filling.free.through current _ with ⟨hcdc, length, -, through⟩
      rw [through, length] at stepped
      cases stepped
      refine ⟨?_, filling⟩
      apply Nat.mod_eq_of_lt
      simp only [cdcEcmEthMaxSegsze] at small
      omega
  | setTxBuffer length =>
      simp only [outputStep, Option.some.injEq, Prod.mk.injEq] at stepped
      rcases stepped with ⟨rfl, rfl⟩
      exact ⟨installed_eq_transmitSide usb, call⟩
  | storeTxLength pointer length =>
      simp only [outputStep, Option.some.injEq] at stepped
      rcases call with ⟨current, rfl, filling⟩
      rcases filling.free.through current _ with ⟨hcdc, -, -, through⟩
      rw [through] at stepped
      cases stepped
      have stored := filling.free.update (fun hcdc => { hcdc with txLength := p.flatten.length })
        (fun hcdc => { hcdc with txLength := p.flatten.length }) (fun _ => rfl) (fun _ => rfl)
      exact ⟨stored.1, filling.holds⟩
  | transmitPacket =>
      simp only [outputStep, Option.some.injEq, Prod.mk.injEq] at stepped
      rcases stepped with ⟨rfl, rfl⟩
      exact ⟨installed_eq_transmitSide usb, call⟩
  | testHandle pointer =>
      rcases call with ⟨current, filling⟩
      rcases filling.free.handle with ⟨id, handle⟩
      have present := installed_of_transmitHandle handle
      simp only [outputStep, if_neg present, Option.some.injEq, Prod.mk.injEq] at stepped
      rcases stepped with ⟨rfl, rfl⟩
      exact ⟨current, filling⟩
  | testTxState pointer =>
      simp only [outputStep, Option.some.injEq] at stepped
      rcases call with ⟨current, filling⟩
      rcases filling.free.through current _ with ⟨hcdc, -, idle, through⟩
      rw [through, if_pos idle] at stepped
      cases stepped
      exact ⟨current, filling⟩
  | setTxState pointer =>
      simp only [outputStep, Option.some.injEq] at stepped
      rcases call with ⟨current, filling⟩
      rcases filling.free.through current _ with ⟨hcdc, -, -, through⟩
      rw [through] at stepped
      cases stepped
      have taken := filling.free.update (fun hcdc => { hcdc with txState := 1 })
        (fun hcdc => { hcdc with txState := 1 }) (fun _ => rfl) (fun _ => rfl)
      exact ⟨current.trans taken.2.symm, taken.1, filling.holds⟩
  | setTotalLength pointer =>
      simp only [outputStep, Option.some.injEq] at stepped
      rcases call with ⟨current, filling⟩
      rcases filling.free.through current _ with ⟨hcdc, -, -, through⟩
      rw [through] at stepped
      cases stepped
      exact ⟨current, ⟨filling.free.handle, filling.free.inEp, filling.free.sent⟩, filling.holds⟩
  | llTransmit pointer => exact call.llTransmit_step nonempty stepped
  | ret err | fault => cases stepped

theorem outputStep_of_not_commits {usb next : UsbDevice} {pc after : OutputPc}
    (stepped : outputStep usb pc = some (next, after)) (waits : pc.commits = false) :
    next = usb := by
  cases pc with
  | loadHandle q =>
      cases stepped
      rfl
  | loadTxBuffer pointer q =>
      simp only [outputStep, Option.some.injEq] at stepped
      rcases withTxHandle_cases usb pointer _ with ⟨hcdc, -, -, through⟩ | ⟨-, faulted⟩
      · rw [through] at stepped
        cases stepped
        rfl
      · rw [faulted] at stepped
        cases stepped
        rfl
  | busyWait pointer tries q =>
      simp only [outputStep, Option.some.injEq] at stepped
      rcases withTxHandle_cases usb pointer _ with ⟨hcdc, -, -, through⟩ | ⟨-, faulted⟩
      · rw [through] at stepped
        split at stepped
        · cases stepped
          rfl
        · split at stepped
          · cases stepped
            rfl
          · cases stepped
            rfl
      · rw [faulted] at stepped
        cases stepped
        rfl
  | ret err | fault => cases stepped
  | _ => cases waits

theorem CallAt.commits_step {usb next : UsbDevice} {frames p : List (List UInt8)}
    {pc after : OutputPc} (call : CallAt usb.transmitSide frames p pc)
    (nonempty : 1 ≤ p.flatten.length) (small : p.flatten.length ≤ cdcEcmEthMaxSegsze)
    (stepped : outputStep usb pc = some (next, after)) (commits : pc.commits = true) :
    after.commits = true ∨ after = .ret errOk := by
  have running : after ≠ .fault := by
    rintro rfl
    exact call.step nonempty small stepped
  cases pc with
  | loadHandle q | loadTxBuffer pointer q | busyWait pointer tries q | ret err | fault =>
      cases commits
  | copySegment pointer pdata rest =>
      cases rest with
      | nil =>
          cases stepped
          exact Or.inl rfl
      | cons curr rest =>
          cases stepped
          exact Or.inl rfl
  | setTxBuffer length | transmitPacket =>
      cases stepped
      exact Or.inl rfl
  | testHandle pointer =>
      rcases call.2.free.handle with ⟨id, handle⟩
      have present := installed_of_transmitHandle handle
      simp only [outputStep, if_neg present, Option.some.injEq, Prod.mk.injEq] at stepped
      rw [← stepped.2]
      exact Or.inl rfl
  | testTxState pointer =>
      simp only [outputStep, Option.some.injEq] at stepped
      rcases call.2.free.through call.1 _ with ⟨hcdc, -, idle, through⟩
      rw [through, if_pos idle] at stepped
      cases stepped
      exact Or.inl rfl
  | clearTxLength pointer _ | addTxLength pointer _ _ _ | readTxLength pointer
  | storeTxLength pointer _ | setTxState pointer | setTotalLength pointer =>
      simp only [outputStep, Option.some.injEq] at stepped
      rcases withTxHandle_cases usb pointer _ with ⟨hcdc, -, -, through⟩ | ⟨-, faulted⟩
      · rw [through] at stepped
        cases stepped
        exact Or.inl rfl
      · rw [faulted] at stepped
        cases stepped
        exact absurd rfl running
  | llTransmit pointer =>
      simp only [outputStep, Option.some.injEq] at stepped
      rcases withTxHandle_cases usb pointer _ with ⟨hcdc, -, -, through⟩ | ⟨-, faulted⟩
      · rw [through] at stepped
        cases stepped
        exact Or.inr rfl
      · rw [faulted] at stepped
        cases stepped
        exact absurd rfl running

/-! ## Runs -/

/-- The frames of the calls which returned `ERR_OK`, in order. -/
def acceptedFrames (finished : List (List UInt8 × ℤ)) : List (List UInt8) :=
  (finished.filter fun call => call.2 = errOk).map Prod.fst

/-- What holds between calls and during one. -/
def Sending (state : OutputState) : Prop :=
  match state.call with
  | none => TxPhase state.usb.transmitSide (acceptedFrames state.finished)
  | some ⟨p, pc⟩ => CallAt state.usb.transmitSide (acceptedFrames state.finished) p pc ∧
      1 ≤ p.flatten.length ∧ p.flatten.length ≤ cdcEcmEthMaxSegsze

theorem Sending.init : Sending outputSystem.init :=
  Or.inl ⟨0, ⟨0, rfl⟩, rfl, rfl⟩

theorem acceptedFrames_append (finished : List (List UInt8 × ℤ)) (frame : List UInt8) (err : ℤ) :
    acceptedFrames (finished ++ [(frame, err)]) =
      acceptedFrames finished ++ if err = errOk then [frame] else [] := by
  by_cases ok : err = errOk
  · simp [acceptedFrames, ok]
  · simp [acceptedFrames, ok]

theorem outputSystemStep_cases {state next : OutputState}
    (stepped : outputSystemStep state .step = some next) :
    ∃ p pc, state.call = some ⟨p, pc⟩ ∧
      ((∃ err, pc = .ret err ∧
          next = { state with call := none, finished := state.finished ++ [(p.flatten, err)] }) ∨
        ∃ usb after, outputStep state.usb pc = some (usb, after) ∧
          next = { state with usb := usb, call := some ⟨p, after⟩ }) := by
  rcases state with ⟨usb, call, finished⟩
  cases call with
  | none => cases stepped
  | some call =>
      rcases call with ⟨p, pc⟩
      refine ⟨p, pc, rfl, ?_⟩
      by_cases returned : ∃ err, pc = .ret err
      · rcases returned with ⟨err, rfl⟩
        cases stepped
        exact Or.inl ⟨err, rfl, rfl⟩
      · right
        have moves : (outputStep usb pc).map (fun result =>
            (⟨result.1, some ⟨p, result.2⟩, finished⟩ : OutputState)) = some next := by
          cases pc with
          | ret err => exact absurd ⟨err, rfl⟩ returned
          | _ => exact stepped
        rcases Option.map_eq_some_iff.mp moves with ⟨⟨usbNext, after⟩, moved, rfl⟩
        exact ⟨usbNext, after, moved, rfl⟩

theorem Sending.step {state next : OutputState} {event : OutputEvent} (sending : Sending state)
    (sends : Sends event) (stepped : outputSystemStep state event = some next) : Sending next := by
  rcases state with ⟨usb, call, finished⟩
  cases event with
  | usb usbEvent =>
      rcases Option.map_eq_some_iff.mp stepped with ⟨usbNext, steppedUsb, rfl⟩
      cases call with
      | none => exact TxPhase.usb_step sending steppedUsb sends
      | some call => exact ⟨sending.1.usb_step steppedUsb sends, sending.2⟩
  | call p =>
      cases call with
      | none =>
          cases stepped
          exact ⟨⟨rfl, sending⟩, sends⟩
      | some call => cases stepped
  | step =>
      rcases outputSystemStep_cases stepped with
        ⟨p, pc, rfl, ⟨err, rfl, rfl⟩ | ⟨usbNext, after, moved, rfl⟩⟩
      · change TxPhase _ (acceptedFrames (finished ++ [(p.flatten, err)]))
        rw [acceptedFrames_append]
        rcases sending.1 with ⟨rfl, phase⟩ | ⟨rfl, phase⟩
        · exact phase
        · rw [if_neg (by decide), List.append_nil]
          exact phase
      · exact ⟨sending.1.step sending.2.1 sending.2.2 moved, sending.2⟩

theorem Sending.of_run {events : List OutputEvent} {state : OutputState}
    (ran : outputSystem.run events = some state) (sends : ∀ event ∈ events, Sends event) :
    Sending state := by
  refine System.invariant_along Sending ?_ Sending.init ran (System.along_of_forall _ sends)
  intro current event next sending sent stepped
  exact sending.step sent stepped

/-! ## The stream -/

/-- The packets the host has taken carry `frames` and nothing else. -/
structure CarriesFrames (side : TransmitSide) (frames : List (List UInt8)) : Prop where
  packets : side.sent <+: packetsOf frames
  split : (reassemble (endsAtShort cdcEcmDataFsMaxPacketSize) [] side.sent).1 <+: frames
  all : side.inEp = none → side.sent = packetsOf frames ∧
    reassemble (endsAtShort cdcEcmDataFsMaxPacketSize) [] side.sent = (frames, [])

theorem reassemble_packetsOf (frames : List (List UInt8)) :
    reassemble (endsAtShort cdcEcmDataFsMaxPacketSize) [] (packetsOf frames) = (frames, []) := by
  apply reassemble_flatMap_packetize (by decide)
  · intro total length short
    exact endsAtShort_of_lt short
  · intro frame _ index _
    exact endsAtShort_full _ _

theorem carriesFrames_of_prefix {side : TransmitSide} {frames : List (List UInt8)}
    (packets : side.sent <+: packetsOf frames)
    (all : side.inEp = none → side.sent = packetsOf frames) : CarriesFrames side frames := by
  refine ⟨packets, ?_, fun free => ⟨all free, ?_⟩⟩
  · have initial := reassemble_initial (endsAtShort cdcEcmDataFsMaxPacketSize) [] packets
    rw [reassemble_packetsOf] at initial
    exact initial
  · rw [all free, reassemble_packetsOf]

theorem firstPackets_initial {frame : List UInt8} {count : ℕ}
    (few : count ≤ frame.length / cdcEcmDataFsMaxPacketSize + 1) :
    firstPackets frame count <+: packetize cdcEcmDataFsMaxPacketSize frame := by
  rcases Nat.exists_eq_add_of_le few with ⟨more, sum⟩
  rw [firstPackets, packetize, sum, List.range_add, List.map_append]
  exact List.prefix_append _ _

theorem TxFree.carriesFrames {side : TransmitSide} {frames : List (List UInt8)}
    {length state : ℕ} (free : TxFree side frames length state) : CarriesFrames side frames :=
  carriesFrames_of_prefix (free.sent ▸ List.prefix_rfl) fun _ => free.sent

theorem InFlight.carriesFrames {side : TransmitSide} {frames : List (List UInt8)}
    (flight : InFlight side frames) : CarriesFrames side frames := by
  have begun : ∀ {front : List (List UInt8)} {frame : List UInt8} {packets : List (List UInt8)},
      packets <+: packetize cdcEcmDataFsMaxPacketSize frame →
      packetsOf front ++ packets <+: packetsOf (front ++ [frame]) := by
    intro front frame packets initial
    rw [packetsOf_append]
    exact (List.prefix_append_right_inj _).mpr initial
  cases flight with
  | @data front frame index inEp more total stored sent =>
      refine carriesFrames_of_prefix ?_ fun free => ?_
      · rw [sent]
        refine begun (firstPackets_initial ?_)
        have whole : index ≤ frame.length / cdcEcmDataFsMaxPacketSize :=
          (Nat.le_div_iff_mul_le (by decide)).mpr (Nat.le_of_lt more)
        omega
      · rw [inEp] at free
        cases free
  | dataDone inEp total nonempty sent =>
      refine carriesFrames_of_prefix ?_ fun free => ?_
      · rw [sent]
        apply begun
        split
        · exact firstPackets_initial (Nat.le_succ _)
        · exact List.prefix_rfl
      · rw [inEp] at free
        cases free
  | zeroLength inEp total multiple sent =>
      refine carriesFrames_of_prefix ?_ fun free => ?_
      · rw [sent]
        exact begun (firstPackets_initial (Nat.le_succ _))
      · rw [inEp] at free
        cases free
  | zeroLengthDone inEp total sent =>
      refine carriesFrames_of_prefix ?_ fun free => ?_
      · rw [sent]
        exact begun List.prefix_rfl
      · rw [inEp] at free
        cases free

theorem TxPhase.carriesFrames {side : TransmitSide} {frames : List (List UInt8)}
    (phase : TxPhase side frames) : CarriesFrames side frames := by
  rcases phase with ⟨length, free⟩ | ⟨-, flight⟩
  · exact free.carriesFrames
  · exact flight.carriesFrames

/-- The frames accepted so far, with that of a call which is just returning `ERR_OK`. -/
def StartedFrames (state : OutputState) (frames : List (List UInt8)) : Prop :=
  frames = acceptedFrames state.finished ∨
    ∃ p, state.call = some ⟨p, .ret errOk⟩ ∧
      frames = acceptedFrames state.finished ++ [p.flatten]

theorem CallAt.carriesFrames {side : TransmitSide} {frames p : List (List UInt8)} {pc : OutputPc}
    (call : CallAt side frames p pc) :
    CarriesFrames side frames ∨ pc = .ret errOk ∧ CarriesFrames side (frames ++ [p.flatten]) := by
  cases pc with
  | loadHandle q => exact Or.inl call.2.carriesFrames
  | loadTxBuffer hcdc q | busyWait hcdc tries q => exact Or.inl call.2.2.carriesFrames
  | ret err =>
      rcases call with ⟨rfl, phase⟩ | ⟨-, phase⟩
      · exact Or.inr ⟨rfl, phase.carriesFrames⟩
      · exact Or.inl phase.carriesFrames
  | fault => cases call
  | _ =>
      rcases call.txFree rfl with ⟨length, state, free⟩
      exact Or.inl free.carriesFrames

theorem Sending.carriesFrames {state : OutputState} (sending : Sending state) :
    ∃ frames, StartedFrames state frames ∧ CarriesFrames state.usb.transmitSide frames := by
  rcases state with ⟨usb, call, finished⟩
  cases call with
  | none => exact ⟨_, Or.inl rfl, TxPhase.carriesFrames sending⟩
  | some call =>
      rcases call with ⟨p, pc⟩
      rcases sending.1.carriesFrames with carries | ⟨rfl, carries⟩
      · exact ⟨_, Or.inl rfl, carries⟩
      · exact ⟨_, Or.inr ⟨p, rfl, rfl⟩, carries⟩

/-! ## Refused calls -/

/-- No call is in progress, or one that cannot be refused any more. -/
def Committed (state : OutputState) : Prop :=
  ∀ call ∈ state.call, call.pc.commits = true ∨ call.pc = .ret errOk

theorem Committed.step {state next : OutputState} {event : OutputEvent}
    (committed : Committed state) (sending : Sending state) (same : ∀ p, event ≠ .call p)
    (stepped : outputSystemStep state event = some next) : Committed next := by
  cases event with
  | usb usbEvent =>
      rcases Option.map_eq_some_iff.mp stepped with ⟨usb, -, rfl⟩
      exact committed
  | call p => exact absurd rfl (same p)
  | step =>
      rcases outputSystemStep_cases stepped with
        ⟨p, pc, here, ⟨err, -, rfl⟩ | ⟨usb, after, moved, rfl⟩⟩
      · intro call member
        cases member
      · intro call member
        cases member
        rcases state with ⟨usbBefore, callBefore, finished⟩
        cases here
        rcases committed ⟨p, pc⟩ rfl with commits | rfl
        · exact sending.1.commits_step sending.2.1 sending.2.2 moved commits
        · cases moved

theorem Committed.of_runFrom {events : List OutputEvent} {state final : OutputState}
    (committed : Committed state) (sending : Sending state)
    (sends : ∀ event ∈ events, Sends event ∧ ∀ p, event ≠ .call p)
    (ran : outputSystem.runFrom state events = some final) : Committed final := by
  have both : Sending final ∧ Committed final := by
    refine System.invariant_along (fun state => Sending state ∧ Committed state) ?_
      ⟨sending, committed⟩ ran (System.along_of_forall _ sends)
    intro current event next holds allowed stepped
    exact ⟨holds.1.step allowed.1 stepped, holds.2.step holds.1 allowed.2 stepped⟩
  exact both.2

/-- A call that returned `ERR_USE` has changed nothing in any of its statements. -/
theorem refused_call_leaves {before during first second : List OutputEvent}
    {p : List (List UInt8)} {state current next : OutputState}
    (ran : outputSystem.run (before ++ .call p :: during) = some state)
    (sends : ∀ event ∈ before ++ .call p :: during, Sends event)
    (single : ∀ q, .call q ∉ during) (refused : state.call = some ⟨p, .ret errUse⟩)
    (split : during = first ++ .step :: second)
    (ranFirst : outputSystem.run (before ++ .call p :: first) = some current)
    (stepped : outputSystem.step current .step = some next) : next.usb = current.usb := by
  subst split
  have shape : before ++ .call p :: (first ++ .step :: second) =
      (before ++ .call p :: first) ++ .step :: second := by simp
  rw [shape] at ran sends
  rcases System.runFrom_append.mp ran with ⟨middle, ranMiddle, ranRest⟩
  have same : middle = current := Option.some.inj (ranMiddle.symm.trans ranFirst)
  subst same
  rcases System.runFrom_cons.mp ranRest with ⟨other, steppedOther, ranSecond⟩
  have sameNext : other = next := Option.some.inj (steppedOther.symm.trans stepped)
  subst sameNext
  have sending : Sending middle := by
    apply Sending.of_run ranFirst
    intro event member
    exact sends event (List.mem_append_left _ member)
  have statement : Sends .step := trivial
  have after : Sending other := sending.step statement stepped
  have later : ∀ event ∈ second, Sends event ∧ ∀ q, event ≠ .call q := by
    intro event member
    refine ⟨sends event ?_, ?_⟩
    · exact List.mem_append_right _ (List.mem_cons_of_mem _ member)
    · rintro q rfl
      exact single q (List.mem_append_right _ (List.mem_cons_of_mem _ member))
  have notCommitted : ¬Committed other := by
    intro committed
    have last := committed.of_runFrom after later ranSecond ⟨p, .ret errUse⟩ refused
    rcases last with commits | ok
    · cases commits
    · cases ok
  rcases outputSystemStep_cases stepped with
    ⟨q, pc, here, ⟨err, -, rfl⟩ | ⟨usb, moved, steppedCall, rfl⟩⟩
  · rfl
  · rcases middle with ⟨usbBefore, call, finished⟩
    cases here
    cases commits : pc.commits with
    | false => exact outputStep_of_not_commits steppedCall commits
    | true =>
        apply absurd _ notCommitted
        intro call member
        cases member
        exact sending.1.commits_step sending.2.1 sending.2.2 steppedCall commits

/--
Frame transmission is exact: the IN stream carries the frames of the calls which
returned `ERR_OK`, and a call which returned `ERR_USE` has changed nothing.
-/
theorem transmission_exact :
    (∀ events state, outputSystem.run events = some state → (∀ event ∈ events, Sends event) →
      ∃ frames, StartedFrames state frames ∧ CarriesFrames state.usb.transmitSide frames) ∧
    ∀ before p during state, outputSystem.run (before ++ .call p :: during) = some state →
      (∀ event ∈ before ++ .call p :: during, Sends event) → (∀ q, .call q ∉ during) →
      state.call = some ⟨p, .ret errUse⟩ →
      ∀ first second current next, during = first ++ .step :: second →
        outputSystem.run (before ++ .call p :: first) = some current →
        outputSystem.step current .step = some next → next.usb = current.usb := by
  constructor
  · intro events state ran sends
    exact (Sending.of_run ran sends).carriesFrames
  · intro before p during state ran sends single refused first second current next split ranFirst
    exact refused_call_leaves ran sends single refused split ranFirst

theorem runFrom_busyWait {usb : UsbDevice} {hcdc : ClassHandle}
    (present : usb.pClassData = some hcdc) (busy : hcdc.txState ≠ 0) (p : List (List UInt8))
    (finished : List (List UInt8 × ℤ)) (tries : ℕ) :
    outputSystem.runFrom ⟨usb, some ⟨p, .busyWait (some hcdc.id) tries p⟩, finished⟩
        (List.replicate (tries + 1) .step) = some ⟨usb, some ⟨p, .ret errUse⟩, finished⟩ := by
  induction tries with
  | zero =>
      apply System.runFrom_cons.mpr
      refine ⟨_, ?_, rfl⟩
      simp [outputSystem, outputSystemStep, outputStep, withTxHandle, present]
  | succ tries ih =>
      rw [List.replicate_succ]
      apply System.runFrom_cons.mpr
      refine ⟨_, ?_, ih⟩
      simp [outputSystem, outputSystemStep, outputStep, withTxHandle, present, busy]

/-- One frame is handed to the transmitter, and the host takes none of it. -/
def oneFrameSent : List OutputEvent :=
  .call [[1], [], [2, 3]] :: List.replicate 21 .step

/-- The statements of a call which waits in vain, up to its return. -/
def vainCall : List OutputEvent :=
  .step :: .step :: List.replicate (busyWaitTries + 1) .step

theorem eq_step_of_mem_vainCall {event : OutputEvent} (member : event ∈ vainCall) :
    event = .step := by
  simpa [vainCall] using member

/-- A second call finds the transmitter busy for all its tries. -/
theorem vainCall_refused :
    ∃ state, outputSystem.run (oneFrameSent ++ .call [[4]] :: vainCall) = some state ∧
      state.call = some ⟨[[4]], .ret errUse⟩ := by
  have first : ((outputSystem.run oneFrameSent).map fun state =>
      (state.call.isNone, state.usb.pClassData.map (·.txState))) = some (true, some 1) := by decide
  rcases Option.map_eq_some_iff.mp first with ⟨⟨usb, call, finished⟩, ran, seen⟩
  cases call with
  | some call => cases seen
  | none =>
      have busy : usb.pClassData.map (·.txState) = some 1 := congrArg Prod.snd seen
      rcases Option.map_eq_some_iff.mp busy with ⟨hcdc, present, state⟩
      have busyHandle : hcdc.txState ≠ 0 := by
        rw [state]
        decide
      have waited := runFrom_busyWait present busyHandle [[4]] finished busyWaitTries
      refine ⟨⟨usb, some ⟨[[4]], .ret errUse⟩, finished⟩, ?_, rfl⟩
      refine System.runFrom_append.mpr ⟨_, ran, ?_⟩
      refine System.runFrom_cons.mpr ⟨_, rfl, System.runFrom_cons.mpr ⟨_, rfl, ?_⟩⟩
      refine System.runFrom_cons.mpr ⟨_, ?_, waited⟩
      simp [outputSystem, outputSystemStep, outputStep, withTxHandle, UsbDevice.installed, present]

theorem transmission_exact_one_frame :
    (∃ frames, StartedFrames (outputSystem.final oneFrameSent (by decide)) frames ∧
      CarriesFrames (outputSystem.final oneFrameSent (by decide)).usb.transmitSide frames) ∧
    (outputSystem.final (oneFrameSent ++ [.call [[4]], .step]) (by decide)).usb =
      (outputSystem.final (oneFrameSent ++ [.call [[4]]]) (by decide)).usb := by
  constructor
  · exact transmission_exact.1 _ _ (System.run_final (by decide)) (by decide)
  · rcases vainCall_refused with ⟨state, ran, refused⟩
    refine transmission_exact.2 oneFrameSent [[4]] vainCall state ran ?_ ?_ refused [] _ _ _ rfl
      (System.run_final (by decide)) ?_
    · intro event member
      rcases List.mem_append.mp member with sent | called
      · have sends : ∀ event ∈ oneFrameSent, Sends event := by decide
        exact sends event sent
      · rcases List.mem_cons.mp called with rfl | waits
        · decide
        · rw [eq_step_of_mem_vainCall waits]
          trivial
    · intro q member
      have impossible := eq_step_of_mem_vainCall member
      cases impossible
    · rfl

end MqttAccelero.Net
