import MqttAccelero.Lib.Memory

/-!
# The CDC ECM class of the USB device

State of `USBD_Device` as far as the data endpoints are concerned, and the class
callbacks which the USB interrupt runs on it. The interrupt is never interrupted
by a thread, so each callback is one function from device states to device
states.

`malloc` gives every handle a fresh identity, so that a pointer kept across a
`free` can be told from a pointer to the handle installed later. The receive and
transmit buffers are static and belong to no handle. They are modelled as memory
starting at the buffer and reaching past its end.
-/

namespace MqttAccelero.Usb

def cdcEcmEthMaxSegsze : ℕ := 1514

/-- `CDC_ECM_DATA_FS_MAX_PACKET_SIZE`: both data endpoints on a full-speed link. -/
def cdcEcmDataFsMaxPacketSize : ℕ := 64

/-- `sizeof(UserRxBuffer)`, also `sizeof(UserTxBuffer)` -/
def userBufferSize : ℕ := cdcEcmEthMaxSegsze + 100

/-- The bits of `NET_EVENT_FLAG_T`, as a set. -/
structure NetEvents where
  linkUp : Bool
  linkDown : Bool
  newPacket : Bool
deriving DecidableEq, Repr

namespace NetEvents

def none : NetEvents := ⟨false, false, false⟩

def any (events : NetEvents) : Bool :=
  events.linkUp || events.linkDown || events.newPacket

end NetEvents

/-- Identity of one `malloc`ed class handle. -/
abbrev HandleId := ℕ

/-- `USBD_CDC_ECM_HandleTypeDef`, without the fields of the control requests. -/
structure ClassHandle where
  id : HandleId
  rxLength : ℕ
  txLength : ℕ
  txState : ℕ
  rxState : ℕ
  maxPcktLen : ℕ
  linkStatus : ℕ
  notificationStatus : ℕ
deriving DecidableEq, Repr

/-- An armed OUT endpoint: where in `UserRxBuffer` the packet goes, and how much fits. -/
structure OutTransfer where
  offset : ℕ
  size : ℕ
deriving DecidableEq, Repr

/-- A started IN transfer: `xfer_len`, `xfer_count` and whether the host took its last packet. -/
structure InTransfer where
  length : ℕ
  count : ℕ
  finished : Bool
deriving DecidableEq, Repr

/-- `USBD_Device` with its two data endpoints, the static buffers and the pending events. -/
structure UsbDevice where
  pClassData : Option ClassHandle
  nextId : HandleId
  outEp : Option OutTransfer
  inEp : Option InTransfer
  totalLength : ℕ
  userRxBuffer : ℕ → UInt8
  userTxBuffer : ℕ → UInt8
  /-- The notification value of the `lwip_input` thread. -/
  pending : NetEvents
  /-- The packets the host has taken from the bulk IN endpoint so far. -/
  inPackets : List (List UInt8)

namespace UsbDevice

/-- The pointer value in `USBD_Device.pClassData`. -/
def installed (device : UsbDevice) : Option HandleId :=
  device.pClassData.map ClassHandle.id

def updateHandle (device : UsbDevice) (update : ClassHandle → ClassHandle) : UsbDevice :=
  { device with pClassData := device.pClassData.map update }

/-- `USBD_LL_PrepareReceive` on `CDC_ECM_OUT_EP`, `pbuf` being an offset into `UserRxBuffer`. -/
def usbdLlPrepareReceive (device : UsbDevice) (offset size : ℕ) : UsbDevice :=
  { device with outEp := some ⟨offset, size⟩ }

/-- `USBD_LL_Transmit` on `CDC_ECM_IN_EP`, from the start of `UserTxBuffer`. -/
def usbdLlTransmit (device : UsbDevice) (size : ℕ) : UsbDevice :=
  { device with totalLength := size, inEp := some ⟨size, 0, false⟩ }

def cdcEcmItfInit (device : UsbDevice) : UsbDevice :=
  { device.updateHandle fun hcdc => { hcdc with txLength := 0 } with
    pending := { device.pending with linkUp := true } }

def cdcEcmItfDeInit (device : UsbDevice) : UsbDevice :=
  { device.updateHandle fun hcdc => { hcdc with linkStatus := 0 } with
    pending := { device.pending with linkDown := true } }

def cdcEcmItfReceive (device : UsbDevice) : UsbDevice :=
  { device.updateHandle fun hcdc => { hcdc with rxState := 1 } with
    pending := { device.pending with newPacket := true } }

/-- The block `malloc` returns, contents unspecified: every field is written before it is read. -/
def allocatedHandle (device : UsbDevice) : ClassHandle :=
  ⟨device.nextId, 0, 0, 0, 0, 0, 0, 0⟩

/--
`USBD_CDC_ECM_Init` on a full-speed link; `allocated` is whether `malloc`
returned a block.
-/
def usbdCdcEcmInit (device : UsbDevice) (allocated : Bool) : UsbDevice :=
  if allocated then
    let opened := cdcEcmItfInit
      { device with
        pClassData := some device.allocatedHandle
        nextId := device.nextId + 1 }
    let cleared := opened.updateHandle fun hcdc =>
      { hcdc with
        txState := 0
        rxState := 0
        rxLength := 0
        txLength := 0
        linkStatus := 0
        notificationStatus := 0
        maxPcktLen := cdcEcmDataFsMaxPacketSize }
    cleared.usbdLlPrepareReceive 0 cdcEcmDataFsMaxPacketSize
  else
    { device with pClassData := none }

/-- `USBD_CDC_ECM_DeInit`: closes the endpoints, and releases the handle if there is one. -/
def usbdCdcEcmDeInit (device : UsbDevice) : UsbDevice :=
  let closed := { device with outEp := none, inEp := none }
  match closed.pClassData with
  | some _ => { closed.cdcEcmItfDeInit with pClassData := none }
  | none => closed

/-- `USBD_CDC_ECM_DataOut` for a packet of `currPcktLen` bytes. -/
def usbdCdcEcmDataOut (device : UsbDevice) (currPcktLen : ℕ) : UsbDevice :=
  match device.pClassData with
  | none => device
  | some hcdc =>
      let rxLength := hcdc.rxLength + currPcktLen
      let counted := device.updateHandle fun hcdc => { hcdc with rxLength := rxLength }
      if currPcktLen < hcdc.maxPcktLen ∨ cdcEcmEthMaxSegsze ≤ rxLength then
        counted.cdcEcmItfReceive
      else
        counted.usbdLlPrepareReceive rxLength hcdc.maxPcktLen

/-- `USBD_CDC_ECM_DataIn` for `CDC_ECM_IN_EP`. -/
def usbdCdcEcmDataIn (device : UsbDevice) : UsbDevice :=
  match device.pClassData with
  | none => device
  | some _ =>
      if 0 < device.totalLength ∧ device.totalLength % cdcEcmDataFsMaxPacketSize = 0 then
        -- the frame ended on a packet boundary: the ZLP is a transfer of its own
        { device with totalLength := 0 }.usbdLlTransmit 0
      else
        device.updateHandle fun hcdc => { hcdc with txState := 0 }

/-- The next packet of the IN transfer in flight, as `PCD_WriteEmptyTxFifo` cuts it. -/
def inPacket (device : UsbDevice) (transfer : InTransfer) : List UInt8 :=
  Memory.load device.userTxBuffer transfer.count
    (min cdcEcmDataFsMaxPacketSize (transfer.length - transfer.count))

end UsbDevice

/-- What the bus and the USB interrupt can do between two steps of a thread. -/
inductive UsbEvent where
  /-- `SET_CONFIGURATION`: class Init, `malloc` succeeding or not. -/
  | classInit (allocated : Bool)
  /-- Reset, disconnect or `SET_CONFIGURATION 0`: class DeInit. -/
  | classDeInit
  /-- A packet on the armed OUT endpoint, stored and passed to DataOut. -/
  | outPacket (bytes : List UInt8)
  /-- The host takes the next packet of the IN transfer in flight. -/
  | inPacket
  /-- Transfer-complete interrupt of the IN endpoint: DataIn. -/
  | dataIn
deriving DecidableEq, Repr

open UsbDevice in
/--
The USB side of one event. Init and DeInit alternate, since `USBD_SetConfig`
calls Init in the ADDRESSED state only. An OUT packet needs an armed endpoint
and fits the transfer it was armed with.
-/
def usbStep (device : UsbDevice) : UsbEvent → Option UsbDevice
  | .classInit allocated =>
      match device.pClassData with
      | none => some (device.usbdCdcEcmInit allocated)
      | some _ => none
  | .classDeInit =>
      match device.pClassData with
      | none => none
      | some _ => some device.usbdCdcEcmDeInit
  | .outPacket bytes =>
      match device.outEp with
      | none => none
      | some transfer =>
          if bytes.length ≤ transfer.size then
            some (usbdCdcEcmDataOut
              { device with
                outEp := none
                userRxBuffer := Memory.store device.userRxBuffer transfer.offset bytes }
              bytes.length)
          else none
  | .inPacket =>
      match device.inEp with
      | none => none
      | some transfer =>
          if transfer.finished then none
          else
            let packet := device.inPacket transfer
            let count := transfer.count + packet.length
            some { device with
              inPackets := device.inPackets ++ [packet]
              inEp := some ⟨transfer.length, count, decide (count = transfer.length)⟩ }
  | .dataIn =>
      match device.inEp with
      | none => none
      | some transfer =>
          if transfer.finished then some { device with inEp := none }.usbdCdcEcmDataIn
          else none

/-! ## The receive side

What reception depends on, leaving out the fields which only transmission uses.
-/

structure ReceiveHandle where
  id : HandleId
  rxLength : ℕ
  rxState : ℕ
  maxPcktLen : ℕ
deriving DecidableEq, Repr

structure ReceiveSide where
  handle : Option ReceiveHandle
  outEp : Option OutTransfer
  buffer : ℕ → UInt8
  pending : NetEvents

def ClassHandle.receive (hcdc : ClassHandle) : ReceiveHandle :=
  ⟨hcdc.id, hcdc.rxLength, hcdc.rxState, hcdc.maxPcktLen⟩

def ReceiveHandle.fresh (id : HandleId) : ReceiveHandle :=
  ⟨id, 0, 0, cdcEcmDataFsMaxPacketSize⟩

/-- A packet of `length` bytes ends the frame being received. -/
def ReceiveHandle.EndsFrame (hcdc : ReceiveHandle) (length : ℕ) : Prop :=
  length < hcdc.maxPcktLen ∨ cdcEcmEthMaxSegsze ≤ hcdc.rxLength + length

instance (hcdc : ReceiveHandle) (length : ℕ) : Decidable (hcdc.EndsFrame length) :=
  inferInstanceAs (Decidable (_ ∨ _))

namespace UsbDevice

def receiveSide (device : UsbDevice) : ReceiveSide :=
  ⟨device.pClassData.map ClassHandle.receive, device.outEp, device.userRxBuffer, device.pending⟩

theorem installed_eq_receiveSide (device : UsbDevice) :
    device.installed = device.receiveSide.handle.map ReceiveHandle.id := by
  simp [installed, receiveSide, Function.comp_def, ClassHandle.receive]

theorem installed_congr {device next : UsbDevice}
    (same : next.receiveSide = device.receiveSide) : next.installed = device.installed := by
  rw [installed_eq_receiveSide, same, ← installed_eq_receiveSide]

theorem installed_eq_none_iff {device : UsbDevice} :
    device.installed = none ↔ device.receiveSide.handle = none := by
  rw [installed_eq_receiveSide, Option.map_eq_none_iff]

theorem installed_updateHandle (device : UsbDevice) {update : ClassHandle → ClassHandle}
    (sameId : ∀ hcdc, (update hcdc).id = hcdc.id) :
    (device.updateHandle update).installed = device.installed := by
  simp [installed, updateHandle, Function.comp_def, sameId]

end UsbDevice

open UsbDevice

theorem usbStep_classInit {device next : UsbDevice}
    (stepped : usbStep device (.classInit true) = some next) :
    device.receiveSide.handle = none ∧
      next.receiveSide =
        { device.receiveSide with
          handle := some (.fresh device.nextId)
          outEp := some ⟨0, cdcEcmDataFsMaxPacketSize⟩
          pending := { device.pending with linkUp := true } } := by
  rcases device with ⟨pClassData, nextId, outEp, inEp, totalLength, rx, tx, pending, sent⟩
  cases pClassData with
  | none =>
      simp only [usbStep, Option.some.injEq] at stepped
      subst next
      exact ⟨rfl, rfl⟩
  | some hcdc => simp [usbStep] at stepped

theorem usbStep_classInit_failed {device next : UsbDevice}
    (stepped : usbStep device (.classInit false) = some next) : next = device := by
  rcases device with ⟨pClassData, nextId, outEp, inEp, totalLength, rx, tx, pending, sent⟩
  cases pClassData with
  | none =>
      simp only [usbStep, usbdCdcEcmInit, Bool.false_eq_true, if_false, Option.some.injEq] at stepped
      exact stepped.symm
  | some hcdc => simp [usbStep] at stepped

theorem usbStep_classDeInit {device next : UsbDevice}
    (stepped : usbStep device .classDeInit = some next) :
    (∃ hcdc, device.receiveSide.handle = some hcdc) ∧
      next.receiveSide =
        { device.receiveSide with
          handle := none
          outEp := none
          pending := { device.pending with linkDown := true } } := by
  rcases device with ⟨pClassData, nextId, outEp, inEp, totalLength, rx, tx, pending, sent⟩
  cases pClassData with
  | none => simp [usbStep] at stepped
  | some hcdc =>
      simp only [usbStep, Option.some.injEq] at stepped
      subst next
      exact ⟨⟨_, rfl⟩, rfl⟩

theorem usbStep_outPacket_armed {device next : UsbDevice} {bytes : List UInt8}
    (stepped : usbStep device (.outPacket bytes) = some next) :
    ∃ transfer, device.outEp = some transfer ∧ bytes.length ≤ transfer.size ∧
      next = usbdCdcEcmDataOut
        { device with
          outEp := none
          userRxBuffer := Memory.store device.userRxBuffer transfer.offset bytes }
        bytes.length := by
  simp only [usbStep] at stepped
  split at stepped
  · cases stepped
  · rename_i transfer armed
    split at stepped
    · rename_i fits
      exact ⟨transfer, armed, fits, (Option.some.inj stepped).symm⟩
    · cases stepped

theorem usbStep_outPacket_dropped {device next : UsbDevice} {bytes : List UInt8}
    (stepped : usbStep device (.outPacket bytes) = some next)
    (missing : device.receiveSide.handle = none) :
    ∃ transfer, device.outEp = some transfer ∧ bytes.length ≤ transfer.size ∧
      next.receiveSide =
        { handle := none
          outEp := none
          buffer := Memory.store device.userRxBuffer transfer.offset bytes
          pending := device.pending } := by
  rcases usbStep_outPacket_armed stepped with ⟨transfer, armed, fits, rfl⟩
  refine ⟨transfer, armed, fits, ?_⟩
  have absent : device.pClassData = none := by simpa [receiveSide] using missing
  simp [usbdCdcEcmDataOut, absent, receiveSide]

/-- The packet that ends a frame: the frame is handed over and the endpoint stays unarmed. -/
theorem usbStep_outPacket_last {device next : UsbDevice} {bytes : List UInt8}
    {hcdc : ReceiveHandle} (stepped : usbStep device (.outPacket bytes) = some next)
    (handle : device.receiveSide.handle = some hcdc) (last : hcdc.EndsFrame bytes.length) :
    ∃ transfer, device.outEp = some transfer ∧ bytes.length ≤ transfer.size ∧
      next.receiveSide =
        { handle := some { hcdc with rxLength := hcdc.rxLength + bytes.length, rxState := 1 }
          outEp := none
          buffer := Memory.store device.userRxBuffer transfer.offset bytes
          pending := { device.pending with newPacket := true } } := by
  rcases usbStep_outPacket_armed stepped with ⟨transfer, armed, fits, rfl⟩
  refine ⟨transfer, armed, fits, ?_⟩
  simp only [receiveSide, Option.map_eq_some_iff] at handle
  rcases handle with ⟨full, present, rfl⟩
  have taken : bytes.length < full.maxPcktLen ∨
      cdcEcmEthMaxSegsze ≤ full.rxLength + bytes.length := last
  simp [usbdCdcEcmDataOut, present, taken, receiveSide, cdcEcmItfReceive, updateHandle,
    ClassHandle.receive]

/-- A packet inside a frame: the endpoint is armed again behind it. -/
theorem usbStep_outPacket_more {device next : UsbDevice} {bytes : List UInt8}
    {hcdc : ReceiveHandle} (stepped : usbStep device (.outPacket bytes) = some next)
    (handle : device.receiveSide.handle = some hcdc) (more : ¬hcdc.EndsFrame bytes.length) :
    ∃ transfer, device.outEp = some transfer ∧ bytes.length ≤ transfer.size ∧
      next.receiveSide =
        { handle := some { hcdc with rxLength := hcdc.rxLength + bytes.length }
          outEp := some ⟨hcdc.rxLength + bytes.length, hcdc.maxPcktLen⟩
          buffer := Memory.store device.userRxBuffer transfer.offset bytes
          pending := device.pending } := by
  rcases usbStep_outPacket_armed stepped with ⟨transfer, armed, fits, rfl⟩
  refine ⟨transfer, armed, fits, ?_⟩
  simp only [receiveSide, Option.map_eq_some_iff] at handle
  rcases handle with ⟨full, present, rfl⟩
  have skipped : ¬(bytes.length < full.maxPcktLen ∨
      cdcEcmEthMaxSegsze ≤ full.rxLength + bytes.length) := more
  simp [usbdCdcEcmDataOut, present, skipped, receiveSide, usbdLlPrepareReceive, updateHandle,
    ClassHandle.receive]

theorem usbStep_inPacket_receiveSide {device next : UsbDevice}
    (stepped : usbStep device .inPacket = some next) : next.receiveSide = device.receiveSide := by
  simp only [usbStep] at stepped
  split at stepped
  · cases stepped
  · split at stepped
    · cases stepped
    · cases stepped
      rfl

theorem usbStep_dataIn_receiveSide {device next : UsbDevice}
    (stepped : usbStep device .dataIn = some next) : next.receiveSide = device.receiveSide := by
  simp only [usbStep] at stepped
  split at stepped
  · cases stepped
  · split at stepped
    · cases stepped
      simp only [usbdCdcEcmDataIn]
      split
      · rfl
      · split
        · rfl
        · rename_i hcdc present _
          have present' : device.pClassData = some hcdc := present
          simp [receiveSide, updateHandle, present', ClassHandle.receive]
    · cases stepped

/-- The events which notify a link change: a successful class Init, and class DeInit. -/
def UsbEvent.changesLink : UsbEvent → Bool
  | .classInit allocated => allocated
  | .classDeInit => true
  | .outPacket _ | .inPacket | .dataIn => false

/-- Every other event leaves the handle installed and the link bits alone. -/
theorem usbStep_keepsLink {device next : UsbDevice} {event : UsbEvent}
    (stepped : usbStep device event = some next) (plain : event.changesLink = false) :
    next.installed = device.installed ∧ next.pending.linkUp = device.pending.linkUp ∧
      next.pending.linkDown = device.pending.linkDown := by
  cases event with
  | classInit allocated =>
      cases allocated with
      | true => cases plain
      | false =>
          rw [usbStep_classInit_failed stepped]
          exact ⟨rfl, rfl, rfl⟩
  | classDeInit => cases plain
  | outPacket bytes =>
      cases handle : device.receiveSide.handle with
      | none =>
          rcases usbStep_outPacket_dropped stepped handle with ⟨transfer, -, -, shape⟩
          have pending : next.pending = device.pending := congrArg ReceiveSide.pending shape
          refine ⟨?_, by rw [pending], by rw [pending]⟩
          rw [installed_eq_receiveSide, installed_eq_receiveSide, shape, handle]
      | some hcdc =>
          by_cases last : hcdc.EndsFrame bytes.length
          · rcases usbStep_outPacket_last stepped handle last with ⟨transfer, -, -, shape⟩
            have pending : next.pending = { device.pending with newPacket := true } :=
              congrArg ReceiveSide.pending shape
            refine ⟨?_, by rw [pending], by rw [pending]⟩
            rw [installed_eq_receiveSide, installed_eq_receiveSide, shape, handle]
            rfl
          · rcases usbStep_outPacket_more stepped handle last with ⟨transfer, -, -, shape⟩
            have pending : next.pending = device.pending := congrArg ReceiveSide.pending shape
            refine ⟨?_, by rw [pending], by rw [pending]⟩
            rw [installed_eq_receiveSide, installed_eq_receiveSide, shape, handle]
            rfl
  | inPacket =>
      have same := usbStep_inPacket_receiveSide stepped
      have pending : next.pending = device.pending := congrArg ReceiveSide.pending same
      exact ⟨installed_congr same, by rw [pending], by rw [pending]⟩
  | dataIn =>
      have same := usbStep_dataIn_receiveSide stepped
      have pending : next.pending = device.pending := congrArg ReceiveSide.pending same
      exact ⟨installed_congr same, by rw [pending], by rw [pending]⟩

theorem installed_of_usbStep {device next : UsbDevice} {event : UsbEvent}
    (stepped : usbStep device event = some next) (present : device.installed ≠ none)
    (stays : event ≠ .classDeInit) : next.installed = device.installed := by
  cases link : event.changesLink with
  | false => exact (usbStep_keepsLink stepped link).1
  | true =>
      cases event with
      | classInit allocated =>
          cases allocated with
          | true => exact absurd (installed_eq_none_iff.mpr (usbStep_classInit stepped).1) present
          | false => cases link
      | classDeInit => exact absurd rfl stays
      | outPacket _ | inPacket | dataIn => cases link

/-! ## The transmit side -/

structure TransmitHandle where
  id : HandleId
  txLength : ℕ
  txState : ℕ
deriving DecidableEq, Repr

structure TransmitSide where
  handle : Option TransmitHandle
  inEp : Option InTransfer
  totalLength : ℕ
  buffer : ℕ → UInt8
  sent : List (List UInt8)

def ClassHandle.transmit (hcdc : ClassHandle) : TransmitHandle :=
  ⟨hcdc.id, hcdc.txLength, hcdc.txState⟩

def UsbDevice.transmitSide (device : UsbDevice) : TransmitSide :=
  ⟨device.pClassData.map ClassHandle.transmit, device.inEp, device.totalLength,
    device.userTxBuffer, device.inPackets⟩

def TransmitSide.installed (side : TransmitSide) : Option HandleId :=
  side.handle.map TransmitHandle.id

theorem UsbDevice.installed_eq_transmitSide (device : UsbDevice) :
    device.installed = device.transmitSide.installed := by
  simp [installed, transmitSide, TransmitSide.installed, Function.comp_def, ClassHandle.transmit]

theorem usbStep_outPacket_transmitSide {device next : UsbDevice} {bytes : List UInt8}
    (stepped : usbStep device (.outPacket bytes) = some next) :
    next.transmitSide = device.transmitSide := by
  rcases usbStep_outPacket_armed stepped with ⟨transfer, -, -, rfl⟩
  cases present : device.pClassData with
  | none => simp [usbdCdcEcmDataOut, transmitSide, present]
  | some hcdc =>
      simp only [usbdCdcEcmDataOut]
      split
      · simp [transmitSide, cdcEcmItfReceive, updateHandle, present, ClassHandle.transmit]
      · simp [transmitSide, usbdLlPrepareReceive, updateHandle, present, ClassHandle.transmit]

theorem usbStep_inPacket {device next : UsbDevice}
    (stepped : usbStep device .inPacket = some next) :
    ∃ transfer, device.inEp = some transfer ∧ transfer.finished = false ∧
      next.transmitSide =
        { device.transmitSide with
          sent := device.inPackets ++ [device.inPacket transfer]
          inEp := some ⟨transfer.length, transfer.count + (device.inPacket transfer).length,
            decide (transfer.count + (device.inPacket transfer).length = transfer.length)⟩ } := by
  simp only [usbStep] at stepped
  split at stepped
  · cases stepped
  · rename_i transfer started
    split at stepped
    · cases stepped
    · rename_i unfinished
      cases stepped
      exact ⟨transfer, started, by simpa using unfinished, rfl⟩

/-- A finished transfer is followed by a zero-length one, or the transmitter becomes free. -/
theorem usbStep_dataIn {device next : UsbDevice} {hcdc : TransmitHandle}
    (stepped : usbStep device .dataIn = some next)
    (handle : device.transmitSide.handle = some hcdc) :
    ∃ transfer, device.inEp = some transfer ∧ transfer.finished = true ∧
      next.transmitSide =
        if 0 < device.totalLength ∧ device.totalLength % cdcEcmDataFsMaxPacketSize = 0 then
          { device.transmitSide with totalLength := 0, inEp := some ⟨0, 0, false⟩ }
        else
          { device.transmitSide with handle := some { hcdc with txState := 0 }, inEp := none } := by
  simp only [transmitSide, Option.map_eq_some_iff] at handle
  rcases handle with ⟨full, present, rfl⟩
  simp only [usbStep] at stepped
  split at stepped
  · cases stepped
  · rename_i transfer started
    split at stepped
    · rename_i finished
      refine ⟨transfer, started, finished, ?_⟩
      cases stepped
      simp only [usbdCdcEcmDataIn, present]
      split
      · simp [transmitSide, usbdLlTransmit, present]
      · simp [transmitSide, updateHandle, ClassHandle.transmit]
    · cases stepped

/-- With a handle installed, transmission changes by IN events and class DeInit only. -/
theorem usbStep_transmitSide {device next : UsbDevice} {event : UsbEvent}
    (stepped : usbStep device event = some next) (present : device.installed ≠ none)
    (stays : event ≠ .classDeInit) :
    next.transmitSide = device.transmitSide ∨ event = .inPacket ∨ event = .dataIn := by
  cases event with
  | classInit allocated =>
      cases allocated with
      | true => exact absurd (installed_eq_none_iff.mpr (usbStep_classInit stepped).1) present
      | false =>
          rw [usbStep_classInit_failed stepped]
          exact Or.inl rfl
  | classDeInit => exact absurd rfl stays
  | outPacket bytes => exact Or.inl (usbStep_outPacket_transmitSide stepped)
  | inPacket => exact Or.inr (Or.inl rfl)
  | dataIn => exact Or.inr (Or.inr rfl)

end MqttAccelero.Usb
