import MqttAccelero.Lib.System
import MqttAccelero.Usb.Control

/-!
# Control transfers in every device state

The core of the USB device between the bus and the class: how a setup packet is
dispatched, how the data stages of endpoint 0 go on, and what resets, suspends and
configurations do to the device state and to the class handle.

The class functions load `pClassData` without looking at it. Through `NULL` they
read what the memory at address 0 holds, and what they write there is lost. Data
endpoints change neither the device state nor `pClassData` and are left out.
-/

namespace MqttAccelero.Usb.Control

open Memory

inductive DevState where
  | default
  | addressed
  | configured
  | suspended
deriving DecidableEq, Repr

inductive Ep0State where
  | idle
  | setup
  | dataIn
  | dataOut
  | statusIn
  | statusOut
deriving DecidableEq, Repr

/-- `USBD_SetupReqTypedef` -/
structure SetupReq where
  bmRequest : UInt8
  bRequest : UInt8
  wValue : UInt16
  wIndex : UInt16
  wLength : UInt16
deriving DecidableEq, Repr

/-- The lengths in `ep_in[0]` or `ep_out[0]`. -/
structure Ep0 where
  totalLength : ℕ
  remLength : ℕ
  maxpacket : ℕ
deriving DecidableEq, Repr

/-- One execution of `CDC_ECM_Itf_Control`. -/
structure ControlRun where
  cmd : UInt8
  /-- `USBD_Device.pClassData` is not `NULL`. -/
  installed : Bool
  /-- The fields of the handle it has read or written. -/
  touched : List Field
deriving DecidableEq, Repr

structure UsbCore where
  devState : DevState
  devOldState : DevState
  devConfig : ℕ
  ep0State : Ep0State
  ep0DataLen : ℕ
  epIn0 : Ep0
  epOut0 : Ep0
  epInUsed : UInt8 → Bool
  epOutUsed : UInt8 → Bool
  /-- Where in `data` the next packet of an OUT data stage goes. -/
  xferBuff : ℕ
  pClassData : Option Block
  /-- What has been executed so far. -/
  controls : List ControlRun

/-- What the requests depend on besides the device. -/
structure UsbEnv where
  buffers : UserBuffers
  /-- What is read through `NULL`. -/
  nullPage : Block
  /-- The lengths of the descriptors by `wValue`; `none` for those that are not there. -/
  descriptorLength : UInt16 → Option ℕ

namespace SetupReq

/-- `bmRequest & USB_REQ_TYPE_MASK` -/
def type (req : SetupReq) : UInt8 := req.bmRequest &&& 0x60

def recipient (req : SetupReq) : UInt8 := req.bmRequest &&& 0x1f

/-- `LOBYTE(req->wIndex)` -/
def lobyteIndex (req : SetupReq) : UInt8 := req.wIndex.toUInt8

end SetupReq

def usbReqTypeStandard : UInt8 := 0x00
def usbReqTypeClass : UInt8 := 0x20
def usbReqTypeVendor : UInt8 := 0x40

def usbReqGetStatus : UInt8 := 0x00
def usbReqClearFeature : UInt8 := 0x01
def usbReqSetFeature : UInt8 := 0x03
def usbReqSetAddress : UInt8 := 0x05
def usbReqGetDescriptor : UInt8 := 0x06
def usbReqGetConfiguration : UInt8 := 0x08
def usbReqSetConfiguration : UInt8 := 0x09
def usbReqGetInterface : UInt8 := 0x0a
def usbReqSetInterface : UInt8 := 0x0b

def usbFeatureEpHalt : UInt16 := 0
def usbFeatureRemoteWakeup : UInt16 := 1

def usbdMaxNumInterfaces : UInt8 := 1
def usbdMaxNumConfiguration : UInt8 := 1
def usbMaxEp0Size : ℕ := 64

namespace UsbCore

/-! ## Endpoint 0 -/

def usbdCtlSendData (core : UsbCore) (len : ℕ) : UsbCore :=
  { core with
    ep0State := .dataIn
    epIn0 := { core.epIn0 with totalLength := len, remLength := len } }

/-- `USBD_CtlPrepareRx` into `hcdc->data` -/
def usbdCtlPrepareRx (core : UsbCore) (len : ℕ) : UsbCore :=
  { core with
    ep0State := .dataOut
    epOut0 := { core.epOut0 with totalLength := len, remLength := len }
    xferBuff := Field.data.offset }

def usbdCtlSendStatus (core : UsbCore) : UsbCore :=
  { core with ep0State := .statusIn }

def usbdCtlReceiveStatus (core : UsbCore) : UsbCore :=
  { core with ep0State := .statusOut }

/-- Stalls both directions of endpoint 0, which leaves `ep0_state` alone. -/
def usbdCtlError (core : UsbCore) : UsbCore := core

/-! ## The class -/

/-- What the handle looks like through `pClassData`. -/
def hcdc (core : UsbCore) (env : UsbEnv) : Block :=
  core.pClassData.getD env.nullPage

/-- The effect of a class function on the handle, and its call of `CDC_ECM_Itf_Control`. -/
def withHandle (core : UsbCore) (block : Block) (cmd : UInt8) (control : Option ControlDone) :
    UsbCore :=
  { core with
    pClassData := core.pClassData.map fun _ => block
    controls := core.controls ++
      (control.map fun done => ⟨cmd, core.pClassData.isSome, done.touched⟩).toList }

/-- The second part is whether the class returns `USBD_OK`. -/
def usbdCdcEcmSetup (core : UsbCore) (env : UsbEnv) (req : SetupReq) : UsbCore × Bool :=
  if req.type = usbReqTypeClass then
    let done := usbdCdcEcmSetupClass (core.hcdc env) req.bmRequest req.bRequest req.wLength
    let core := core.withHandle done.block req.bRequest done.control
    match done.sends, done.receives with
    | some _, _ => (core.usbdCtlSendData req.wLength.toNat, true)
    | none, some len => (core.usbdCtlPrepareRx len, true)
    | none, none => (core, true)
  else if req.type = usbReqTypeStandard then
    if req.bRequest = usbReqGetStatus then
      if core.devState = .configured then (core.usbdCtlSendData 2, true)
      else (core.usbdCtlError, false)
    else if req.bRequest = usbReqGetInterface then
      if core.devState = .configured then (core.usbdCtlSendData 1, true)
      else (core.usbdCtlError, false)
    else if req.bRequest = usbReqSetInterface then
      if core.devState = .configured then (core, true) else (core.usbdCtlError, false)
    else if req.bRequest = usbReqClearFeature then (core, true)
    else (core.usbdCtlError, false)
  else (core.usbdCtlError, false)

/-- `USBD_SetClassConfig`: class Init on what `malloc` returns. -/
def usbdSetClassConfig (core : UsbCore) (env : UsbEnv) (malloc : Option Block) : UsbCore × Bool :=
  match malloc with
  | none => ({ core with pClassData := none }, false)
  | some block =>
      ({ core with
          pClassData := some (usbdCdcEcmInit env.buffers block)
          epInUsed := fun ep => decide (ep = 1 ∨ ep = 2) || core.epInUsed ep
          epOutUsed := fun ep => decide (ep = 1) || core.epOutUsed ep }, true)

/-- `USBD_ClrClassConfig`: class DeInit, which frees the handle if there is one. -/
def usbdClrClassConfig (core : UsbCore) : UsbCore :=
  { core with
    pClassData := none
    epInUsed := fun ep => !decide (ep = 1 ∨ ep = 2) && core.epInUsed ep
    epOutUsed := fun ep => !decide (ep = 1) && core.epOutUsed ep }

/-- `USBD_CDC_ECM_EP0_RxReady` -/
def ep0RxReady (core : UsbCore) (env : UsbEnv) : UsbCore :=
  let hcdc := core.hcdc env
  match usbdCdcEcmEp0RxReady hcdc with
  | some done => core.withHandle done.block (UInt8.ofNat (hcdc.get .cmdOpCode)) (some done)
  | none => core

/-! ## Standard requests -/

def usbdSetAddress (core : UsbCore) (req : SetupReq) : UsbCore :=
  if req.wIndex = 0 ∧ req.wLength = 0 ∧ req.wValue < 128 then
    if core.devState = .configured then core.usbdCtlError
    else
      { core.usbdCtlSendStatus with
        devState := if req.wValue ≠ 0 then .addressed else .default }
  else core.usbdCtlError

def usbdSetConfig (core : UsbCore) (env : UsbEnv) (req : SetupReq) (malloc : Option Block) :
    UsbCore :=
  let cfgidx := req.wValue.toUInt8
  if cfgidx > usbdMaxNumConfiguration then core.usbdCtlError
  else
    match core.devState with
    | .addressed =>
        if cfgidx ≠ 0 then
          let (core, ok) :=
            { core with devConfig := cfgidx.toNat }.usbdSetClassConfig env malloc
          if ok then { core.usbdCtlSendStatus with devState := .configured }
          else core.usbdCtlError
        else core.usbdCtlSendStatus
    | .configured =>
        if cfgidx = 0 then
          { core with devState := .addressed, devConfig := 0 }.usbdClrClassConfig.usbdCtlSendStatus
        else if cfgidx.toNat ≠ core.devConfig then
          let (core, ok) :=
            { core.usbdClrClassConfig with devConfig := cfgidx.toNat }.usbdSetClassConfig env malloc
          if ok then core.usbdCtlSendStatus
          else { core.usbdCtlError.usbdClrClassConfig with devState := .addressed }
        else core.usbdCtlSendStatus
    | .default | .suspended => core.usbdCtlError.usbdClrClassConfig

def usbdGetDescriptor (core : UsbCore) (env : UsbEnv) (req : SetupReq) : UsbCore :=
  match env.descriptorLength req.wValue with
  | none => core.usbdCtlError
  | some len =>
      if req.wLength ≠ 0 then
        if len ≠ 0 then core.usbdCtlSendData (min len req.wLength.toNat) else core.usbdCtlError
      else core.usbdCtlSendStatus

def usbdGetConfig (core : UsbCore) (req : SetupReq) : UsbCore :=
  if req.wLength ≠ 1 then core.usbdCtlError
  else if core.devState = .suspended then core.usbdCtlError
  else core.usbdCtlSendData 1

def usbdGetStatus (core : UsbCore) (req : SetupReq) : UsbCore :=
  if core.devState = .suspended then core.usbdCtlError
  else if req.wLength ≠ 2 then core.usbdCtlError
  else core.usbdCtlSendData 2

def usbdSetFeature (core : UsbCore) (req : SetupReq) : UsbCore :=
  if req.wValue = usbFeatureRemoteWakeup then core.usbdCtlSendStatus else core

def usbdClrFeature (core : UsbCore) (req : SetupReq) : UsbCore :=
  if core.devState = .suspended then core.usbdCtlError
  else if req.wValue = usbFeatureRemoteWakeup then core.usbdCtlSendStatus
  else core

/-! ## Dispatch -/

def usbdStdDevReq (core : UsbCore) (env : UsbEnv) (req : SetupReq) (malloc : Option Block) :
    UsbCore :=
  if req.type = usbReqTypeClass ∨ req.type = usbReqTypeVendor then
    (core.usbdCdcEcmSetup env req).1
  else if req.type = usbReqTypeStandard then
    if req.bRequest = usbReqGetDescriptor then core.usbdGetDescriptor env req
    else if req.bRequest = usbReqSetAddress then core.usbdSetAddress req
    else if req.bRequest = usbReqSetConfiguration then core.usbdSetConfig env req malloc
    else if req.bRequest = usbReqGetConfiguration then core.usbdGetConfig req
    else if req.bRequest = usbReqGetStatus then core.usbdGetStatus req
    else if req.bRequest = usbReqSetFeature then core.usbdSetFeature req
    else if req.bRequest = usbReqClearFeature then core.usbdClrFeature req
    else core.usbdCtlError
  else core.usbdCtlError

def usbdStdItfReq (core : UsbCore) (env : UsbEnv) (req : SetupReq) : UsbCore :=
  if req.type = usbReqTypeClass ∨ req.type = usbReqTypeVendor ∨
      req.type = usbReqTypeStandard then
    if core.devState ≠ .suspended then
      if req.lobyteIndex ≤ usbdMaxNumInterfaces then
        let (core, ok) := core.usbdCdcEcmSetup env req
        if req.wLength = 0 ∧ ok then core.usbdCtlSendStatus else core
      else core.usbdCtlError
    else core.usbdCtlError
  else core.usbdCtlError

/-- `USBD_StdEPReq`; stalling an endpoint changes nothing here. -/
def usbdStdEPReq (core : UsbCore) (env : UsbEnv) (req : SetupReq) : UsbCore :=
  let epAddr := req.lobyteIndex
  if req.type = usbReqTypeClass ∨ req.type = usbReqTypeVendor then
    (core.usbdCdcEcmSetup env req).1
  else if req.type = usbReqTypeStandard then
    if req.bRequest = usbReqSetFeature then
      if core.devState = .configured then core.usbdCtlSendStatus else core.usbdCtlError
    else if req.bRequest = usbReqClearFeature then
      if core.devState = .configured then
        if req.wValue = usbFeatureEpHalt then (core.usbdCtlSendStatus.usbdCdcEcmSetup env req).1
        else core
      else core.usbdCtlError
    else if req.bRequest = usbReqGetStatus then
      match core.devState with
      | .addressed =>
          if epAddr ≠ 0x00 ∧ epAddr ≠ 0x80 then core.usbdCtlError else core.usbdCtlSendData 2
      | .configured =>
          let isUsed :=
            if epAddr &&& 0x80 = 0x80 then core.epInUsed (epAddr &&& 0x0f)
            else core.epOutUsed (epAddr &&& 0x0f)
          if isUsed then core.usbdCtlSendData 2 else core.usbdCtlError
      | .default | .suspended => core.usbdCtlError
    else core.usbdCtlError
  else core.usbdCtlError

def usbdLlSetupStage (core : UsbCore) (env : UsbEnv) (req : SetupReq) (malloc : Option Block) :
    UsbCore :=
  let core := { core with ep0State := .setup, ep0DataLen := req.wLength.toNat }
  if req.recipient = 0 then core.usbdStdDevReq env req malloc
  else if req.recipient = 1 then core.usbdStdItfReq env req
  else if req.recipient = 2 then core.usbdStdEPReq env req
  else core.usbdCtlError

/-! ## Data stages and bus events -/

/-- The next packet of an OUT data stage, stored where `xfer_buff` has got to. -/
def store (core : UsbCore) (bytes : List UInt8) : UsbCore :=
  { core with
    pClassData := core.pClassData.map fun block => Memory.store block core.xferBuff bytes
    xferBuff := core.xferBuff + bytes.length }

/-- `USBD_LL_DataOutStage` for endpoint 0 -/
def usbdLlDataOutStage (core : UsbCore) (env : UsbEnv) (bytes : List UInt8) : UsbCore :=
  if core.ep0State = .dataOut then
    let core := core.store bytes
    if core.epOut0.remLength > core.epOut0.maxpacket then
      { core with
        epOut0 := { core.epOut0 with
          remLength := core.epOut0.remLength - core.epOut0.maxpacket } }
    else
      let core := if core.devState = .configured then core.ep0RxReady env else core
      core.usbdCtlSendStatus
  else core

/-- `USBD_LL_DataInStage` for endpoint 0 -/
def usbdLlDataInStage (core : UsbCore) : UsbCore :=
  if core.ep0State = .dataIn then
    if core.epIn0.remLength > core.epIn0.maxpacket then
      { core with
        epIn0 := { core.epIn0 with
          remLength := core.epIn0.remLength - core.epIn0.maxpacket } }
    else if core.epIn0.maxpacket = core.epIn0.remLength ∧
        core.epIn0.totalLength ≥ core.epIn0.maxpacket ∧
        core.epIn0.totalLength < core.ep0DataLen then
      { core with ep0DataLen := 0 }
    else core.usbdCtlReceiveStatus
  else core

def usbdLlReset (core : UsbCore) : UsbCore :=
  let core := { core with devState := .default, ep0State := .idle, devConfig := 0 }
  let core := if core.pClassData.isSome then core.usbdClrClassConfig else core
  { core with
    epOutUsed := fun ep => decide (ep = 0) || core.epOutUsed ep
    epOut0 := { core.epOut0 with maxpacket := usbMaxEp0Size }
    epInUsed := fun ep => decide (ep = 0) || core.epInUsed ep
    epIn0 := { core.epIn0 with maxpacket := usbMaxEp0Size } }

def usbdLlSuspend (core : UsbCore) : UsbCore :=
  { core with devOldState := core.devState, devState := .suspended }

def usbdLlResume (core : UsbCore) : UsbCore :=
  if core.devState = .suspended then { core with devState := core.devOldState } else core

def usbdLlDevDisconnected (core : UsbCore) : UsbCore :=
  { core with devState := .default }.usbdClrClassConfig

end UsbCore

inductive CoreEvent where
  /-- A setup packet; `malloc` is what class Init gets if it runs. -/
  | setup (req : SetupReq) (malloc : Option Block)
  /-- A packet on endpoint 0 OUT. -/
  | dataOut (bytes : List UInt8)
  /-- The host has taken what was sent on endpoint 0. -/
  | dataIn
  | reset
  | suspend
  | resume
  | disconnect

/-- An OUT data stage takes packets of the size it has been armed with at most. -/
def coreStep (env : UsbEnv) (core : UsbCore) : CoreEvent → Option UsbCore
  | .setup req malloc => some (core.usbdLlSetupStage env req malloc)
  | .dataOut bytes =>
      if core.ep0State = .dataOut ∧
          min core.epOut0.remLength core.epOut0.maxpacket < bytes.length then none
      else some (core.usbdLlDataOutStage env bytes)
  | .dataIn => some core.usbdLlDataInStage
  | .reset => some core.usbdLlReset
  | .suspend => some core.usbdLlSuspend
  | .resume => some core.usbdLlResume
  | .disconnect => some core.usbdLlDevDisconnected

/-- The device after `USBD_Init`, `USBD_RegisterClass` and `USBD_Start`. -/
def coreSystem (env : UsbEnv) : System UsbCore CoreEvent where
  init :=
    { devState := .default
      devOldState := .default
      devConfig := 0
      ep0State := .idle
      ep0DataLen := 0
      epIn0 := ⟨0, 0, 0⟩
      epOut0 := ⟨0, 0, 0⟩
      epInUsed := fun _ => false
      epOutUsed := fun _ => false
      xferBuff := 0
      pClassData := none
      controls := [] }
  step := coreStep env

/-! ## What is claimed, and what decides it -/

/-- The handle was there, or nothing of it was touched. -/
def ControlRun.Safe (run : ControlRun) : Prop :=
  run.installed ∨ run.touched = []

def UsbCore.Safe (core : UsbCore) : Prop :=
  ∀ run ∈ core.controls, run.Safe

/-- The dispatcher hands the class request to the class. -/
def UsbCore.ReachesClass (core : UsbCore) (req : SetupReq) : Prop :=
  req.type = usbReqTypeClass ∧
    (req.recipient = 0 ∨
      (req.recipient = 1 ∧ core.devState ≠ .suspended ∧ req.lobyteIndex ≤ usbdMaxNumInterfaces) ∨
      req.recipient = 2)

/-- There is no OUT data stage to wait for. -/
def SetupReq.ActsAtOnce (req : SetupReq) : Prop :=
  req.wLength = 0 ∨ req.bmRequest &&& 0x80 ≠ 0

/-- A packet filter request is acted upon while there is no handle. -/
def UsbCore.FiltersThroughNull (core : UsbCore) (env : UsbEnv) : CoreEvent → Prop
  | .setup req _ =>
      core.pClassData = none ∧ core.ReachesClass req ∧ req.ActsAtOnce ∧
        req.bRequest = cdcEcmSetEthPacketFilter
  | .dataOut _ =>
      core.pClassData = none ∧ core.ep0State = .dataOut ∧
        core.epOut0.remLength ≤ core.epOut0.maxpacket ∧ core.devState = .configured ∧
        UInt8.ofNat (env.nullPage.get .cmdOpCode) = cdcEcmSetEthPacketFilter
  | _ => False

/-- The condition on a step. -/
def ActsOnHandle (env : UsbEnv) (core : UsbCore) (event : CoreEvent) : Prop :=
  ¬core.FiltersThroughNull env event

variable {env : UsbEnv} {core next : UsbCore} {req : SetupReq} {malloc : Option Block}

theorem safe_congr (same : next.controls = core.controls) : next.Safe ↔ core.Safe := by
  simp [UsbCore.Safe, same]

theorem safe_withHandle (block : Block) (cmd : UInt8) (seen : Block) :
    (core.withHandle block cmd (some (cdcEcmItfControl seen cmd))).Safe ↔
      core.Safe ∧ ¬(core.pClassData = none ∧ cmd = cdcEcmSetEthPacketFilter) := by
  have run_iff : ControlRun.Safe
      ⟨cmd, core.pClassData.isSome, (cdcEcmItfControl seen cmd).touched⟩ ↔
        ¬(core.pClassData = none ∧ cmd = cdcEcmSetEthPacketFilter) := by
    rw [ControlRun.Safe, touched_control_eq_nil_iff]
    cases core.pClassData with
    | none => simp
    | some block => simp
  rw [← run_iff]
  simp [UsbCore.Safe, UsbCore.withHandle, or_imp, forall_and]

/-- A class function that does not run `CDC_ECM_Itf_Control` adds no run of it. -/
theorem safe_withHandle_none (block : Block) (cmd : UInt8) :
    (core.withHandle block cmd none).Safe ↔ core.Safe := by
  apply safe_congr
  simp [UsbCore.withHandle]

theorem controls_classSetup (isClass : req.type = usbReqTypeClass) :
    (core.usbdCdcEcmSetup env req).1.controls =
      let done := usbdCdcEcmSetupClass (core.hcdc env) req.bmRequest req.bRequest req.wLength
      (core.withHandle done.block req.bRequest done.control).controls := by
  simp only [UsbCore.usbdCdcEcmSetup, isClass, if_true]
  split
  all_goals rfl

theorem controls_setup_of_not_class (other : req.type ≠ usbReqTypeClass) :
    (core.usbdCdcEcmSetup env req).1.controls = core.controls := by
  simp only [UsbCore.usbdCdcEcmSetup, other, if_false]
  repeat' split
  all_goals rfl

/-- Only class requests that act at once make the class run `CDC_ECM_Itf_Control` here. -/
theorem safe_classSetup :
    (core.usbdCdcEcmSetup env req).1.Safe ↔
      core.Safe ∧ ¬(core.pClassData = none ∧ req.type = usbReqTypeClass ∧ req.ActsAtOnce ∧
        req.bRequest = cdcEcmSetEthPacketFilter) := by
  by_cases isClass : req.type = usbReqTypeClass
  · rw [safe_congr (controls_classSetup isClass)]
    by_cases empty : req.wLength = 0
    · have atOnce : req.ActsAtOnce := Or.inl empty
      simp only [usbdCdcEcmSetupClass, empty, ne_eq, not_true_eq_false, if_false, isClass, atOnce,
        true_and]
      exact safe_withHandle _ _ _
    · by_cases isIn : req.bmRequest &&& 0x80 = 0
      · have later : ¬req.ActsAtOnce := by
          rintro (noData | towardsHost)
          · exact empty noData
          · exact towardsHost isIn
        simp only [usbdCdcEcmSetupClass, empty, isIn, ne_eq, not_true_eq_false, not_false_eq_true,
          if_true, if_false, later, false_and, and_false, and_true]
        exact safe_withHandle_none _ _
      · have atOnce : req.ActsAtOnce := Or.inr isIn
        simp only [usbdCdcEcmSetupClass, empty, isIn, ne_eq, not_false_eq_true, if_true, isClass,
          atOnce, true_and]
        exact safe_withHandle _ _ _
  · rw [safe_congr (controls_setup_of_not_class isClass)]
    simp [isClass]

/-! ## Requests that do not reach the class -/

structure SameHandle (next core : UsbCore) : Prop where
  devState : next.devState = core.devState
  devOldState : next.devOldState = core.devOldState
  installed : next.pClassData.isSome = core.pClassData.isSome

/-- Neither the state nor the handle have changed, and the class has not been called. -/
structure Untouched (next core : UsbCore) : Prop extends SameHandle next core where
  controls : next.controls = core.controls

theorem untouched_getDescriptor : Untouched (core.usbdGetDescriptor env req) core := by
  unfold UsbCore.usbdGetDescriptor
  repeat' split
  all_goals exact ⟨⟨rfl, rfl, rfl⟩, rfl⟩

theorem untouched_getConfig : Untouched (core.usbdGetConfig req) core := by
  unfold UsbCore.usbdGetConfig
  repeat' split
  all_goals exact ⟨⟨rfl, rfl, rfl⟩, rfl⟩

theorem untouched_getStatus : Untouched (core.usbdGetStatus req) core := by
  unfold UsbCore.usbdGetStatus
  repeat' split
  all_goals exact ⟨⟨rfl, rfl, rfl⟩, rfl⟩

theorem untouched_setFeature : Untouched (core.usbdSetFeature req) core := by
  unfold UsbCore.usbdSetFeature
  split
  all_goals exact ⟨⟨rfl, rfl, rfl⟩, rfl⟩

theorem untouched_clrFeature : Untouched (core.usbdClrFeature req) core := by
  unfold UsbCore.usbdClrFeature
  repeat' split
  all_goals exact ⟨⟨rfl, rfl, rfl⟩, rfl⟩

theorem untouched_dataInStage : Untouched core.usbdLlDataInStage core := by
  unfold UsbCore.usbdLlDataInStage
  repeat' split
  all_goals exact ⟨⟨rfl, rfl, rfl⟩, rfl⟩

theorem controls_setConfig : (core.usbdSetConfig env req malloc).controls = core.controls := by
  unfold UsbCore.usbdSetConfig UsbCore.usbdSetClassConfig
  cases malloc with
  | none =>
      simp only
      repeat' split
      all_goals rfl
  | some block =>
      simp only
      repeat' split
      all_goals rfl

theorem controls_setAddress : (core.usbdSetAddress req).controls = core.controls := by
  unfold UsbCore.usbdSetAddress
  repeat' split
  all_goals rfl

/-- The standard requests to the device stay within the core. -/
theorem controls_stdDevReq (standard : req.type = usbReqTypeStandard) :
    (core.usbdStdDevReq env req malloc).controls = core.controls := by
  have notClass : ¬(req.type = usbReqTypeClass ∨ req.type = usbReqTypeVendor) := by
    rw [standard]
    decide
  rw [UsbCore.usbdStdDevReq, if_neg notClass, if_pos standard]
  repeat' split
  · exact untouched_getDescriptor.controls
  · exact controls_setAddress
  · exact controls_setConfig
  · exact untouched_getConfig.controls
  · exact untouched_getStatus.controls
  · exact untouched_setFeature.controls
  · exact untouched_clrFeature.controls
  · rfl

theorem safe_stdDevReq :
    (core.usbdStdDevReq env req malloc).Safe ↔
      core.Safe ∧ ¬(core.pClassData = none ∧ req.type = usbReqTypeClass ∧ req.ActsAtOnce ∧
        req.bRequest = cdcEcmSetEthPacketFilter) := by
  by_cases toClass : req.type = usbReqTypeClass ∨ req.type = usbReqTypeVendor
  · rw [UsbCore.usbdStdDevReq, if_pos toClass]
    exact safe_classSetup
  · have notClass : req.type ≠ usbReqTypeClass := fun isClass => toClass (Or.inl isClass)
    simp only [notClass, false_and, and_false, not_false_eq_true, and_true]
    apply safe_congr
    by_cases standard : req.type = usbReqTypeStandard
    · exact controls_stdDevReq standard
    · rw [UsbCore.usbdStdDevReq, if_neg toClass, if_neg standard]
      rfl

theorem safe_stdItfReq :
    (core.usbdStdItfReq env req).Safe ↔
      core.Safe ∧ ¬(core.pClassData = none ∧
        (req.type = usbReqTypeClass ∧ core.devState ≠ .suspended ∧
          req.lobyteIndex ≤ usbdMaxNumInterfaces) ∧ req.ActsAtOnce ∧
        req.bRequest = cdcEcmSetEthPacketFilter) := by
  by_cases isClass : req.type = usbReqTypeClass
  · by_cases passed : core.devState ≠ .suspended ∧ req.lobyteIndex ≤ usbdMaxNumInterfaces
    · have dispatched : (core.usbdStdItfReq env req).controls =
          (core.usbdCdcEcmSetup env req).1.controls := by
        simp only [UsbCore.usbdStdItfReq, isClass, true_or, if_true, if_pos passed.1,
          if_pos passed.2]
        split
        all_goals rfl
      rw [safe_congr dispatched, safe_classSetup]
      simp [isClass, passed.1, passed.2]
    · have dropped : (core.usbdStdItfReq env req).controls = core.controls := by
        simp only [UsbCore.usbdStdItfReq, isClass, true_or, if_true]
        split
        · next awake =>
            rw [if_neg fun index => passed ⟨awake, index⟩]
            rfl
        · rfl
      rw [safe_congr dropped]
      simp only [passed, and_false, false_and, not_false_eq_true, and_true]
  · simp only [isClass, false_and, and_false, not_false_eq_true, and_true]
    apply safe_congr
    simp only [UsbCore.usbdStdItfReq]
    repeat' split
    all_goals first
      | rfl
      | exact controls_setup_of_not_class isClass

theorem safe_stdEPReq :
    (core.usbdStdEPReq env req).Safe ↔
      core.Safe ∧ ¬(core.pClassData = none ∧ req.type = usbReqTypeClass ∧ req.ActsAtOnce ∧
        req.bRequest = cdcEcmSetEthPacketFilter) := by
  by_cases toClass : req.type = usbReqTypeClass ∨ req.type = usbReqTypeVendor
  · simp only [UsbCore.usbdStdEPReq, if_pos toClass]
    exact safe_classSetup
  · have notClass : req.type ≠ usbReqTypeClass := fun isClass => toClass (Or.inl isClass)
    simp only [notClass, false_and, and_false, not_false_eq_true, and_true]
    apply safe_congr
    simp only [UsbCore.usbdStdEPReq, if_neg toClass]
    repeat' split
    all_goals first
      | rfl
      | exact controls_setup_of_not_class notClass

/-! ## The steps of the core -/

theorem safe_setupStage :
    (core.usbdLlSetupStage env req malloc).Safe ↔
      core.Safe ∧ ¬core.FiltersThroughNull env (.setup req malloc) := by
  have arrived : ({ core with ep0State := .setup, ep0DataLen := req.wLength.toNat } : UsbCore).Safe
      ↔ core.Safe := safe_congr rfl
  simp only [UsbCore.usbdLlSetupStage, UsbCore.FiltersThroughNull, UsbCore.ReachesClass]
  by_cases device : req.recipient = 0
  · simp [device, safe_stdDevReq, arrived]
  · by_cases interface : req.recipient = 1
    · simp [interface, safe_stdItfReq, arrived]
    · by_cases endpoint : req.recipient = 2
      · simp [endpoint, safe_stdEPReq, arrived]
      · simp only [device, interface, endpoint, if_false, false_and, or_self, and_false,
          not_false_eq_true, and_true]
        exact arrived

theorem pClassData_store_eq_none_iff (bytes : List UInt8) :
    (core.store bytes).pClassData = none ↔ core.pClassData = none := by
  simp [UsbCore.store]

/-- `CmdOpCode` is passed on if it is not `0xFF`, which is no packet filter request. -/
theorem safe_ep0RxReady :
    (core.ep0RxReady env).Safe ↔
      core.Safe ∧ ¬(core.pClassData = none ∧
        UInt8.ofNat (env.nullPage.get .cmdOpCode) = cdcEcmSetEthPacketFilter) := by
  have throughNull : core.pClassData = none → core.hcdc env = env.nullPage := by
    intro released
    simp [UsbCore.hcdc, released]
  have passedOn : (core.ep0RxReady env).Safe ↔
      core.Safe ∧ ¬(core.pClassData = none ∧
        UInt8.ofNat ((core.hcdc env).get .cmdOpCode) = cdcEcmSetEthPacketFilter) := by
    by_cases idle : (core.hcdc env).get .cmdOpCode = noCommand
    · have noFilter : UInt8.ofNat noCommand ≠ cdcEcmSetEthPacketFilter := by decide
      simp only [UsbCore.ep0RxReady, usbdCdcEcmEp0RxReady, idle, ne_eq, not_true_eq_false, if_false,
        noFilter, and_false, not_false_eq_true, and_true]
    · simp only [UsbCore.ep0RxReady, usbdCdcEcmEp0RxReady, idle, ne_eq, not_false_eq_true, if_true]
      exact safe_withHandle _ _ _
  rw [passedOn]
  constructor
  · rintro ⟨safe, installed⟩
    refine ⟨safe, ?_⟩
    rintro ⟨released, filter⟩
    apply installed
    refine ⟨released, ?_⟩
    rw [throughNull released]
    exact filter
  · rintro ⟨safe, installed⟩
    refine ⟨safe, ?_⟩
    rintro ⟨released, filter⟩
    apply installed
    refine ⟨released, ?_⟩
    rw [← throughNull released]
    exact filter

theorem safe_dataOutStage (bytes : List UInt8) :
    (core.usbdLlDataOutStage env bytes).Safe ↔
      core.Safe ∧ ¬core.FiltersThroughNull env (.dataOut bytes) := by
  have stored : (core.store bytes).Safe ↔ core.Safe := safe_congr rfl
  simp only [UsbCore.usbdLlDataOutStage, UsbCore.FiltersThroughNull]
  split
  · next receiving =>
      split
      · next more =>
          have notLast : ¬core.epOut0.remLength ≤ core.epOut0.maxpacket := Nat.not_le.mpr more
          simp only [notLast, false_and, and_false, not_false_eq_true, and_true]
          exact safe_congr rfl
      · next last =>
          have isLast : core.epOut0.remLength ≤ core.epOut0.maxpacket := Nat.not_lt.mp last
          have sameState : (core.store bytes).devState = core.devState := rfl
          by_cases configured : core.devState = .configured
          · have finished : ((core.store bytes).ep0RxReady env).usbdCtlSendStatus.Safe ↔
                ((core.store bytes).ep0RxReady env).Safe := safe_congr rfl
            simp only [sameState, configured, if_true]
            rw [finished, safe_ep0RxReady, stored, pClassData_store_eq_none_iff]
            simp [receiving, isLast]
          · simp only [sameState, configured, if_false, false_and, and_false, not_false_eq_true,
              and_true]
            exact safe_congr rfl
  · next waiting => simp [waiting]

theorem controls_reset : core.usbdLlReset.controls = core.controls := by
  simp only [UsbCore.usbdLlReset]
  split
  all_goals rfl

theorem controls_resume : core.usbdLlResume.controls = core.controls := by
  unfold UsbCore.usbdLlResume
  split
  all_goals rfl

theorem safe_step (event : CoreEvent) (stepped : coreStep env core event = some next) :
    next.Safe ↔ core.Safe ∧ ActsOnHandle env core event := by
  have unchanged : next.controls = core.controls → ¬core.FiltersThroughNull env event →
      (next.Safe ↔ core.Safe ∧ ActsOnHandle env core event) := by
    intro same holds
    simp [safe_congr same, ActsOnHandle, holds]
  cases event with
  | setup req malloc =>
      cases stepped
      exact safe_setupStage
  | dataOut bytes =>
      simp only [coreStep] at stepped
      split at stepped
      · cases stepped
      · cases stepped
        exact safe_dataOutStage bytes
  | dataIn =>
      cases stepped
      exact unchanged untouched_dataInStage.controls id
  | reset =>
      cases stepped
      exact unchanged controls_reset id
  | suspend =>
      cases stepped
      exact unchanged rfl id
  | resume =>
      cases stepped
      exact unchanged controls_resume id
  | disconnect =>
      cases stepped
      exact unchanged rfl id

/-- `CDC_ECM_Itf_Control` has kept off a missing handle exactly if no packet filter
request was acted upon without one. -/
theorem controls_safe_iff {events : List CoreEvent} {final : UsbCore}
    (ran : (coreSystem env).run events = some final) :
    final.Safe ↔ (coreSystem env).Along (ActsOnHandle env) (coreSystem env).init events := by
  have safe_iff := System.good_iff_along (ActsOnHandle env) (fun _ => True) UsbCore.Safe
    (fun _ _ _ _ _ => trivial) (fun _ event _ _ stepped => safe_step event stepped) trivial ran
  have safeAtStart : (coreSystem env).init.Safe := by
    intro run member
    cases member
  rw [safe_iff]
  exact and_iff_right safeAtStart

/-- Nothing but zeros at address 0, and the buffers of the linker map. -/
def zeroPageEnv : UsbEnv where
  buffers := ⟨0x20000000, 0x20001000⟩
  nullPage := fun _ => 0
  descriptorLength := fun _ => none

def setPacketFilter : SetupReq := ⟨0x21, cdcEcmSetEthPacketFilter, 0x0f, 0, 0⟩

def enumeration : List CoreEvent :=
  [.reset, .setup ⟨0x00, usbReqSetAddress, 5, 0, 0⟩ none,
    .setup ⟨0x00, usbReqSetConfiguration, 1, 0, 0⟩ (some fun _ => 0xa5),
    .setup setPacketFilter none]

theorem enumeration_enabled : ((coreSystem zeroPageEnv).run enumeration).isSome := by
  decide +kernel

theorem controls_safe_after_configuration :
    ((coreSystem zeroPageEnv).final enumeration enumeration_enabled).Safe ↔
      (coreSystem zeroPageEnv).Along (ActsOnHandle zeroPageEnv) (coreSystem zeroPageEnv).init
        enumeration :=
  controls_safe_iff (System.run_final enumeration_enabled)

/-- A packet filter request to the interface right after the reset. -/
theorem controls_safe_violated :
    ∃ final, (coreSystem zeroPageEnv).run [.reset, .setup setPacketFilter none] = some final ∧
      final.devState = .default ∧
      final.controls =
        [⟨cdcEcmSetEthPacketFilter, false, [.linkStatus, .notificationStatus, .req]⟩] ∧
      ¬final.Safe := by
  refine ⟨_, rfl, rfl, by decide +kernel, ?_⟩
  intro safe
  have missing := safe ⟨cdcEcmSetEthPacketFilter, false, [.linkStatus, .notificationStatus, .req]⟩
    (by decide +kernel)
  rcases missing with installed | untouched
  · cases installed
  · cases untouched

/-! ## A configured device has its handle -/

/-- Also while it is suspended. -/
structure UsbCore.HasHandle (core : UsbCore) : Prop where
  configured : core.devState = .configured → core.pClassData.isSome
  asleep : core.devState = .suspended → core.devOldState = .configured → core.pClassData.isSome

/-- No `SET_CONFIGURATION` arrives while the bus is suspended. -/
def ConfiguresAwake (core : UsbCore) : CoreEvent → Prop
  | .setup req _ =>
      core.devState = .suspended → ¬(req.recipient = 0 ∧ req.type = usbReqTypeStandard ∧
        req.bRequest = usbReqSetConfiguration)
  | _ => True

theorem SameHandle.hasHandle (same : SameHandle next core) (has : core.HasHandle) :
    next.HasHandle := by
  constructor
  · intro configured
    rw [same.installed]
    exact has.configured (same.devState.symm.trans configured)
  · intro suspended old
    rw [same.installed]
    exact has.asleep (same.devState.symm.trans suspended) (same.devOldState.symm.trans old)

theorem hasHandle_of_not_configured (awake : core.devState ≠ .suspended)
    (other : core.devState ≠ .configured) : core.HasHandle :=
  ⟨fun configured => absurd configured other, fun suspended => absurd suspended awake⟩

theorem sameHandle_classSetup : SameHandle (core.usbdCdcEcmSetup env req).1 core := by
  unfold UsbCore.usbdCdcEcmSetup
  split
  · simp only
    split
    all_goals exact ⟨rfl, rfl, Option.isSome_map⟩
  · repeat' split
    all_goals exact ⟨rfl, rfl, rfl⟩

theorem sameHandle_ep0RxReady : SameHandle (core.ep0RxReady env) core := by
  unfold UsbCore.ep0RxReady
  simp only
  split
  · exact ⟨rfl, rfl, Option.isSome_map⟩
  · exact ⟨rfl, rfl, rfl⟩

theorem hasHandle_setAddress (has : core.HasHandle) : (core.usbdSetAddress req).HasHandle := by
  unfold UsbCore.usbdSetAddress
  split
  · split
    · exact has
    · apply hasHandle_of_not_configured
      · show (if req.wValue ≠ 0 then DevState.addressed else DevState.default) ≠ _
        split
        all_goals decide
      · show (if req.wValue ≠ 0 then DevState.addressed else DevState.default) ≠ _
        split
        all_goals decide
  · exact has

/-- Whatever `USBD_SetConfig` does, it ends configured with a handle or not configured. -/
theorem hasHandle_setConfig (has : core.HasHandle) (awake : core.devState ≠ .suspended) :
    (core.usbdSetConfig env req malloc).HasHandle := by
  simp only [UsbCore.usbdSetConfig]
  split
  · exact has
  · split
    · next addressed =>
        have stays : core.devState ≠ .suspended ∧ core.devState ≠ .configured := by
          rw [addressed]
          decide
        split
        · cases malloc with
          | none => exact hasHandle_of_not_configured stays.1 stays.2
          | some block => exact ⟨fun _ => rfl, fun _ _ => rfl⟩
        · exact ⟨has.configured, has.asleep⟩
    · next configured =>
        split
        · exact hasHandle_of_not_configured nofun nofun
        · split
          · cases malloc with
            | none => exact hasHandle_of_not_configured nofun nofun
            | some block => exact ⟨fun _ => rfl, fun _ _ => rfl⟩
          · exact ⟨has.configured, has.asleep⟩
    · next atDefault =>
        apply hasHandle_of_not_configured
        · exact awake
        · show core.devState ≠ .configured
          rw [atDefault]
          decide
    · next suspended => exact absurd suspended awake

theorem sameHandle_stdItfReq : SameHandle (core.usbdStdItfReq env req) core := by
  have setup : SameHandle (core.usbdCdcEcmSetup env req).1 core := sameHandle_classSetup
  simp only [UsbCore.usbdStdItfReq]
  repeat' split
  all_goals first
    | exact ⟨setup.devState, setup.devOldState, setup.installed⟩
    | exact ⟨rfl, rfl, rfl⟩

theorem sameHandle_stdEPReq : SameHandle (core.usbdStdEPReq env req) core := by
  have setup : SameHandle (core.usbdCdcEcmSetup env req).1 core := sameHandle_classSetup
  have cleared : SameHandle (core.usbdCtlSendStatus.usbdCdcEcmSetup env req).1 core := by
    have fromStatus : SameHandle (core.usbdCtlSendStatus.usbdCdcEcmSetup env req).1
        core.usbdCtlSendStatus := sameHandle_classSetup
    exact ⟨fromStatus.devState, fromStatus.devOldState, fromStatus.installed⟩
  simp only [UsbCore.usbdStdEPReq]
  repeat' split
  all_goals first
    | exact setup
    | exact cleared
    | exact ⟨rfl, rfl, rfl⟩

theorem hasHandle_stdDevReq (has : core.HasHandle)
    (awake : core.devState = .suspended → ¬(req.type = usbReqTypeStandard ∧
      req.bRequest = usbReqSetConfiguration)) :
    (core.usbdStdDevReq env req malloc).HasHandle := by
  unfold UsbCore.usbdStdDevReq
  split
  · exact sameHandle_classSetup.hasHandle has
  · split
    · next standard =>
        split
        · exact untouched_getDescriptor.hasHandle has
        · split
          · exact hasHandle_setAddress has
          · split
            · next isSetConfig =>
                apply hasHandle_setConfig has
                intro suspended
                exact awake suspended ⟨standard, isSetConfig⟩
            · repeat' split
              · exact untouched_getConfig.hasHandle has
              · exact untouched_getStatus.hasHandle has
              · exact untouched_setFeature.hasHandle has
              · exact untouched_clrFeature.hasHandle has
              · exact has
    · exact has

theorem hasHandle_init : (coreSystem env).init.HasHandle :=
  hasHandle_of_not_configured nofun nofun

theorem hasHandle_setupStage (has : core.HasHandle)
    (awake : ConfiguresAwake core (.setup req malloc)) :
    (core.usbdLlSetupStage env req malloc).HasHandle := by
  have arrived : ({ core with ep0State := .setup, ep0DataLen := req.wLength.toNat } :
      UsbCore).HasHandle := ⟨has.configured, has.asleep⟩
  simp only [UsbCore.usbdLlSetupStage]
  split
  · next device =>
      apply hasHandle_stdDevReq arrived
      intro suspended isSetConfig
      exact awake suspended ⟨device, isSetConfig⟩
  · split
    · exact sameHandle_stdItfReq.hasHandle arrived
    · split
      · exact sameHandle_stdEPReq.hasHandle arrived
      · exact arrived

theorem sameHandle_dataOutStage (bytes : List UInt8) :
    SameHandle (core.usbdLlDataOutStage env bytes) core := by
  have stored : (core.store bytes).pClassData.isSome = core.pClassData.isSome := Option.isSome_map
  have passedOn : SameHandle ((core.store bytes).ep0RxReady env) (core.store bytes) :=
    sameHandle_ep0RxReady
  simp only [UsbCore.usbdLlDataOutStage]
  repeat' split
  · exact ⟨rfl, rfl, stored⟩
  · exact ⟨passedOn.devState, passedOn.devOldState, passedOn.installed.trans stored⟩
  · exact ⟨rfl, rfl, stored⟩
  · exact ⟨rfl, rfl, rfl⟩

theorem hasHandle_step {event : CoreEvent} (has : core.HasHandle)
    (awake : ConfiguresAwake core event) (stepped : coreStep env core event = some next) :
    next.HasHandle := by
  cases event with
  | setup req malloc =>
      cases stepped
      exact hasHandle_setupStage has awake
  | dataOut bytes =>
      simp only [coreStep] at stepped
      split at stepped
      · cases stepped
      · cases stepped
        exact (sameHandle_dataOutStage bytes).hasHandle has
  | dataIn =>
      cases stepped
      exact untouched_dataInStage.hasHandle has
  | reset =>
      cases stepped
      have atDefault : core.usbdLlReset.devState = .default := by
        simp only [UsbCore.usbdLlReset]
        split
        all_goals rfl
      apply hasHandle_of_not_configured
      · rw [atDefault]
        decide
      · rw [atDefault]
        decide
  | suspend =>
      cases stepped
      exact ⟨nofun, fun _ old => has.configured old⟩
  | resume =>
      cases stepped
      unfold UsbCore.usbdLlResume
      split
      · next suspended =>
          constructor
          · intro old
            exact has.asleep suspended old
          · intro again old
            exact has.asleep suspended old
      · exact has
  | disconnect =>
      cases stepped
      exact hasHandle_of_not_configured nofun nofun

/-- As long as no configuration is set while the bus is suspended, a configured device has
its handle. -/
theorem hasHandle_run {events : List CoreEvent} {final : UsbCore}
    (ran : (coreSystem env).run events = some final)
    (awake : (coreSystem env).Along ConfiguresAwake (coreSystem env).init events) :
    final.HasHandle :=
  System.invariant_along UsbCore.HasHandle
    (fun _ _ _ has awake stepped => hasHandle_step has awake stepped) hasHandle_init ran awake

/-- What an OUT data stage has brought is then never passed on without one. -/
theorem UsbCore.HasHandle.actsOnHandle_dataOut (has : core.HasHandle) (bytes : List UInt8) :
    ActsOnHandle env core (.dataOut bytes) := by
  rintro ⟨released, -, -, configured, -⟩
  have installed := has.configured configured
  rw [released] at installed
  cases installed

end MqttAccelero.Usb.Control
