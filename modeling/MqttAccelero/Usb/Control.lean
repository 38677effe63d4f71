import MqttAccelero.Lib.Memory

/-!
# Control requests of the CDC ECM class

The class functions that take part in control transfers, on the memory of the
class handle. `malloc` does not clear the block and the functions do not bound
what the host asks for, so a block is modelled as its bytes and those behind it,
and a field as a place in it.
-/

namespace MqttAccelero.Usb.Control

open Memory

/-- What `malloc` returns for the handle, and the memory behind it. -/
abbrev Block := ℕ → UInt8

/-- A field of `USBD_CDC_ECM_HandleTypeDef`. -/
structure Field where
  offset : ℕ
  size : ℕ
deriving DecidableEq, Repr

namespace Field

def data : Field := ⟨0, 2000⟩
def cmdOpCode : Field := ⟨2000, 1⟩
def cmdLength : Field := ⟨2001, 1⟩
def rxBuffer : Field := ⟨2004, 4⟩
def txBuffer : Field := ⟨2008, 4⟩
def rxLength : Field := ⟨2012, 4⟩
def txLength : Field := ⟨2016, 4⟩
def txState : Field := ⟨2020, 4⟩
def rxState : Field := ⟨2024, 4⟩
def maxPcktLen : Field := ⟨2028, 4⟩
def linkStatus : Field := ⟨2032, 4⟩
def notificationStatus : Field := ⟨2036, 4⟩

/-- `Req`, and below its own fields. -/
def req : Field := ⟨2040, 16⟩
def reqBmRequest : Field := ⟨2040, 1⟩
def reqBRequest : Field := ⟨2041, 1⟩
def reqWValue : Field := ⟨2042, 2⟩
def reqWIndex : Field := ⟨2044, 2⟩
def reqWLength : Field := ⟨2046, 2⟩
def reqData : Field := ⟨2048, 8⟩

def Disjoint (left right : Field) : Prop :=
  left.offset + left.size ≤ right.offset ∨ right.offset + right.size ≤ left.offset

instance (left right : Field) : Decidable (left.Disjoint right) :=
  inferInstanceAs (Decidable (_ ∨ _))

end Field

namespace Block

def get (block : Block) (field : Field) : ℕ :=
  loadLe block field.offset field.size

def set (block : Block) (field : Field) (value : ℕ) : Block :=
  storeLe block field.offset field.size value

variable {block : Block} {field other : Field} {value : ℕ}

theorem get_set_self (fits : value < 256 ^ field.size) : (block.set field value).get field = value :=
  loadLe_storeLe_of_lt fits

theorem get_set_of_disjoint (disjoint : field.Disjoint other) :
    (block.set other value).get field = block.get field :=
  loadLe_storeLe_of_disjoint disjoint

end Block

/-! ## Notifications -/

inductive NotifCode where
  | networkConnection
  | responseAvailable
  | connectionSpeedChange
deriving DecidableEq, Repr

def NotifCode.toNat : NotifCode → ℕ
  | networkConnection => 0x00
  | responseAvailable => 0x01
  | connectionSpeedChange => 0x2a

/-- A transfer from `Req` that has been started on the command endpoint. -/
structure Notification where
  code : NotifCode
  bytes : List UInt8
deriving DecidableEq, Repr

def cdcEcmBmrequestTypeEcm : ℕ := 0xa1
def cdcEcmCmdItfNbr : ℕ := 0
def cdcEcmNetConnected : ℕ := 1

/-- `CDC_ECM_CONNECT_SPEED_UPSTREAM`, also `CDC_ECM_CONNECT_SPEED_DOWNSTREAM` -/
def cdcEcmConnectSpeed : ℕ := 0x004c4b40

def connSpeedTab : List UInt8 :=
  leBytes 4 cdcEcmConnectSpeed ++ leBytes 4 cdcEcmConnectSpeed

def usbdCdcEcmSendNotification (block : Block) (notif : NotifCode) (bVal : ℕ)
    (pData : Option (List UInt8)) : Block × Notification :=
  let block := (block.set .reqBmRequest cdcEcmBmrequestTypeEcm).set .reqBRequest notif.toNat
  let (block, reqSize) :=
    match notif with
    | .networkConnection =>
        let block := ((block.set .reqWValue bVal).set .reqWIndex cdcEcmCmdItfNbr).set .reqWLength 0
        (store block Field.reqData.offset (List.replicate 8 0), 8)
    | .responseAvailable =>
        let block := ((block.set .reqWValue 0).set .reqWIndex cdcEcmCmdItfNbr).set .reqWLength 0
        (store block Field.reqData.offset (List.replicate 8 0), 8)
    | .connectionSpeedChange =>
        let block := ((block.set .reqWValue 0).set .reqWIndex cdcEcmCmdItfNbr).set .reqWLength 8
        match pData with
        | some bytes => (store block Field.reqData.offset (bytes.take 8), 16)
        | none => (block, 16)
  (block, ⟨notif, load block Field.req.offset reqSize⟩)

/-! ## Requests -/

def cdcEcmSetEthPacketFilter : UInt8 := 0x43

/-- What `CDC_ECM_Itf_Control` leaves, the fields it has read or written, and what it sends. -/
structure ControlDone where
  block : Block
  touched : List Field
  notified : Option Notification

/-- `CDC_ECM_Itf_Control`; all requests but one are accepted and ignored. -/
def cdcEcmItfControl (block : Block) (cmd : UInt8) : ControlDone :=
  if cmd = cdcEcmSetEthPacketFilter then
    if block.get .linkStatus = 0 then
      let block := block.set .linkStatus 1
      if block.get .notificationStatus = 0 then
        let (block, notification) :=
          usbdCdcEcmSendNotification block .networkConnection cdcEcmNetConnected none
        ⟨block.set .notificationStatus 1, [.linkStatus, .notificationStatus, .req],
          some notification⟩
      else ⟨block, [.linkStatus, .notificationStatus], none⟩
    else ⟨block, [.linkStatus], none⟩
  else ⟨block, [], none⟩

/-- `USBD_CDC_ECM_DataIn` for `CDC_ECM_CMD_EP`. -/
def usbdCdcEcmDataInCmd (block : Block) : Block × Option Notification :=
  if block.get .notificationStatus ≠ 0 then
    let (block, notification) :=
      usbdCdcEcmSendNotification block .connectionSpeedChange 0 (some connSpeedTab)
    (block.set .notificationStatus 0, some notification)
  else (block, none)

def noCommand : ℕ := 0xff

/-- `USBD_CDC_ECM_EP0_RxReady`; `none` if there is no request to pass on. -/
def usbdCdcEcmEp0RxReady (block : Block) : Option ControlDone :=
  let opCode := block.get .cmdOpCode
  if opCode ≠ noCommand then
    let done := cdcEcmItfControl block (UInt8.ofNat opCode)
    some { done with block := done.block.set .cmdOpCode noCommand }
  else none

/-- What a class request does: the data stage it starts, and its call of
`CDC_ECM_Itf_Control`, if there is one before the data stage. -/
structure SetupDone where
  block : Block
  control : Option ControlDone
  /-- The bytes of an IN data stage. -/
  sends : Option (List UInt8)
  /-- The length of an OUT data stage, which fills `data` from its start. -/
  receives : Option ℕ

/-- `USBD_CDC_ECM_Setup` for `USB_REQ_TYPE_CLASS`. -/
def usbdCdcEcmSetupClass (block : Block) (bmRequest bRequest : UInt8) (wLength : UInt16) :
    SetupDone :=
  if wLength ≠ 0 then
    if bmRequest &&& 0x80 ≠ 0 then
      let done := cdcEcmItfControl block bRequest
      ⟨done.block, some done, some (load done.block Field.data.offset wLength.toNat), none⟩
    else
      let block := (block.set .cmdOpCode bRequest.toNat).set .cmdLength (wLength.toNat % 256)
      ⟨block, none, none, some wLength.toNat⟩
  else
    let done := cdcEcmItfControl block bRequest
    ⟨done.block, some done, none, none⟩

/-- The addresses of `UserRxBuffer` and `UserTxBuffer`. -/
structure UserBuffers where
  rx : ℕ
  tx : ℕ

/-- `CDC_ECM_Itf_Init` -/
def cdcEcmItfInit (buffers : UserBuffers) (block : Block) : Block :=
  ((block.set .txBuffer buffers.tx).set .txLength 0).set .rxBuffer buffers.rx

/-- `CDC_ECM_DATA_FS_MAX_PACKET_SIZE` -/
def cdcEcmDataFsMaxPacketSize : ℕ := 64

/-- What `USBD_CDC_ECM_Init` writes to the block it has got, on a full-speed link. -/
def usbdCdcEcmInit (buffers : UserBuffers) (block : Block) : Block :=
  let block := cdcEcmItfInit buffers block
  let block := (((block.set .txState 0).set .rxState 0).set .rxLength 0).set .txLength 0
  ((block.set .linkStatus 0).set .notificationStatus 0).set .maxPcktLen cdcEcmDataFsMaxPacketSize

/-! ## What the functions leave alone -/

/-- The block has changed in a part of it only. -/
def ChangedIn (region : Field) (after before : Block) : Prop :=
  Set.EqOn after before (Set.Ico region.offset (region.offset + region.size))ᶜ

/-- The first lies in the second. -/
def Field.Inside (field region : Field) : Prop :=
  region.offset ≤ field.offset ∧ field.offset + field.size ≤ region.offset + region.size

instance (field region : Field) : Decidable (field.Inside region) :=
  inferInstanceAs (Decidable (_ ∧ _))

variable {before after block : Block} {region field : Field} {value : ℕ}

namespace ChangedIn

theorem refl (region : Field) (block : Block) : ChangedIn region block block :=
  Set.eqOn_refl block _

theorem store (changed : ChangedIn region after before) {cells : List UInt8}
    (inside : field.Inside region) (fits : cells.length ≤ field.size) :
    ChangedIn region (Memory.store after field.offset cells) before := by
  intro address outside
  rw [← changed outside]
  apply store_of_outside
  simp only [Set.mem_compl_iff, Set.mem_Ico, not_and, not_lt] at outside
  rcases inside with ⟨starts, ends⟩
  omega

theorem set (changed : ChangedIn region after before) (inside : field.Inside region) :
    ChangedIn region (after.set field value) before := by
  apply changed.store inside
  rw [length_leBytes]

theorem mono {wide : Field} (changed : ChangedIn region after before)
    (inside : region.Inside wide) : ChangedIn wide after before := by
  apply Set.EqOn.mono _ changed
  intro address outside
  simp only [Set.mem_compl_iff, Set.mem_Ico, not_and, not_lt] at outside ⊢
  rcases inside with ⟨starts, ends⟩
  omega

theorem get_eq (changed : ChangedIn region after before) (disjoint : field.Disjoint region) :
    after.get field = before.get field := by
  apply congrArg leNat
  apply load_congr
  intro address starts ends
  apply changed
  simp only [Set.mem_compl_iff, Set.mem_Ico, not_and, not_lt]
  unfold Field.Disjoint at disjoint
  omega

theorem apply_eq (changed : ChangedIn region after before) {address : ℕ}
    (inFront : address < region.offset) : after address = before address := by
  apply changed
  simp only [Set.mem_compl_iff, Set.mem_Ico, not_and, not_lt]
  omega

theorem load_eq (changed : ChangedIn region after before) {length : ℕ}
    (inFront : length ≤ region.offset) : load after 0 length = load before 0 length := by
  apply load_congr
  intro address _ ends
  apply changed
  simp only [Set.mem_compl_iff, Set.mem_Ico, not_and, not_lt]
  omega

end ChangedIn

theorem changedIn_sendNotification (block : Block) (notif : NotifCode) (bVal : ℕ)
    (pData : Option (List UInt8)) :
    ChangedIn .req (usbdCdcEcmSendNotification block notif bVal pData).1 block := by
  have header : ∀ wValue wIndex wLength : ℕ, ChangedIn .req
      (((((block.set .reqBmRequest cdcEcmBmrequestTypeEcm).set .reqBRequest notif.toNat).set
        .reqWValue wValue).set .reqWIndex wIndex).set .reqWLength wLength) block := by
    intro wValue wIndex wLength
    have start := ChangedIn.refl .req block
    exact ((((start.set (by decide)).set (by decide)).set (by decide)).set (by decide)).set
      (by decide)
  cases notif with
  | networkConnection => exact (header _ _ _).store (by decide) (by decide)
  | responseAvailable => exact (header _ _ _).store (by decide) (by decide)
  | connectionSpeedChange =>
      cases pData with
      | none => exact header _ _ _
      | some bytes =>
          apply (header _ _ _).store (by decide)
          exact List.length_take_le _ _

/-! ## The cases of `CDC_ECM_Itf_Control` -/

theorem control_other {cmd : UInt8} (other : cmd ≠ cdcEcmSetEthPacketFilter) :
    cdcEcmItfControl block cmd = ⟨block, [], none⟩ := by
  simp [cdcEcmItfControl, other]

theorem control_linked (linked : block.get .linkStatus ≠ 0) :
    cdcEcmItfControl block cdcEcmSetEthPacketFilter = ⟨block, [.linkStatus], none⟩ := by
  simp [cdcEcmItfControl, linked]

theorem get_set_linkStatus_notificationStatus (block : Block) (value : ℕ) :
    (block.set .linkStatus value).get .notificationStatus = block.get .notificationStatus :=
  Block.get_set_of_disjoint (by decide)

theorem control_notified (down : block.get .linkStatus = 0)
    (notified : block.get .notificationStatus ≠ 0) :
    cdcEcmItfControl block cdcEcmSetEthPacketFilter =
      ⟨block.set .linkStatus 1, [.linkStatus, .notificationStatus], none⟩ := by
  simp [cdcEcmItfControl, down, notified, get_set_linkStatus_notificationStatus]

/-- The first packet filter request brings the link up and sends `NETWORK_CONNECTION`. -/
theorem control_first (down : block.get .linkStatus = 0)
    (quiet : block.get .notificationStatus = 0) :
    cdcEcmItfControl block cdcEcmSetEthPacketFilter =
      let sent := usbdCdcEcmSendNotification (block.set .linkStatus 1) .networkConnection
        cdcEcmNetConnected none
      ⟨sent.1.set .notificationStatus 1, [.linkStatus, .notificationStatus, .req],
        some sent.2⟩ := by
  simp [cdcEcmItfControl, down, quiet, get_set_linkStatus_notificationStatus]

/-- Only the packet filter request touches the handle. -/
theorem touched_control_eq_nil_iff (cmd : UInt8) :
    (cdcEcmItfControl block cmd).touched = [] ↔ cmd ≠ cdcEcmSetEthPacketFilter := by
  by_cases filter : cmd = cdcEcmSetEthPacketFilter
  · subst filter
    by_cases down : block.get .linkStatus = 0
    · by_cases quiet : block.get .notificationStatus = 0
      · simp [control_first down quiet]
      · simp [control_notified down quiet]
    · simp [control_linked down]
  · simp [control_other filter, filter]

/-- The status fields and `Req`: what the class callbacks change of the handle. -/
def Field.statusAndReq : Field := ⟨2032, 24⟩

theorem changedIn_control (block : Block) (cmd : UInt8) :
    ChangedIn .statusAndReq (cdcEcmItfControl block cmd).block block := by
  have start := ChangedIn.refl .statusAndReq block
  have linked : ChangedIn .statusAndReq (block.set .linkStatus 1) block := start.set (by decide)
  by_cases filter : cmd = cdcEcmSetEthPacketFilter
  · subst filter
    by_cases down : block.get .linkStatus = 0
    · by_cases quiet : block.get .notificationStatus = 0
      · rw [control_first down quiet]
        have sent := (changedIn_sendNotification (block.set .linkStatus 1) .networkConnection
          cdcEcmNetConnected none).mono (by decide : Field.req.Inside .statusAndReq)
        exact ChangedIn.set (sent.trans linked) (by decide)
      · rw [control_notified down quiet]
        exact linked
    · rw [control_linked down]
      exact start
  · rw [control_other filter]
    exact start

/-- The handle without `data`. -/
def Field.behindData : Field := ⟨2000, 56⟩

theorem changedIn_control_behindData (block : Block) (cmd : UInt8) :
    ChangedIn .behindData (cdcEcmItfControl block cmd).block block :=
  (changedIn_control block cmd).mono (by decide)

theorem changedIn_init (buffers : UserBuffers) (block : Block) :
    ChangedIn .behindData (usbdCdcEcmInit buffers block) block := by
  have start := ChangedIn.refl .behindData block
  have opened : ChangedIn .behindData (cdcEcmItfInit buffers block) block :=
    ((start.set (by decide)).set (by decide)).set (by decide)
  have idle : ChangedIn .behindData
      (((((cdcEcmItfInit buffers block).set .txState 0).set .rxState 0).set .rxLength 0).set
        .txLength 0) block :=
    (((opened.set (by decide)).set (by decide)).set (by decide)).set (by decide)
  exact ((idle.set (by decide)).set (by decide)).set (by decide)

theorem changedIn_ep0RxReady {done : ControlDone}
    (passed : usbdCdcEcmEp0RxReady block = some done) :
    ChangedIn .behindData done.block block := by
  simp only [usbdCdcEcmEp0RxReady] at passed
  split at passed
  · cases passed
    exact (changedIn_control_behindData block _).set (by decide)
  · cases passed

theorem changedIn_setupClass (block : Block) (bmRequest bRequest : UInt8) (wLength : UInt16) :
    ChangedIn .behindData (usbdCdcEcmSetupClass block bmRequest bRequest wLength).block block := by
  unfold usbdCdcEcmSetupClass
  split
  · split
    · exact changedIn_control_behindData block bRequest
    · exact ((ChangedIn.refl _ block).set (by decide)).set (by decide)
  · exact changedIn_control_behindData block bRequest

end MqttAccelero.Usb.Control
