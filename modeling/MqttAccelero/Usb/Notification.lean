import MqttAccelero.Lib.System
import MqttAccelero.Usb.Control

/-!
# The notification handshake

A session lasts from class Init to class DeInit. The host sends class requests
and takes what is in flight on the command endpoint; the device sends
`NETWORK_CONNECTION` and, when that has gone, `CONNECTION_SPEED_CHANGE`.

`LinkStatus` is set by the interface and `NotificationStatus` by both files. The
two flags and the transfer in flight go through three phases together.
-/

namespace MqttAccelero.Usb.Control

open Memory

/-- One execution of `USBD_CDC_ECM_SendNotification`, which rewrites `Req` and starts a transfer. -/
structure Started where
  code : NotifCode
  /-- A notification was in flight already. -/
  busy : Bool
deriving DecidableEq, Repr

structure NotifSession where
  block : Block
  /-- The transfer on the command endpoint. -/
  inFlight : Option Notification
  started : List Started

inductive SessionEvent where
  /-- A class request that reaches `CDC_ECM_Itf_Control`. -/
  | control (cmd : UInt8)
  /-- The IN completion of the command endpoint; there is one for a transfer in flight only. -/
  | completion
deriving DecidableEq, Repr

namespace NotifSession

/-- The session after a callback that leaves `block` and may have sent a notification. -/
def after (session : NotifSession) (block : Block) : Option Notification → NotifSession
  | none => { session with block := block }
  | some notification =>
      { block := block
        inFlight := some notification
        started := session.started ++ [⟨notification.code, session.inFlight.isSome⟩] }

end NotifSession

def sessionStep (session : NotifSession) : SessionEvent → Option NotifSession
  | .control cmd =>
      let done := cdcEcmItfControl session.block cmd
      some (session.after done.block done.notified)
  | .completion =>
      session.inFlight.map fun _ =>
        let (block, notified) := usbdCdcEcmDataInCmd session.block
        { session with inFlight := none }.after block notified

/-- A session starts with class Init on whatever block `malloc` returns. -/
def notifSystem (buffers : UserBuffers) (block : Block) : System NotifSession SessionEvent where
  init := ⟨usbdCdcEcmInit buffers block, none, []⟩
  step := sessionStep

/-! ## Phases -/

def packetFilter : SessionEvent := .control cdcEcmSetEthPacketFilter

/-- `Req` holds what has been handed to the endpoint. -/
def NotifSession.ReqKept (session : NotifSession) : Prop :=
  ∀ notification, session.inFlight = some notification →
    load session.block Field.req.offset notification.bytes.length = notification.bytes

/-- How the flags, the transfer in flight and the events so far belong together. -/
inductive HandshakePhase (past : List SessionEvent) (session : NotifSession) : Prop where
  | silent (noFilter : packetFilter ∉ past) (noCompletion : .completion ∉ past)
      (down : session.block.get .linkStatus = 0)
      (quiet : session.block.get .notificationStatus = 0) (idle : session.inFlight = none)
      (started : session.started = [])
  | connecting (filter : packetFilter ∈ past) (noCompletion : .completion ∉ past)
      (linked : session.block.get .linkStatus = 1)
      (pending : session.block.get .notificationStatus = 1)
      (busy : session.inFlight.isSome)
      (started : session.started = [⟨.networkConnection, false⟩])
  | changing (filter : packetFilter ∈ past) (completion : .completion ∈ past)
      (linked : session.block.get .linkStatus = 1)
      (quiet : session.block.get .notificationStatus = 0)
      (started : session.started =
        [⟨.networkConnection, false⟩, ⟨.connectionSpeedChange, false⟩])

variable {past : List SessionEvent} {session next : NotifSession} {buffers : UserBuffers}
  {block : Block}

/-- Init clears both flags. -/
theorem init_flags (buffers : UserBuffers) (block : Block) :
    (usbdCdcEcmInit buffers block).get .linkStatus = 0 ∧
      (usbdCdcEcmInit buffers block).get .notificationStatus = 0 := by
  constructor
  · have later : Field.linkStatus.Disjoint .maxPcktLen := by decide
    have last : Field.linkStatus.Disjoint .notificationStatus := by decide
    simp only [usbdCdcEcmInit, Block.get_set_of_disjoint later, Block.get_set_of_disjoint last]
    exact Block.get_set_self (by decide)
  · have later : Field.notificationStatus.Disjoint .maxPcktLen := by decide
    simp only [usbdCdcEcmInit, Block.get_set_of_disjoint later]
    exact Block.get_set_self (by decide)

theorem HandshakePhase.init (buffers : UserBuffers) (block : Block) :
    HandshakePhase [] (notifSystem buffers block).init := by
  rcases init_flags buffers block with ⟨down, quiet⟩
  exact .silent List.not_mem_nil List.not_mem_nil down quiet rfl rfl

/-- What the first packet filter request leaves in the flags. -/
theorem control_first_flags (down : block.get .linkStatus = 0)
    (quiet : block.get .notificationStatus = 0) :
    (cdcEcmItfControl block cdcEcmSetEthPacketFilter).block.get .linkStatus = 1 ∧
      (cdcEcmItfControl block cdcEcmSetEthPacketFilter).block.get .notificationStatus = 1 := by
  rw [control_first down quiet]
  have other : Field.linkStatus.Disjoint .notificationStatus := by decide
  have unsent := changedIn_sendNotification (block.set .linkStatus 1) .networkConnection
    cdcEcmNetConnected none
  constructor
  · rw [Block.get_set_of_disjoint other, unsent.get_eq (by decide)]
    exact Block.get_set_self (by decide)
  · exact Block.get_set_self (by decide)

theorem dataIn_quiet (quiet : block.get .notificationStatus = 0) :
    usbdCdcEcmDataInCmd block = (block, none) := by
  simp [usbdCdcEcmDataInCmd, quiet]

theorem dataIn_pending (pending : block.get .notificationStatus = 1) :
    usbdCdcEcmDataInCmd block =
      let sent := usbdCdcEcmSendNotification block .connectionSpeedChange 0 (some connSpeedTab)
      (sent.1.set .notificationStatus 0, some sent.2) := by
  simp [usbdCdcEcmDataInCmd, pending]

theorem sendNotification_code (block : Block) (notif : NotifCode) (bVal : ℕ)
    (pData : Option (List UInt8)) :
    (usbdCdcEcmSendNotification block notif bVal pData).2.code = notif := rfl

/-- What is handed to the endpoint is what `Req` holds. -/
theorem sendNotification_bytes (block : Block) (notif : NotifCode) (bVal : ℕ)
    (pData : Option (List UInt8)) :
    let sent := usbdCdcEcmSendNotification block notif bVal pData
    load sent.1 Field.req.offset sent.2.bytes.length = sent.2.bytes := by
  simp [usbdCdcEcmSendNotification]

/-- An event that does nothing and is not the first of its kind. -/
theorem HandshakePhase.unchanged {event : SessionEvent} (phase : HandshakePhase past session)
    (sameFilter : packetFilter ∈ past ++ [event] ↔ packetFilter ∈ past)
    (sameCompletion : .completion ∈ past ++ [event] ↔ .completion ∈ past) :
    HandshakePhase (past ++ [event]) session := by
  cases phase with
  | silent noFilter noCompletion down quiet idle started =>
      exact .silent (mt sameFilter.mp noFilter) (mt sameCompletion.mp noCompletion) down quiet idle
        started
  | connecting filter noCompletion linked pending busy started =>
      exact .connecting (sameFilter.mpr filter) (mt sameCompletion.mp noCompletion) linked pending
        busy started
  | changing filter completion linked quiet started =>
      exact .changing (sameFilter.mpr filter) (sameCompletion.mpr completion) linked quiet started

theorem HandshakePhase.control_step {cmd : UInt8} (phase : HandshakePhase past session)
    (stepped : sessionStep session (.control cmd) = some next) :
    HandshakePhase (past ++ [.control cmd]) next := by
  cases stepped
  have sameCompletion : .completion ∈ past ++ [SessionEvent.control cmd] ↔
      .completion ∈ past := by
    simp
  by_cases filter : cmd = cdcEcmSetEthPacketFilter
  · subst filter
    have hasFilter : packetFilter ∈ past ++ [packetFilter] := by simp
    cases phase with
    | silent noFilter noCompletion down quiet idle started =>
        rcases control_first_flags down quiet with ⟨linked, pending⟩
        have notified : (cdcEcmItfControl session.block cdcEcmSetEthPacketFilter).notified =
            some (usbdCdcEcmSendNotification (session.block.set .linkStatus 1) .networkConnection
              cdcEcmNetConnected none).2 := by
          rw [control_first down quiet]
        rw [notified]
        refine .connecting hasFilter (mt sameCompletion.mp noCompletion) linked pending rfl ?_
        simp [NotifSession.after, started, idle, sendNotification_code]
    | connecting filter noCompletion linked pending busy started =>
        rw [control_linked (by omega)]
        exact .connecting hasFilter (mt sameCompletion.mp noCompletion) linked pending busy started
    | changing filter completion linked quiet started =>
        rw [control_linked (by omega)]
        exact .changing hasFilter (sameCompletion.mpr completion) linked quiet started
  · have sameFilter : packetFilter ∈ past ++ [SessionEvent.control cmd] ↔
        packetFilter ∈ past := by
      simp only [List.mem_append, List.mem_singleton, packetFilter, SessionEvent.control.injEq,
        or_iff_left_iff_imp]
      intro same
      exact absurd same.symm filter
    rw [control_other filter]
    exact phase.unchanged sameFilter sameCompletion

theorem HandshakePhase.completion_step (phase : HandshakePhase past session)
    (stepped : sessionStep session .completion = some next) :
    HandshakePhase (past ++ [.completion]) next := by
  simp only [sessionStep, Option.map_eq_some_iff] at stepped
  rcases stepped with ⟨completed, inFlight, rfl⟩
  have sameFilter : packetFilter ∈ past ++ [SessionEvent.completion] ↔ packetFilter ∈ past := by
    simp [packetFilter]
  have hasCompletion : SessionEvent.completion ∈ past ++ [.completion] := by simp
  cases phase with
  | silent noFilter noCompletion down quiet idle started =>
      rw [idle] at inFlight
      cases inFlight
  | connecting filter noCompletion linked pending busy started =>
      rw [dataIn_pending pending]
      have sent := changedIn_sendNotification session.block .connectionSpeedChange 0
        (some connSpeedTab)
      have other : Field.linkStatus.Disjoint .notificationStatus := by decide
      refine .changing (sameFilter.mpr filter) hasCompletion ?_ (Block.get_set_self (by decide)) ?_
      · simp only [NotifSession.after]
        rw [Block.get_set_of_disjoint other, sent.get_eq (by decide)]
        exact linked
      · simp [NotifSession.after, started, sendNotification_code]
  | changing filter completion linked quiet started =>
      rw [dataIn_quiet quiet]
      exact .changing (sameFilter.mpr filter) hasCompletion linked quiet started

/-! ## What is in flight stays as it is -/

theorem load_req_set_status (block : Block) (value length : ℕ) :
    load (block.set .notificationStatus value) Field.req.offset length =
      load block Field.req.offset length := by
  apply load_store_of_disjoint
  right
  simp [Field.notificationStatus, Field.req]

theorem NotifSession.ReqKept.step {event : SessionEvent} (phase : HandshakePhase past session)
    (kept : session.ReqKept) (stepped : sessionStep session event = some next) :
    next.ReqKept := by
  cases event with
  | control cmd =>
      cases stepped
      by_cases filter : cmd = cdcEcmSetEthPacketFilter
      · subst filter
        cases phase with
        | silent noFilter noCompletion down quiet idle started =>
            rw [control_first down quiet]
            rintro notification ⟨⟩
            rw [NotifSession.after, load_req_set_status]
            exact sendNotification_bytes _ _ _ _
        | connecting filter noCompletion linked pending busy started =>
            rw [control_linked (by omega)]
            exact kept
        | changing filter completion linked quiet started =>
            rw [control_linked (by omega)]
            exact kept
      · rw [control_other filter]
        exact kept
  | completion =>
      simp only [sessionStep, Option.map_eq_some_iff] at stepped
      rcases stepped with ⟨completed, inFlight, rfl⟩
      by_cases pending : session.block.get .notificationStatus = 0
      · rw [dataIn_quiet pending]
        rintro notification ⟨⟩
      · simp only [usbdCdcEcmDataInCmd, ne_eq, pending, not_false_eq_true, if_true]
        rintro notification ⟨⟩
        rw [NotifSession.after, load_req_set_status]
        exact sendNotification_bytes _ _ _ _

/-! ## The handshake -/

/-- The notifications that belong to the events of a session. -/
def expected (events : List SessionEvent) : List NotifCode :=
  (if packetFilter ∈ events then [.networkConnection] else []) ++
    (if .completion ∈ events then [.connectionSpeedChange] else [])

def HandshakeInv (past : List SessionEvent) (session : NotifSession) : Prop :=
  HandshakePhase past session ∧ session.ReqKept

theorem HandshakeInv.of_run {events : List SessionEvent} {final : NotifSession}
    (ran : (notifSystem buffers block).run events = some final) :
    HandshakeInv events final := by
  have unguarded := System.along_true (notifSystem buffers block)
    (notifSystem buffers block).init events
  refine System.history_invariant_along ?_ ?_ ran unguarded
  · rintro past current event next - ⟨phase, kept⟩ - stepped
    refine ⟨?_, kept.step phase stepped⟩
    cases event with
    | control cmd => exact phase.control_step stepped
    | completion => exact phase.completion_step stepped
  · refine ⟨HandshakePhase.init buffers block, ?_⟩
    rintro notification ⟨⟩

/-- Two packet filter requests, the completion, another request and another completion. -/
def handshakeRun : List SessionEvent :=
  [packetFilter, packetFilter, .completion, .control 0x44, .completion]

theorem handshakeRun_enabled :
    ((notifSystem ⟨0x20000000, 0x20001000⟩ fun _ => 0xa5).run handshakeRun).isSome := by
  decide +kernel

end MqttAccelero.Usb.Control
