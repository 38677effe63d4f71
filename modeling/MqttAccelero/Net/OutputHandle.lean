import MqttAccelero.Net.CoreThreads
import MqttAccelero.Net.EventLoop
import MqttAccelero.Net.Output

/-!
# The class handle under transmission

From `net_init` on: `main_netif_setup` and `usb_ecm_init` on the thread `app`,
the receive loop with its link events, the USB interrupt, and calls of
`ll_output_cb` on any thread whenever the flags of `main_netif` let a frame out.
Setting the second of the two flags sends a gratuitous ARP from the thread which
sets it, unless no pbuf can be had for it.
-/

namespace MqttAccelero.Net

open Usb UsbDevice

/-- The statement of the thread `app` that comes next. -/
inductive SetupPc where
  | netifAdd
  | netifSetUp
  | netifSetLinkUp
  | createThread
  | usbEcmInit
  | done
deriving DecidableEq

/-- A field of the handle `pointer` is read or written while `installed` is in `pClassData`. -/
structure TxAccess where
  pointer : Option HandleId
  installed : Option HandleId

def TxAccess.Valid (access : TxAccess) : Prop :=
  access.pointer ≠ none ∧ access.pointer = access.installed

structure LinkOutputState where
  setup : SetupPc
  /-- `NETIF_FLAG_UP`; `NETIF_FLAG_LINK_UP` is part of the loop's state. -/
  up : Bool
  net : NetState
  /-- The call of `ll_output_cb` on each thread; the last one where none is in progress. -/
  calls : CoreThread → OutputPc
  accesses : List TxAccess

/-- The payloads of the pbuf chain of a gratuitous ARP; `none` if there is no pbuf for it. -/
abbrev Report := Option (List (List UInt8))

inductive LinkOutputEvent where
  | usb (event : UsbEvent)
  | setup (report : Report)
  | loop (results : CallResults) (report : Report)
  | send (thread : CoreThread) (p : List (List UInt8))
  | output (thread : CoreThread)

def OutputPc.returned : OutputPc → Bool
  | .ret _ => true
  | _ => false

namespace LinkOutputState

def withCall (state : LinkOutputState) (thread : CoreThread) (pc : OutputPc) : LinkOutputState :=
  { state with calls := fun other => if other = thread then pc else state.calls other }

def linkUp (state : LinkOutputState) : Bool :=
  state.net.loop.linkUp

def setLinkUp (state : LinkOutputState) (linkUp : Bool) : LinkOutputState :=
  { state with net := { state.net with loop := { state.net.loop with linkUp } } }

def issueReports (state : LinkOutputState) (thread : CoreThread) (report : Report) :
    LinkOutputState :=
  if state.up ∧ state.linkUp then
    match report with
    | some p => state.withCall thread (.loadHandle p)
    | none => state
  else state

end LinkOutputState

def setupStep (state : LinkOutputState) (report : Report) : Option LinkOutputState :=
  match state.setup with
  | .netifAdd => some ({ state with setup := .netifSetUp, up := false }.setLinkUp false)
  | .netifSetUp =>
      let next := { state with setup := .netifSetLinkUp }
      if state.up then some next else some ({ next with up := true }.issueReports .app report)
  | .netifSetLinkUp =>
      let next := { state with setup := .createThread }
      if state.linkUp then some next else some ((next.setLinkUp true).issueReports .app report)
  | .createThread => some { state with setup := .usbEcmInit }
  | .usbEcmInit => some { state with setup := .done }
  | .done => none

/-- A step of the receive loop, with the report of `netif_set_link_up` if it set the flag. -/
def linkLoopStep (state : LinkOutputState) (results : CallResults) (report : Report) :
    Option LinkOutputState :=
  (loopStep results state.net).map fun net =>
    let next := { state with net }
    if net.loop.linkUp && !state.linkUp then next.issueReports .lwipInput report else next

def linkOutputStep (state : LinkOutputState) : LinkOutputEvent → Option LinkOutputState
  | .usb event =>
      -- the bus sees the device from `usb_ecm_init` on
      if state.setup = .done then
        (usbStep state.net.usb event).map fun usb => { state with net := { state.net with usb } }
      else none
  | .setup report => if (state.calls .app).returned then setupStep state report else none
  | .loop results report =>
      if (state.setup = .usbEcmInit ∨ state.setup = .done) ∧ (state.calls .lwipInput).returned then
        linkLoopStep state results report
      else none
  | .send thread p =>
      if state.up ∧ state.linkUp ∧ (state.calls thread).returned then
        some (state.withCall thread (.loadHandle p))
      else none
  | .output thread =>
      (outputStep state.net.usb (state.calls thread)).map fun (usb, pc) =>
        let stepped := { state with net := { state.net with usb } }.withCall thread pc
        match (state.calls thread).access with
        | some pointer =>
            { stepped with
              accesses := state.accesses ++ [⟨pointer, state.net.usb.installed⟩] }
        | none => stepped

def linkOutputSystem : System LinkOutputState LinkOutputEvent where
  init :=
    { setup := .netifAdd
      up := false
      net := ⟨bootDevice, ⟨.notifyWait, none, 0, false, []⟩⟩
      calls := fun _ => .ret errOk
      accesses := [] }
  step := linkOutputStep

/-! ## When the handle stays valid -/

/-- The pointer which this and later statements go through. -/
def OutputPc.holds : OutputPc → Option (Option HandleId)
  | .loadTxBuffer hcdc _ | .busyWait hcdc _ _ | .clearTxLength hcdc _ | .copySegment hcdc _ _
  | .addTxLength hcdc _ _ _ | .readTxLength hcdc | .storeTxLength hcdc _ | .testTxState hcdc
  | .setTxState hcdc | .setTotalLength hcdc | .llTransmit hcdc => some hcdc
  | .loadHandle _ | .setTxBuffer _ | .transmitPacket | .testHandle _ | .ret _ | .fault => none

/-- What a pointer that `ll_output_cb` loads or tests here must find installed. -/
def OutputPc.Finds (installed : Option HandleId) : OutputPc → Prop
  | .loadHandle _ | .setTxBuffer _ => installed ≠ none
  | .testHandle pointer => installed ≠ none → pointer = installed
  | _ => True

/--
The handle is loaded where one is installed, the NULL check of `TransmitPacket`
does not look at another handle than the loaded one, and DeInit does not fire
while a call goes on to use its pointer.
-/
def KeepsTxHandle (state : LinkOutputState) : LinkOutputEvent → Prop
  | .output thread => (state.calls thread).Finds state.net.usb.installed
  | .usb .classDeInit => ∀ thread, (state.calls thread).holds = none
  | _ => True

instance (installed : Option HandleId) : DecidablePred (OutputPc.Finds installed)
  | .loadHandle _ | .setTxBuffer _ => inferInstanceAs (Decidable (installed ≠ none))
  | .testHandle pointer => inferInstanceAs (Decidable (installed ≠ none → pointer = installed))
  | .loadTxBuffer _ _ | .busyWait _ _ _ | .clearTxLength _ _ | .copySegment _ _ _
  | .addTxLength _ _ _ _ | .readTxLength _ | .storeTxLength _ _ | .transmitPacket
  | .testTxState _ | .setTxState _ | .setTotalLength _ | .llTransmit _ | .ret _ | .fault =>
      inferInstanceAs (Decidable True)

instance (state : LinkOutputState) : ∀ event, Decidable (KeepsTxHandle state event)
  | .output thread => inferInstanceAs (Decidable ((state.calls thread).Finds _))
  | .usb .classDeInit => inferInstanceAs (Decidable (∀ thread, (state.calls thread).holds = none))
  | .usb (.classInit _) | .usb (.outPacket _) | .usb .inPacket | .usb .dataIn
  | .setup _ | .loop _ _ | .send _ _ => inferInstanceAs (Decidable True)

/-- A call that goes on to use its pointer has the installed handle in it. -/
def OutputPc.HoldsInstalled (installed : Option HandleId) (pc : OutputPc) : Prop :=
  ∀ pointer, pc.holds = some pointer → pointer ≠ none ∧ pointer = installed

structure TxHandleValid (state : LinkOutputState) : Prop where
  calls : ∀ thread, (state.calls thread).HoldsInstalled state.net.usb.installed
  accesses : ∀ access ∈ state.accesses, access.Valid

theorem OutputPc.holds_of_access {pc : OutputPc} {pointer : Option HandleId}
    (access : pc.access = some pointer) : pc.holds = some pointer := by
  cases pc with
  | loadHandle | copySegment | setTxBuffer | transmitPacket | testHandle | ret | fault =>
      cases access
  | _ => exact access

theorem OutputPc.HoldsInstalled.of_released {installed : Option HandleId} {pc : OutputPc}
    (released : pc.holds = none) : pc.HoldsInstalled installed := by
  intro pointer holds
  rw [released] at holds
  cases holds

theorem OutputPc.HoldsInstalled.of_same {installed : Option HandleId} {pc after : OutputPc}
    (valid : pc.HoldsInstalled installed) (same : after.holds = pc.holds) :
    after.HoldsInstalled installed := by
  intro pointer holds
  exact valid pointer (same ▸ holds)

theorem OutputPc.HoldsInstalled.of_loaded {installed : Option HandleId} {after : OutputPc}
    (present : installed ≠ none) (loaded : after.holds = some installed) :
    after.HoldsInstalled installed := by
  intro pointer holds
  rw [loaded] at holds
  cases holds
  exact ⟨present, rfl⟩

/-! ## One step of a call -/

/-- The handle stays installed, and the call goes on with a valid pointer. -/
structure KeepsInstalled (before : Option HandleId) (result : UsbDevice × OutputPc) : Prop where
  installed : result.1.installed = before
  holds : result.2.HoldsInstalled before

theorem KeepsInstalled.withTxHandle {usb : UsbDevice} {pointer : Option HandleId}
    {next : ClassHandle → UsbDevice × OutputPc}
    (keeps : ∀ hcdc, KeepsInstalled usb.installed (next hcdc)) :
    KeepsInstalled usb.installed (Net.withTxHandle usb pointer next) := by
  rcases withTxHandle_cases usb pointer next with ⟨hcdc, -, -, through⟩ | ⟨-, faulted⟩
  · rw [through]
    exact keeps hcdc
  · rw [faulted]
    exact ⟨rfl, .of_released rfl⟩

theorem outputStep_keepsInstalled {usb : UsbDevice} {pc : OutputPc}
    {result : UsbDevice × OutputPc} (valid : pc.HoldsInstalled usb.installed)
    (finds : pc.Finds usb.installed) (stepped : outputStep usb pc = some result) :
    KeepsInstalled usb.installed result := by
  cases pc with
  | loadHandle p | setTxBuffer length =>
      cases stepped
      exact ⟨rfl, .of_loaded finds rfl⟩
  | transmitPacket =>
      cases stepped
      exact ⟨rfl, .of_released rfl⟩
  | testHandle pointer =>
      simp only [outputStep] at stepped
      split at stepped
      · cases stepped
        exact ⟨rfl, .of_released rfl⟩
      · rename_i present
        cases stepped
        exact ⟨rfl, .of_loaded present (congrArg some (finds present))⟩
  | copySegment pointer pdata rest =>
      cases rest with
      | nil =>
          cases stepped
          exact ⟨rfl, valid.of_same rfl⟩
      | cons curr rest =>
          cases stepped
          exact ⟨rfl, valid.of_same rfl⟩
  | loadTxBuffer pointer p | setTotalLength pointer =>
      cases stepped
      apply KeepsInstalled.withTxHandle
      intro hcdc
      exact ⟨rfl, valid.of_same rfl⟩
  | readTxLength pointer | llTransmit pointer =>
      cases stepped
      apply KeepsInstalled.withTxHandle
      intro hcdc
      exact ⟨rfl, .of_released rfl⟩
  | clearTxLength pointer p | addTxLength pointer pdata len rest | setTxState pointer =>
      cases stepped
      apply KeepsInstalled.withTxHandle
      intro hcdc
      refine ⟨installed_updateHandle _ ?_, valid.of_same rfl⟩
      intro _
      rfl
  | storeTxLength pointer length =>
      cases stepped
      apply KeepsInstalled.withTxHandle
      intro hcdc
      refine ⟨installed_updateHandle _ ?_, .of_released rfl⟩
      intro _
      rfl
  | busyWait pointer tries p =>
      cases stepped
      apply KeepsInstalled.withTxHandle
      intro hcdc
      split
      · exact ⟨rfl, valid.of_same rfl⟩
      · split
        · exact ⟨rfl, .of_released rfl⟩
        · exact ⟨rfl, valid.of_same rfl⟩
  | testTxState pointer =>
      cases stepped
      apply KeepsInstalled.withTxHandle
      intro hcdc
      split
      · exact ⟨rfl, valid.of_same rfl⟩
      · exact ⟨rfl, .of_released rfl⟩
  | ret | fault => cases stepped

/-! ## One step of the system -/

theorem loopStep_installed {net next : NetState} {results : CallResults}
    (stepped : loopStep results net = some next) : next.usb.installed = net.usb.installed := by
  by_cases onPacket : net.loop.pc.onPacket = true
  · exact (loopStep_onPacket stepped onPacket).installed
  · cases pc : net.loop.pc with
    | notifyWait | setLinkUp flags | setLinkDown flags | newPacket flags =>
        simp only [loopStep, pc] at stepped
        split at stepped <;> cases stepped <;> rfl
    | loadHcdc flags | clearHcdc flags =>
        simp only [loopStep, pc] at stepped
        cases stepped
        rfl
    | fault => simp [loopStep, pc] at stepped
    | _ => simp [pc, LoopPc.onPacket] at onPacket

namespace TxHandleValid

variable {state next : LinkOutputState}

theorem withCall (valid : TxHandleValid state) (thread : CoreThread) {pc : OutputPc}
    (holds : pc.HoldsInstalled state.net.usb.installed) :
    TxHandleValid (state.withCall thread pc) := by
  refine ⟨?_, valid.accesses⟩
  intro other
  simp only [LinkOutputState.withCall]
  split
  · exact holds
  · exact valid.calls other

theorem issueReports (valid : TxHandleValid state) (thread : CoreThread) (report : Report) :
    TxHandleValid (state.issueReports thread report) := by
  simp only [LinkOutputState.issueReports]
  split
  · split
    · exact valid.withCall thread (.of_released rfl)
    · exact valid
  · exact valid

theorem setup_step {report : Report} (valid : TxHandleValid state)
    (stepped : setupStep state report = some next) : TxHandleValid next := by
  simp only [setupStep] at stepped
  split at stepped
  · cases stepped
    exact ⟨valid.calls, valid.accesses⟩
  · split at stepped
    · cases stepped
      exact ⟨valid.calls, valid.accesses⟩
    · cases stepped
      apply TxHandleValid.issueReports
      exact ⟨valid.calls, valid.accesses⟩
  · split at stepped
    · cases stepped
      exact ⟨valid.calls, valid.accesses⟩
    · cases stepped
      apply TxHandleValid.issueReports
      exact ⟨valid.calls, valid.accesses⟩
  · cases stepped
    exact ⟨valid.calls, valid.accesses⟩
  · cases stepped
    exact ⟨valid.calls, valid.accesses⟩
  · cases stepped

theorem loop_step {results : CallResults} {report : Report} (valid : TxHandleValid state)
    (stepped : linkLoopStep state results report = some next) : TxHandleValid next := by
  rcases Option.map_eq_some_iff.mp stepped with ⟨net, looped, shape⟩
  have looping : TxHandleValid { state with net } := by
    refine ⟨?_, valid.accesses⟩
    intro thread
    rw [loopStep_installed looped]
    exact valid.calls thread
  simp only at shape
  split at shape
  · subst shape
    exact looping.issueReports .lwipInput report
  · subst shape
    exact looping

theorem usb_step {event : UsbEvent} {usb : UsbDevice} (valid : TxHandleValid state)
    (keeps : KeepsTxHandle state (.usb event)) (stepped : usbStep state.net.usb event = some usb) :
    TxHandleValid { state with net := { state.net with usb } } := by
  refine ⟨?_, valid.accesses⟩
  intro thread pointer holds
  have before := valid.calls thread pointer holds
  have stays : event ≠ .classDeInit := by
    rintro rfl
    rw [keeps thread] at holds
    cases holds
  have present : state.net.usb.installed ≠ none := before.2 ▸ before.1
  rw [installed_of_usbStep stepped present stays]
  exact before

theorem output_step {thread : CoreThread} (valid : TxHandleValid state)
    (keeps : KeepsTxHandle state (.output thread))
    (stepped : linkOutputStep state (.output thread) = some next) : TxHandleValid next := by
  rcases Option.map_eq_some_iff.mp stepped with ⟨⟨usb, pc⟩, outputs, shape⟩
  have held := valid.calls thread
  have kept := outputStep_keepsInstalled held keeps outputs
  have sameInstalled : usb.installed = state.net.usb.installed := kept.installed
  have moved : TxHandleValid { state with net := { state.net with usb } } := by
    refine ⟨?_, valid.accesses⟩
    intro other
    rw [sameInstalled]
    exact valid.calls other
  have entered : TxHandleValid
      (LinkOutputState.withCall { state with net := { state.net with usb } } thread pc) := by
    apply moved.withCall
    rw [sameInstalled]
    exact kept.holds
  simp only at shape
  split at shape
  · rename_i pointer access
    subst shape
    refine ⟨entered.calls, ?_⟩
    intro seen member
    rcases List.mem_append.mp member with before | now
    · exact valid.accesses seen before
    · cases List.mem_singleton.mp now
      exact held pointer (OutputPc.holds_of_access access)
  · subst shape
    exact entered

theorem step {event : LinkOutputEvent} (valid : TxHandleValid state)
    (keeps : KeepsTxHandle state event) (stepped : linkOutputStep state event = some next) :
    TxHandleValid next := by
  cases event with
  | usb event =>
      simp only [linkOutputStep] at stepped
      split at stepped
      · rcases Option.map_eq_some_iff.mp stepped with ⟨usb, steppedUsb, rfl⟩
        exact valid.usb_step keeps steppedUsb
      · cases stepped
  | setup report =>
      simp only [linkOutputStep] at stepped
      split at stepped
      · exact valid.setup_step stepped
      · cases stepped
  | loop results report =>
      simp only [linkOutputStep] at stepped
      split at stepped
      · exact valid.loop_step stepped
      · cases stepped
  | send thread p =>
      simp only [linkOutputStep] at stepped
      split at stepped
      · cases stepped
        exact valid.withCall thread (.of_released rfl)
      · cases stepped
  | output thread => exact valid.output_step keeps stepped

theorem init : TxHandleValid linkOutputSystem.init := by
  constructor
  · intro thread
    exact .of_released rfl
  · intro access member
    cases member

end TxHandleValid

/--
In every run whose steps keep the transmit handle, each access of `ll_output_cb`
goes through the handle installed at that moment.
-/
theorem output_accesses_valid {events : List LinkOutputEvent} {state : LinkOutputState}
    (ran : linkOutputSystem.run events = some state)
    (keeps : linkOutputSystem.Along KeepsTxHandle linkOutputSystem.init events) :
    ∀ access ∈ state.accesses, access.Valid := by
  refine (System.invariant_along TxHandleValid ?_ TxHandleValid.init ran keeps).accesses
  intro current event next valid kept stepped
  exact valid.step kept stepped

/-- `net_init` and `usb_ecm_init`, no pbuf being left for the gratuitous ARP. -/
def silentSetup : List LinkOutputEvent :=
  List.replicate 5 (.setup none)

/-- A frame is sent by lwIP's own thread once the class is configured. -/
def firstOutput : List LinkOutputEvent :=
  silentSetup ++ [.usb (.classInit true), .send .tcpip [[0]]] ++
    List.replicate 16 (.output .tcpip)

theorem output_accesses_valid_first_output :
    linkOutputSystem.Along KeepsTxHandle linkOutputSystem.init firstOutput ∧
      ∀ access ∈ (linkOutputSystem.final firstOutput (by decide +kernel)).accesses, access.Valid :=
  ⟨by decide +kernel,
    output_accesses_valid (System.run_final (by decide +kernel)) (by decide +kernel)⟩

/-- `netif_set_link_up` of `main_netif_setup` sends the gratuitous ARP before `usb_ecm_init`. -/
def gratuitousArpAtSetup : List LinkOutputEvent :=
  List.replicate 3 (.setup (some [List.replicate 42 0])) ++ List.replicate 2 (.output .app)

theorem output_accesses_valid_violated :
    ¬∀ events state, linkOutputSystem.run events = some state →
      ∀ access ∈ state.accesses, access.Valid := by
  intro valid
  have ran : ((linkOutputSystem.run gratuitousArpAtSetup).map fun state => state.accesses) =
      some [⟨none, none⟩] := by rfl
  rcases Option.map_eq_some_iff.mp ran with ⟨state, reached, accesses⟩
  have invalid := valid _ _ reached ⟨none, none⟩ (by simp [accesses])
  exact invalid.1 rfl

end MqttAccelero.Net
