import Mathlib.Data.Int.Notation
import MqttAccelero.Lib.System
import MqttAccelero.Net.Pbuf
import MqttAccelero.Usb.Device

/-!
# The receive loop

`net_event_loop` and `ll_input` as a machine of single steps, between any two of
which the USB interrupt may run. A step ends where the code touches state which
the interrupt shares with it: the notification value, `pClassData`, the fields
of the class handle, the endpoints.

Accesses through a handle pointer are checked against the installed handle. An
access through NULL or through a released handle is undefined behaviour: it is
recorded, and the thread takes no further step.
-/

namespace MqttAccelero.Net

open Usb

/-- What an observer of the loop thread sees, in order. -/
inductive LoopAct where
  /-- A field of the handle `pointer` is read or written while `installed` is in `pClassData`. -/
  | access (pointer installed : Option HandleId)
  /-- `RxLength`/`RxState` are reset or the OUT endpoint is armed, `armed` being its state. -/
  | rearm (armed : Bool)
  | lock
  | unlock
  | pbufAlloc (length : ℕ) (succeeded : Bool)
  /-- `netif->input` on a chain with this payload, and its result. -/
  | input (frame : List UInt8) (err : ℤ)
  | pbufFree (frame : List UInt8)
  /-- `USBD_LL_PrepareReceive` at this offset into `UserRxBuffer`. -/
  | prepareReceive (offset size : ℕ)
deriving DecidableEq, Repr

/-- The next statement of the loop, with the local variables it needs. -/
inductive LoopPc where
  | notifyWait
  | setLinkUp (flags : NetEvents)
  | loadHcdc (flags : NetEvents)
  | setLinkDown (flags : NetEvents)
  | clearHcdc (flags : NetEvents)
  | newPacket (flags : NetEvents)
  | llInput
  | testRxLength (hcdc : Option HandleId)
  | testRxState (hcdc : Option HandleId)
  | pbufAlloc (hcdc : Option HandleId)
  | copyFrame (hcdc : Option HandleId) (p : List Pbuf)
  | setLen (hcdc : Option HandleId) (p : List Pbuf)
  | input (p : List Pbuf)
  | pbufFree (p : List Pbuf)
  | unlockCore
  | resetRxLength
  | resetRxState
  | prepareReceive
  | fault

def LoopPc.waits : LoopPc → Bool
  | .notifyWait => true
  | _ => false

/-- The thread `lwip_input`, the core lock it may hold and the link flag of `main_netif`. -/
structure LoopThread where
  pc : LoopPc
  hcdc : Option HandleId
  /-- How many times this thread holds the recursive `lock_tcpip_core`. -/
  coreLock : ℕ
  linkUp : Bool
  trace : List LoopAct

structure NetState where
  usb : UsbDevice
  loop : LoopThread

/-- The results of the calls which leave the modelled code. -/
structure CallResults where
  /-- `none` if the pbuf pool runs out, else what the pool memory contains. -/
  pool : Option (ℕ → ℕ → UInt8)
  inputErr : ℤ

inductive NetEvent where
  | usb (event : UsbEvent)
  | loop (results : CallResults)

namespace LoopThread

def goto (loop : LoopThread) (pc : LoopPc) : LoopThread :=
  { loop with pc := pc }

def record (loop : LoopThread) (act : LoopAct) : LoopThread :=
  { loop with trace := loop.trace ++ [act] }

end LoopThread

namespace NetState

def goto (net : NetState) (pc : LoopPc) : NetState :=
  { net with loop := net.loop.goto pc }

def record (net : NetState) (act : LoopAct) : NetState :=
  { net with loop := net.loop.record act }

/-- Read the installed handle through a pointer, or fault. -/
def withHandle (net : NetState) (pointer : Option HandleId)
    (next : ClassHandle → NetState → NetState) : NetState :=
  let seen := net.record (.access pointer net.usb.installed)
  match net.usb.pClassData with
  | none => seen.goto .fault
  | some hcdc => if pointer = some hcdc.id then next hcdc seen else seen.goto .fault

/-- Note whether the OUT endpoint is armed at this moment. -/
def recordRearm (net : NetState) : NetState :=
  net.record (.rearm net.usb.outEp.isSome)

end NetState

/-- The cast of `RxLength` to `uint16_t`. -/
def toU16 (length : ℕ) : ℕ :=
  length % 65536

/-- One step of `net_event_loop`; `llInput` to `setLen` are the steps of `ll_input`. -/
def loopStep (results : CallResults) (net : NetState) : Option NetState :=
  match net.loop.pc with
  | .notifyWait =>
      -- blocked until some bit is set; the whole set is returned and cleared
      if net.usb.pending.any then
        some { usb := { net.usb with pending := .none }
               loop := net.loop.goto (.setLinkUp net.usb.pending) }
      else none
  | .setLinkUp flags =>
      if flags.linkUp then
        some { net with loop := { net.loop with linkUp := true, pc := .loadHcdc flags } }
      else some (net.goto (.setLinkDown flags))
  | .loadHcdc flags =>
      some { net with loop := { net.loop with hcdc := net.usb.installed, pc := .setLinkDown flags } }
  | .setLinkDown flags =>
      if flags.linkDown then
        some { net with loop := { net.loop with linkUp := false, pc := .clearHcdc flags } }
      else some (net.goto (.newPacket flags))
  | .clearHcdc flags =>
      some { net with loop := { net.loop with hcdc := none, pc := .newPacket flags } }
  | .newPacket flags =>
      if flags.newPacket then
        some (({ net with loop := { net.loop with coreLock := net.loop.coreLock + 1 } }.record
          .lock).goto .llInput)
      else some (net.goto .notifyWait)
  | .llInput => some (net.goto (.testRxLength net.usb.installed))
  | .testRxLength pointer =>
      some (net.withHandle pointer fun hcdc seen =>
        if 0 < hcdc.rxLength then seen.goto (.testRxState pointer)
        else seen.goto .resetRxLength)
  | .testRxState pointer =>
      some (net.withHandle pointer fun hcdc seen =>
        if hcdc.rxState = 1 then seen.goto (.pbufAlloc pointer)
        else seen.goto .resetRxLength)
  | .pbufAlloc pointer =>
      some (net.withHandle pointer fun hcdc seen =>
        match Net.pbufAlloc results.pool (toU16 hcdc.rxLength) with
        | none => (seen.record (.pbufAlloc (toU16 hcdc.rxLength) false)).goto .resetRxLength
        | some p =>
            (seen.record (.pbufAlloc (toU16 hcdc.rxLength) true)).goto (.copyFrame pointer p))
  | .copyFrame pointer p =>
      some (net.withHandle pointer fun hcdc seen =>
        let source := Memory.load net.usb.userRxBuffer 0 (toU16 hcdc.rxLength)
        seen.goto (.setLen pointer (updateHead (·.memcpy source) p)))
  | .setLen pointer p =>
      some (net.withHandle pointer fun hcdc seen =>
        seen.goto (.input (updateHead (fun head => { head with len := toU16 hcdc.rxLength }) p)))
  | .input p =>
      let given := net.record (.input (chainBytes p) results.inputErr)
      if results.inputErr = 0 then some (given.goto .unlockCore)
      else some (given.goto (.pbufFree p))
  | .pbufFree p => some ((net.record (.pbufFree (chainBytes p))).goto .unlockCore)
  | .unlockCore =>
      some (({ net with loop := { net.loop with coreLock := net.loop.coreLock - 1 } }.record
        .unlock).goto .resetRxLength)
  | .resetRxLength =>
      some (net.withHandle net.loop.hcdc fun _ seen =>
        { seen.recordRearm with
          usb := net.usb.updateHandle fun hcdc => { hcdc with rxLength := 0 } }.goto .resetRxState)
  | .resetRxState =>
      some (net.withHandle net.loop.hcdc fun _ seen =>
        { seen.recordRearm with
          usb := net.usb.updateHandle fun hcdc => { hcdc with rxState := 0 } }.goto .prepareReceive)
  | .prepareReceive =>
      some (net.withHandle net.loop.hcdc fun hcdc seen =>
        { seen.recordRearm.record (.prepareReceive 0 hcdc.maxPcktLen) with
          usb := net.usb.usbdLlPrepareReceive 0 hcdc.maxPcktLen }.goto .notifyWait)
  | .fault => none

def netStep (net : NetState) : NetEvent → Option NetState
  | .usb event => (usbStep net.usb event).map fun usb => { net with usb }
  | .loop results => loopStep results net

/-- The device before `usb_ecm_init`: not configured, nothing pending. -/
def bootDevice : UsbDevice where
  pClassData := none
  nextId := 0
  outEp := none
  inEp := none
  totalLength := 0
  userRxBuffer := fun _ => 0
  userTxBuffer := fun _ => 0
  pending := .none
  inPackets := []

/-- The end of `net_init`: `main_netif_setup` has set the link up, the thread is created. -/
def netInit : NetState where
  usb := bootDevice
  loop := ⟨.notifyWait, none, 0, true, []⟩

/-- The receive loop and the USB interrupt, interleaved in any order. -/
def netSystem : System NetState NetEvent where
  init := netInit
  step := netStep

def loopSteps (count : ℕ) : List NetEvent :=
  List.replicate count (.loop ⟨some fun _ _ => 0, 0⟩)

/-- A one-byte frame is received and handled in the wake-up which also brings LINK_UP. -/
def firstFrame : List NetEvent :=
  [.usb (.classInit true), .usb (.outPacket [0])] ++ loopSteps 16

/-! ## Reading the step function -/

theorem LoopPc.eq_notifyWait {pc : LoopPc} (waiting : pc.waits = true) : pc = .notifyWait := by
  cases pc with
  | notifyWait => rfl
  | _ => cases waiting

@[simp]
theorem NetState.goto_pc (net : NetState) (pc : LoopPc) : (net.goto pc).loop.pc = pc := rfl

theorem NetState.withHandle_cases (net : NetState) (pointer : Option HandleId)
    (next : ClassHandle → NetState → NetState) :
    (∃ hcdc, net.usb.pClassData = some hcdc ∧ pointer = some hcdc.id ∧
        net.withHandle pointer next = next hcdc (net.record (.access pointer (some hcdc.id)))) ∨
      (pointer ≠ net.usb.installed ∨ pointer = none) ∧
        net.withHandle pointer next =
          (net.record (.access pointer net.usb.installed)).goto .fault := by
  cases present : net.usb.pClassData with
  | none =>
      right
      have absent : net.usb.installed = none := by simp [UsbDevice.installed, present]
      refine ⟨?_, by simp [withHandle, present]⟩
      rw [absent]
      exact (eq_or_ne pointer none).symm
  | some hcdc =>
      have current : net.usb.installed = some hcdc.id := by simp [UsbDevice.installed, present]
      by_cases matched : pointer = some hcdc.id
      · left
        refine ⟨hcdc, rfl, matched, ?_⟩
        simp [withHandle, present, matched, current]
      · right
        refine ⟨Or.inl (current ▸ matched), ?_⟩
        simp [withHandle, present, matched]

theorem NetState.withHandle_of_installed {net : NetState} {pointer : Option HandleId}
    (present : net.usb.installed ≠ none) (current : pointer = net.usb.installed)
    (next : ClassHandle → NetState → NetState) :
    ∃ hcdc, net.usb.pClassData = some hcdc ∧ pointer = some hcdc.id ∧
      net.withHandle pointer next = next hcdc (net.record (.access pointer (some hcdc.id))) := by
  rcases net.withHandle_cases pointer next with through | ⟨stale | missing, -⟩
  · exact through
  · exact absurd current stale
  · exact absurd (current ▸ missing) present

theorem netStep_cases {net next : NetState} {event : NetEvent}
    (stepped : netStep net event = some next) :
    (∃ usbEvent usb, event = .usb usbEvent ∧ usbStep net.usb usbEvent = some usb ∧
        next = { net with usb }) ∨
      ∃ results, event = .loop results ∧ loopStep results net = some next := by
  cases event with
  | usb usbEvent =>
      left
      rcases Option.map_eq_some_iff.mp stepped with ⟨usb, steppedUsb, rfl⟩
      exact ⟨usbEvent, usb, rfl, steppedUsb, rfl⟩
  | loop results => exact Or.inr ⟨results, rfl, stepped⟩

/-- The loop works on a packet: the link bits of this wake-up are behind it. -/
def LoopPc.onPacket : LoopPc → Bool
  | .llInput | .testRxLength _ | .testRxState _ | .pbufAlloc _ | .copyFrame _ _ | .setLen _ _
  | .input _ | .pbufFree _ | .unlockCore | .resetRxLength | .resetRxState
  | .prepareReceive => true
  | _ => false

/-- A step which leaves the link, the loop's pointer and the notification value alone. -/
structure KeepsLink (net next : NetState) : Prop where
  installed : next.usb.installed = net.usb.installed
  pending : next.usb.pending = net.usb.pending
  linkUp : next.loop.linkUp = net.loop.linkUp
  hcdc : next.loop.hcdc = net.loop.hcdc
  pc : next.loop.pc.onPacket = true ∨ next.loop.pc = .notifyWait ∨ next.loop.pc = .fault

theorem KeepsLink.withHandle {net : NetState} {pointer : Option HandleId}
    {next : ClassHandle → NetState → NetState}
    (keeps : ∀ hcdc, KeepsLink net (next hcdc (net.record (.access pointer (some hcdc.id))))) :
    KeepsLink net (net.withHandle pointer next) := by
  rcases net.withHandle_cases pointer next with ⟨hcdc, -, -, through⟩ | ⟨-, faulted⟩
  · rw [through]
    exact keeps hcdc
  · rw [faulted]
    exact ⟨rfl, rfl, rfl, rfl, Or.inr (Or.inr rfl)⟩

theorem loopStep_onPacket {net next : NetState} {results : CallResults}
    (stepped : loopStep results net = some next) (onPacket : net.loop.pc.onPacket = true) :
    KeepsLink net next := by
  cases pc : net.loop.pc with
  | notifyWait | setLinkUp flags | loadHcdc flags | setLinkDown flags | clearHcdc flags
  | newPacket flags | fault =>
      rw [pc] at onPacket
      cases onPacket
  | llInput | pbufFree p | unlockCore =>
      simp only [loopStep, pc, Option.some.injEq] at stepped
      subst stepped
      exact ⟨rfl, rfl, rfl, rfl, Or.inl rfl⟩
  | testRxLength pointer | testRxState pointer | pbufAlloc pointer =>
      simp only [loopStep, pc, Option.some.injEq] at stepped
      subst stepped
      apply KeepsLink.withHandle
      intro hcdc
      split
      · exact ⟨rfl, rfl, rfl, rfl, Or.inl rfl⟩
      · exact ⟨rfl, rfl, rfl, rfl, Or.inl rfl⟩
  | copyFrame pointer p | setLen pointer p =>
      simp only [loopStep, pc, Option.some.injEq] at stepped
      subst stepped
      apply KeepsLink.withHandle
      intro hcdc
      exact ⟨rfl, rfl, rfl, rfl, Or.inl rfl⟩
  | input p =>
      simp only [loopStep, pc] at stepped
      split at stepped
      · cases stepped
        exact ⟨rfl, rfl, rfl, rfl, Or.inl rfl⟩
      · cases stepped
        exact ⟨rfl, rfl, rfl, rfl, Or.inl rfl⟩
  | resetRxLength | resetRxState =>
      simp only [loopStep, pc, Option.some.injEq] at stepped
      subst stepped
      apply KeepsLink.withHandle
      intro hcdc
      refine ⟨?_, rfl, rfl, rfl, Or.inl rfl⟩
      apply UsbDevice.installed_updateHandle
      intro _
      rfl
  | prepareReceive =>
      simp only [loopStep, pc, Option.some.injEq] at stepped
      subst stepped
      apply KeepsLink.withHandle
      intro hcdc
      exact ⟨rfl, rfl, rfl, rfl, Or.inr (Or.inl rfl)⟩

end MqttAccelero.Net
