import Mathlib.Data.Int.Notation
import MqttAccelero.Usb.Device

/-!
# Sending a frame

`ll_output_cb` with `USBD_CDC_ECM_SetTxBuffer` and `USBD_CDC_ECM_TransmitPacket`
as a machine of single steps. As in the receive loop, a step ends where shared
state is touched, and an access through an invalid handle pointer is the end of
the machine.
-/

namespace MqttAccelero.Net

open Usb

def errOk : ℤ := 0

def errUse : ℤ := -8

/-- The initial value of `try` in `ll_output_cb`. -/
def busyWaitTries : ℕ := 1000000

/--
The next statement of a call, with its local variables. `p` and `rest` are the
payloads of a pbuf chain, `pdata` is an offset into `UserTxBuffer`, where
`TxBuffer` points from class Init on.
-/
inductive OutputPc where
  | loadHandle (p : List (List UInt8))
  | loadTxBuffer (hcdc : Option HandleId) (p : List (List UInt8))
  | busyWait (hcdc : Option HandleId) (tries : ℕ) (p : List (List UInt8))
  | clearTxLength (hcdc : Option HandleId) (p : List (List UInt8))
  | copySegment (hcdc : Option HandleId) (pdata : ℕ) (rest : List (List UInt8))
  | addTxLength (hcdc : Option HandleId) (pdata len : ℕ) (rest : List (List UInt8))
  /-- The arguments of `USBD_CDC_ECM_SetTxBuffer`. -/
  | readTxLength (hcdc : Option HandleId)
  | setTxBuffer (length : ℕ)
  | storeTxLength (hcdc : Option HandleId) (length : ℕ)
  | transmitPacket
  | testHandle (hcdc : Option HandleId)
  | testTxState (hcdc : Option HandleId)
  | setTxState (hcdc : Option HandleId)
  | setTotalLength (hcdc : Option HandleId)
  | llTransmit (hcdc : Option HandleId)
  | ret (err : ℤ)
  | fault
deriving DecidableEq, Repr

/-- The pointer through which the next statement reads or writes a field of the handle. -/
def OutputPc.access : OutputPc → Option (Option HandleId)
  | .loadTxBuffer hcdc _ | .busyWait hcdc _ _ | .clearTxLength hcdc _
  | .addTxLength hcdc _ _ _ | .readTxLength hcdc | .storeTxLength hcdc _ | .testTxState hcdc
  | .setTxState hcdc | .setTotalLength hcdc | .llTransmit hcdc => some hcdc
  | .loadHandle _ | .copySegment _ _ _ | .setTxBuffer _ | .transmitPacket | .testHandle _
  | .ret _ | .fault => none

/-- Read the installed handle through a pointer, or fault. -/
def withTxHandle (usb : UsbDevice) (pointer : Option HandleId)
    (next : ClassHandle → UsbDevice × OutputPc) : UsbDevice × OutputPc :=
  match usb.pClassData with
  | none => (usb, .fault)
  | some hcdc => if pointer = some hcdc.id then next hcdc else (usb, .fault)

/-- One step of `ll_output_cb`; a call that has returned or faulted takes none. -/
def outputStep (usb : UsbDevice) : OutputPc → Option (UsbDevice × OutputPc)
  | .loadHandle p => some (usb, .loadTxBuffer usb.installed p)
  | .loadTxBuffer pointer p =>
      some (withTxHandle usb pointer fun _ => (usb, .busyWait pointer busyWaitTries p))
  | .busyWait pointer tries p =>
      some (withTxHandle usb pointer fun hcdc =>
        if hcdc.txState ≠ 0 ∧ 0 < tries then (usb, .busyWait pointer (tries - 1) p)
        else if tries = 0 then (usb, .ret errUse)
        else (usb, .clearTxLength pointer p))
  | .clearTxLength pointer p =>
      some (withTxHandle usb pointer fun _ =>
        (usb.updateHandle fun hcdc => { hcdc with txLength := 0 }, .copySegment pointer 0 p))
  | .copySegment pointer _ [] => some (usb, .readTxLength pointer)
  | .copySegment pointer pdata (curr :: rest) =>
      some ({ usb with userTxBuffer := Memory.store usb.userTxBuffer pdata curr },
        .addTxLength pointer (pdata + curr.length) curr.length rest)
  | .addTxLength pointer pdata len rest =>
      some (withTxHandle usb pointer fun _ =>
        (usb.updateHandle fun hcdc => { hcdc with txLength := hcdc.txLength + len },
          .copySegment pointer pdata rest))
  | .readTxLength pointer =>
      some (withTxHandle usb pointer fun hcdc => (usb, .setTxBuffer (hcdc.txLength % 65536)))
  | .setTxBuffer length => some (usb, .storeTxLength usb.installed length)
  | .storeTxLength pointer length =>
      some (withTxHandle usb pointer fun _ =>
        (usb.updateHandle fun hcdc => { hcdc with txLength := length }, .transmitPacket))
  | .transmitPacket => some (usb, .testHandle usb.installed)
  | .testHandle pointer =>
      -- the pointer is loaded already; the check looks at pClassData again
      if usb.installed = none then some (usb, .ret errUse) else some (usb, .testTxState pointer)
  | .testTxState pointer =>
      some (withTxHandle usb pointer fun hcdc =>
        if hcdc.txState = 0 then (usb, .setTxState pointer) else (usb, .ret errUse))
  | .setTxState pointer =>
      some (withTxHandle usb pointer fun _ =>
        (usb.updateHandle fun hcdc => { hcdc with txState := 1 }, .setTotalLength pointer))
  | .setTotalLength pointer =>
      some (withTxHandle usb pointer fun hcdc =>
        ({ usb with totalLength := hcdc.txLength }, .llTransmit pointer))
  | .llTransmit pointer =>
      some (withTxHandle usb pointer fun hcdc => (usb.usbdLlTransmit hcdc.txLength, .ret errOk))
  | .ret _ | .fault => none

theorem withTxHandle_cases (usb : UsbDevice) (pointer : Option HandleId)
    (next : ClassHandle → UsbDevice × OutputPc) :
    (∃ hcdc, usb.pClassData = some hcdc ∧ pointer = some hcdc.id ∧
        withTxHandle usb pointer next = next hcdc) ∨
      ((pointer = none ∨ pointer ≠ usb.installed) ∧
        withTxHandle usb pointer next = (usb, .fault)) := by
  cases present : usb.pClassData with
  | none =>
      right
      have absent : usb.installed = none := by simp [UsbDevice.installed, present]
      refine ⟨?_, by simp [withTxHandle, present]⟩
      rw [absent]
      exact eq_or_ne pointer none
  | some hcdc =>
      have current : usb.installed = some hcdc.id := by simp [UsbDevice.installed, present]
      by_cases matched : pointer = some hcdc.id
      · left
        exact ⟨hcdc, rfl, matched, by simp [withTxHandle, present, matched]⟩
      · right
        exact ⟨Or.inr (current ▸ matched), by simp [withTxHandle, present, matched]⟩

theorem withTxHandle_of_installed {usb : UsbDevice} {hcdc : ClassHandle} {pointer : Option HandleId}
    (present : usb.pClassData = some hcdc) (current : pointer = usb.installed)
    (next : ClassHandle → UsbDevice × OutputPc) :
    withTxHandle usb pointer next = next hcdc := by
  have installed : usb.installed = some hcdc.id := by simp [UsbDevice.installed, present]
  simp [withTxHandle, present, current, installed]

end MqttAccelero.Net
