import MqttAccelero.Lib.Nesting

/-!
# Writing to the debug UART

`uart_write_polling(DEBUG_UART, …)` over `HAL_UART_Transmit`. The handle is shared
by all calls, and a call may be interrupted between two statements by another
complete call: a thread of higher priority, an interrupt or an assertion handler
that prints. Where the interrupted call has left the handle busy, the new one
forces it ready.

The UART sends 8-bit words and the calls wait for ever, so a wait for TXE or TC is
one statement which ends when the hardware sets the flag.
-/

namespace MqttAccelero.Uart

open Nesting

inductive HalStatus where
  | ok
  | error
  | busy
deriving DecidableEq, Repr

/-- The values of `gState` that transmission tells apart. -/
inductive UartState where
  | ready
  | busyTx
deriving DecidableEq, Repr

/-- The fields of `UART_HandleTypeDef` that transmission reads. -/
structure UartHandle where
  gState : UartState
  locked : Bool
  /-- A `uint16_t`. -/
  txXferCount : ℕ
deriving DecidableEq, Repr

/-- The byte a call writes to `DR`; `none` where it was read past `data + size`. -/
abbrev DrWrite := Option UInt8

/-- The next statement of `HAL_UART_Transmit`; `pdata` is an offset into the caller's data. -/
inductive TransmitPc where
  | checkState
  | checkArgs
  | testLock
  | takeLock
  | setBusy
  | setCount
  | unlock
  | testCount (pdata : ℕ)
  | waitTxe (pdata : ℕ)
  | writeDr (pdata : ℕ)
  | loadCount (pdata : ℕ)
  | storeCount (pdata loaded : ℕ)
  | waitTc
  | setReady
deriving DecidableEq, Repr

/-- The cast of `size` to the `uint16_t` parameter of `HAL_UART_Transmit`. -/
def toU16 (size : ℕ) : ℕ :=
  size % 65536

def transmitStep (data : List UInt8) (huart : UartHandle) :
    TransmitPc → UartHandle × Option DrWrite × (TransmitPc ⊕ HalStatus)
  | .checkState =>
      if huart.gState = .ready then (huart, none, .inl .checkArgs) else (huart, none, .inr .busy)
  | .checkArgs =>
      if toU16 data.length = 0 then (huart, none, .inr .error) else (huart, none, .inl .testLock)
  | .testLock =>
      if huart.locked then (huart, none, .inr .busy) else (huart, none, .inl .takeLock)
  | .takeLock => ({ huart with locked := true }, none, .inl .setBusy)
  | .setBusy => ({ huart with gState := .busyTx }, none, .inl .setCount)
  | .setCount => ({ huart with txXferCount := toU16 data.length }, none, .inl .unlock)
  | .unlock => ({ huart with locked := false }, none, .inl (.testCount 0))
  | .testCount pdata =>
      if 0 < huart.txXferCount then (huart, none, .inl (.waitTxe pdata))
      else (huart, none, .inl .waitTc)
  | .waitTxe pdata => (huart, none, .inl (.writeDr pdata))
  | .writeDr pdata => (huart, some data[pdata]?, .inl (.loadCount (pdata + 1)))
  | .loadCount pdata => (huart, none, .inl (.storeCount pdata huart.txXferCount))
  | .storeCount pdata loaded =>
      -- the decrement of a uint16_t: 0 becomes 65535
      ({ huart with txXferCount := (loaded + 65535) % 65536 }, none, .inl (.testCount pdata))
  | .waitTc => (huart, none, .inl .setReady)
  | .setReady => ({ huart with gState := .ready }, none, .inr .ok)

/-- The next statement of `uart_write_polling`; `again` in its second `HAL_UART_Transmit`. -/
inductive WritePc where
  | transmit (again : Bool) (pc : TransmitPc)
  | testBusy (ret : HalStatus)
  | forceReady
deriving DecidableEq, Repr

def writeStep (data : List UInt8) (huart : UartHandle) :
    WritePc → UartHandle × Option DrWrite × (WritePc ⊕ HalStatus)
  | .transmit again pc =>
      match transmitStep data huart pc with
      | (after, sent, .inl next) => (after, sent, .inl (.transmit again next))
      | (after, sent, .inr ret) =>
          if again then (after, sent, .inr ret) else (after, sent, .inl (.testBusy ret))
  | .testBusy ret =>
      if ret = .busy then (huart, none, .inl .forceReady) else (huart, none, .inr ret)
  | .forceReady =>
      ({ huart with gState := .ready }, none, .inl (.transmit true .checkState))

/-- Calls with `size >= 1`. -/
def uartWritePolling : Routine (List UInt8) UartHandle WritePc HalStatus DrWrite where
  accepts data := !data.isEmpty
  start := .transmit false .checkState
  step := writeStep

abbrev UartSystemState := NestState (List UInt8) UartHandle WritePc HalStatus DrWrite

abbrev UartEvent := NestEvent (List UInt8)

/-- The handle after `HAL_UART_Init`. -/
def initHandle : UartHandle :=
  ⟨.ready, false, 0⟩

def uartSystem : System UartSystemState UartEvent :=
  nestSystem uartWritePolling initHandle

/-! ## Where a call may be interrupted -/

/-- Outside the locked region, and in the loop only where the counter is no longer needed or
has just been loaded. -/
def TransmitPc.SafePoint (data : List UInt8) : TransmitPc → Prop
  | .setBusy | .setCount | .unlock | .waitTxe _ | .writeDr _ | .loadCount _ => False
  | .testCount pdata => pdata = data.length
  | .checkState | .checkArgs | .testLock | .takeLock | .storeCount _ _ | .waitTc | .setReady =>
      True

def WritePc.SafePoint (data : List UInt8) : WritePc → Prop
  | .transmit _ pc => pc.SafePoint data
  | .testBusy _ | .forceReady => True

def FitsU16 (data : List UInt8) : Prop :=
  data.length ≤ 65535

/-- The bytes a call has sent when it is at a statement. -/
def TransmitPc.sent (data : List UInt8) : TransmitPc → ℕ
  | .checkState | .checkArgs | .testLock | .takeLock | .setBusy | .setCount | .unlock => 0
  | .testCount pdata | .waitTxe pdata | .writeDr pdata | .loadCount pdata
  | .storeCount pdata _ => pdata
  | .waitTc | .setReady => data.length

/-- What a call finds in the handle at a statement. -/
def TransmitPc.Finds (data : List UInt8) (again : Bool) (huart : UartHandle) :
    TransmitPc → Prop
  | .checkState => huart.locked = false ∧ (again = true → huart.gState = .ready)
  | .checkArgs | .testLock | .takeLock => huart.locked = false
  | .setBusy | .setCount => True
  | .unlock => huart.txXferCount = data.length
  | .testCount pdata => huart.locked = false ∧ pdata + huart.txXferCount = data.length
  | .waitTxe pdata | .writeDr pdata => huart.locked = false ∧ 0 < huart.txXferCount ∧
      pdata + huart.txXferCount = data.length
  | .loadCount pdata => huart.locked = false ∧ 0 < huart.txXferCount ∧
      pdata + huart.txXferCount = data.length + 1
  | .storeCount pdata loaded => huart.locked = false ∧ 0 < loaded ∧
      pdata + loaded = data.length + 1
  | .waitTc | .setReady => huart.locked = false ∧ huart.txXferCount = 0

/-- What a call that sent its data leaves in the handle. -/
def Rests (huart : UartHandle) : Prop :=
  huart = ⟨.ready, false, 0⟩

/-- A call at a statement, having written these bytes. -/
def WriteRuns (data : List UInt8) (huart : UartHandle) : WritePc → List DrWrite → Prop
  | .transmit again pc, out =>
      pc.Finds data again huart ∧ out = (data.take (pc.sent data)).map some
  | .testBusy ret, out =>
      (ret = .busy ∧ huart.locked = false ∧ out = []) ∨
        (ret = .ok ∧ Rests huart ∧ out = data.map some)
  | .forceReady, out => huart.locked = false ∧ out = []

/-- An upper bound for the statements left. -/
def TransmitPc.rank (data : List UInt8) : TransmitPc → ℕ
  | .checkState => 5 * data.length + 9
  | .checkArgs => 5 * data.length + 8
  | .testLock => 5 * data.length + 7
  | .takeLock => 5 * data.length + 6
  | .setBusy => 5 * data.length + 5
  | .setCount => 5 * data.length + 4
  | .unlock => 5 * data.length + 3
  | .testCount pdata => 5 * (data.length - pdata) + 2
  | .waitTxe pdata => 5 * (data.length - pdata) + 1
  | .writeDr pdata => 5 * (data.length - pdata)
  | .loadCount pdata => 5 * (data.length - pdata) + 4
  | .storeCount pdata _ => 5 * (data.length - pdata) + 3
  | .waitTc => 1
  | .setReady => 0

def WritePc.rank (data : List UInt8) : WritePc → ℕ
  | .transmit true pc => pc.rank data
  | .forceReady => 5 * data.length + 10
  | .testBusy _ => 5 * data.length + 11
  | .transmit false pc => 5 * data.length + 12 + pc.rank data

/-! ## One step of a call -/

def Sendable (data : List UInt8) : Prop :=
  0 < data.length ∧ FitsU16 data

variable {data : List UInt8} {huart after : UartHandle} {emit : Option DrWrite} {again : Bool}

theorem Sendable.toU16_length (sendable : Sendable data) : toU16 data.length = data.length := by
  rcases sendable with ⟨-, fits⟩
  simp only [FitsU16] at fits
  simp only [toU16]
  omega

theorem take_succ_map_some {pdata : ℕ} (more : pdata < data.length) :
    (data.take pdata).map some ++ [data[pdata]?] = (data.take (pdata + 1)).map some := by
  rw [List.take_add_one, List.map_append, List.getElem?_eq_getElem more]
  rfl

/-- The call goes on: it has sent one more byte where it wrote to `DR`. -/
theorem transmitStep_inl {pc next : TransmitPc} (sendable : Sendable data)
    (finds : pc.Finds data again huart)
    (stepped : transmitStep data huart pc = (after, emit, .inl next)) :
    next.Finds data again after ∧ next.rank data < pc.rank data ∧
      (data.take (pc.sent data)).map some ++ emit.toList =
        (data.take (next.sent data)).map some := by
  have fits : data.length ≤ 65535 := sendable.2
  cases pc with
  | checkState =>
      simp only [transmitStep] at stepped
      split at stepped
      · cases stepped
        refine ⟨finds.1, ?_, by simp [TransmitPc.sent]⟩
        simp only [TransmitPc.rank]
        omega
      · cases stepped
  | checkArgs =>
      simp only [transmitStep] at stepped
      split at stepped
      · cases stepped
      · cases stepped
        refine ⟨finds, ?_, by simp [TransmitPc.sent]⟩
        simp only [TransmitPc.rank]
        omega
  | testLock =>
      simp only [transmitStep] at stepped
      split at stepped
      · cases stepped
      · cases stepped
        refine ⟨finds, ?_, by simp [TransmitPc.sent]⟩
        simp only [TransmitPc.rank]
        omega
  | takeLock | setBusy =>
      cases stepped
      refine ⟨trivial, ?_, by simp [TransmitPc.sent]⟩
      simp only [TransmitPc.rank]
      omega
  | setCount =>
      cases stepped
      refine ⟨sendable.toU16_length, ?_, by simp [TransmitPc.sent]⟩
      simp only [TransmitPc.rank]
      omega
  | unlock =>
      cases stepped
      refine ⟨⟨rfl, ?_⟩, ?_, by simp [TransmitPc.sent]⟩
      · exact (Nat.zero_add _).trans finds
      · simp only [TransmitPc.rank]
        omega
  | testCount pdata =>
      rcases finds with ⟨unlocked, left⟩
      simp only [transmitStep] at stepped
      split at stepped
      · rename_i more
        cases stepped
        refine ⟨⟨unlocked, more, left⟩, ?_, by simp [TransmitPc.sent]⟩
        simp only [TransmitPc.rank]
        omega
      · rename_i none_
        have empty : huart.txXferCount = 0 := by omega
        have all : pdata = data.length := by omega
        cases stepped
        refine ⟨⟨unlocked, empty⟩, ?_, by simp [TransmitPc.sent, all]⟩
        simp only [TransmitPc.rank]
        omega
  | waitTxe pdata =>
      cases stepped
      refine ⟨finds, ?_, by simp [TransmitPc.sent]⟩
      simp only [TransmitPc.rank]
      omega
  | writeDr pdata =>
      rcases finds with ⟨unlocked, more, left⟩
      have inside : pdata < data.length := by omega
      cases stepped
      refine ⟨⟨unlocked, more, by omega⟩, ?_, take_succ_map_some inside⟩
      simp only [TransmitPc.rank]
      omega
  | loadCount pdata =>
      cases stepped
      refine ⟨finds, ?_, by simp [TransmitPc.sent]⟩
      simp only [TransmitPc.rank]
      omega
  | storeCount pdata loaded =>
      rcases finds with ⟨unlocked, positive, left⟩
      cases stepped
      refine ⟨⟨unlocked, ?_⟩, ?_, by simp [TransmitPc.sent]⟩
      · change pdata + (loaded + 65535) % 65536 = data.length
        omega
      · simp only [TransmitPc.rank]
        omega
  | waitTc =>
      cases stepped
      refine ⟨finds, ?_, by simp [TransmitPc.sent]⟩
      simp only [TransmitPc.rank]
      omega
  | setReady => cases stepped

/-- `HAL_UART_Transmit` returns when all is sent, or at once and only in the first attempt. -/
theorem transmitStep_inr {pc : TransmitPc} {ret : HalStatus} (sendable : Sendable data)
    (finds : pc.Finds data again huart)
    (stepped : transmitStep data huart pc = (after, emit, .inr ret)) :
    emit = none ∧
      ((ret = .ok ∧ Rests after ∧ pc.sent data = data.length) ∨
        (ret = .busy ∧ again = false ∧ after.locked = false ∧ pc.sent data = 0)) := by
  cases pc with
  | checkState =>
      simp only [transmitStep] at stepped
      split at stepped
      · cases stepped
      · rename_i notReady
        cases stepped
        refine ⟨rfl, Or.inr ⟨rfl, ?_, finds.1, rfl⟩⟩
        cases again with
        | false => rfl
        | true => exact absurd (finds.2 rfl) notReady
  | checkArgs =>
      simp only [transmitStep] at stepped
      split at stepped
      · rename_i empty
        rw [sendable.toU16_length] at empty
        exact absurd empty (Nat.ne_of_gt sendable.1)
      · cases stepped
  | testLock =>
      have unlocked : huart.locked = false := finds
      simp only [transmitStep, unlocked, Bool.false_eq_true, if_false] at stepped
      cases stepped
  | testCount pdata =>
      simp only [transmitStep] at stepped
      split at stepped
      · cases stepped
      · cases stepped
  | setReady =>
      rcases finds with ⟨unlocked, empty⟩
      cases stepped
      refine ⟨rfl, Or.inl ⟨rfl, ?_, rfl⟩⟩
      simp [Rests, unlocked, empty]
  | takeLock | setBusy | setCount | unlock | waitTxe | writeDr | loadCount | storeCount
  | waitTc => cases stepped

/-! ## Whole calls -/

theorem WriteRuns.advance {pc next : WritePc} {out : List DrWrite} (sendable : Sendable data)
    (runs : WriteRuns data huart pc out)
    (stepped : writeStep data huart pc = (after, emit, .inl next)) :
    WriteRuns data after next (out ++ emit.toList) ∧ next.rank data < pc.rank data := by
  cases pc with
  | transmit again pc =>
      rcases runs with ⟨finds, rfl⟩
      simp only [writeStep] at stepped
      split at stepped
      · rename_i transmitted
        cases stepped
        rcases transmitStep_inl sendable finds transmitted with ⟨found, less, sent⟩
        refine ⟨⟨found, sent⟩, ?_⟩
        cases again with
        | true => exact less
        | false => exact Nat.add_lt_add_left less _
      · rename_i transmitted
        split at stepped
        · cases stepped
        · rename_i first
          cases stepped
          have isFirst : again = false := by simpa using first
          subst isFirst
          rcases transmitStep_inr sendable finds transmitted with
            ⟨rfl, ⟨rfl, rests, all⟩ | ⟨rfl, -, unlocked, nothing⟩⟩
          · refine ⟨Or.inr ⟨rfl, rests, ?_⟩, ?_⟩
            · simp [all]
            · simp only [WritePc.rank]
              omega
          · refine ⟨Or.inl ⟨rfl, unlocked, ?_⟩, ?_⟩
            · simp [nothing]
            · simp only [WritePc.rank]
              omega
  | testBusy ret =>
      rcases runs with ⟨rfl, unlocked, rfl⟩ | ⟨rfl, -, -⟩
      · cases stepped
        refine ⟨⟨unlocked, rfl⟩, ?_⟩
        simp only [WritePc.rank]
        omega
      · cases stepped
  | forceReady =>
      rcases runs with ⟨unlocked, rfl⟩
      cases stepped
      refine ⟨⟨⟨unlocked, fun _ => rfl⟩, by simp [TransmitPc.sent]⟩, ?_⟩
      simp only [WritePc.rank, TransmitPc.rank]
      omega

theorem WriteRuns.finish {pc : WritePc} {out : List DrWrite} {ret : HalStatus}
    (sendable : Sendable data) (runs : WriteRuns data huart pc out)
    (stepped : writeStep data huart pc = (after, emit, .inr ret)) :
    Rests after ∧ ret = .ok ∧ out ++ emit.toList = data.map some := by
  cases pc with
  | transmit again pc =>
      rcases runs with ⟨finds, rfl⟩
      simp only [writeStep] at stepped
      split at stepped
      · cases stepped
      · rename_i transmitted
        split at stepped
        · rename_i second
          cases stepped
          rcases transmitStep_inr sendable finds transmitted with
            ⟨rfl, ⟨rfl, rests, all⟩ | ⟨-, isFirst, -, -⟩⟩
          · exact ⟨rests, rfl, by simp [all]⟩
          · rw [isFirst] at second
            cases second
        · cases stepped
  | testBusy ret =>
      rcases runs with ⟨rfl, -, -⟩ | ⟨rfl, rests, rfl⟩
      · cases stepped
      · cases stepped
        exact ⟨rests, rfl, by simp⟩
  | forceReady => cases stepped

theorem WriteRuns.unlocked {pc : WritePc} {out : List DrWrite} (runs : WriteRuns data huart pc out)
    (safe : pc.SafePoint data) : huart.locked = false := by
  cases pc with
  | transmit again pc =>
      cases pc with
      | setBusy | setCount | unlock | waitTxe | writeDr | loadCount => cases safe
      | checkArgs | testLock | takeLock => exact runs.1
      | checkState | testCount | storeCount | waitTc | setReady => exact runs.1.1
  | testBusy ret =>
      rcases runs with ⟨-, unlocked, -⟩ | ⟨-, rests, -⟩
      · exact unlocked
      · rw [rests]
  | forceReady => exact runs.1

/-- Interrupted at a safe point, a call goes on from what the other one left. -/
theorem WriteRuns.resume {pc : WritePc} {out : List DrWrite} (runs : WriteRuns data huart pc out)
    (safe : pc.SafePoint data) (rests : Rests after) : WriteRuns data after pc out := by
  subst rests
  cases pc with
  | transmit again pc =>
      rcases runs with ⟨finds, sent⟩
      refine ⟨?_, sent⟩
      cases pc with
      | setBusy | setCount | unlock | waitTxe | writeDr | loadCount => cases safe
      | checkState => exact ⟨rfl, fun _ => rfl⟩
      | checkArgs | testLock | takeLock => exact rfl
      | testCount pdata => exact ⟨rfl, safe⟩
      | storeCount pdata loaded => exact ⟨rfl, finds.2⟩
      | waitTc | setReady => exact ⟨rfl, rfl⟩
  | testBusy ret =>
      rcases runs with ⟨busy, -, nothing⟩ | ⟨ok, -, all⟩
      · exact Or.inl ⟨busy, rfl, nothing⟩
      · exact Or.inr ⟨ok, rfl, all⟩
  | forceReady => exact ⟨rfl, runs.2⟩

theorem WriteRuns.start (unlocked : huart.locked = false) :
    WriteRuns data huart uartWritePolling.start [] := by
  refine ⟨⟨unlocked, ?_⟩, by simp [TransmitPc.sent]⟩
  rintro ⟨⟩

theorem sendable_of_accepts (accepted : uartWritePolling.accepts data = true)
    (fits : FitsU16 data) : Sendable data := by
  refine ⟨?_, fits⟩
  simpa [uartWritePolling, List.length_pos_iff] using accepted

def uartDiscipline : Discipline uartWritePolling where
  Runs data huart pc out := Sendable data ∧ WriteRuns data huart pc out
  Rests := Rests
  Done data ret out := ret = .ok ∧ out = data.map some
  Safe data pc := pc.SafePoint data
  Fits := FitsU16
  rank data pc := pc.rank data
  start_idle rests accepted fits := by
    subst rests
    exact ⟨sendable_of_accepts accepted fits, WriteRuns.start rfl⟩
  start_nested runs safe accepted fits :=
    ⟨sendable_of_accepts accepted fits, WriteRuns.start (runs.2.unlocked safe)⟩
  resume runs safe rests := ⟨runs.1, runs.2.resume safe rests⟩
  advance runs stepped := by
    rcases runs.2.advance runs.1 stepped with ⟨goesOn, less⟩
    exact ⟨⟨runs.1, goesOn⟩, less⟩
  finish runs stepped := runs.2.finish runs.1 stepped

/-! ## Nested calls -/

/-- A call whose size fits `uint16_t` comes in at a safe point of the running one, if any. -/
def NestsSafely (state : UartSystemState) : UartEvent → Prop
  | .enter data => FitsU16 data ∧ ∀ top ∈ state.stack.head?, top.frame.SafePoint top.input
  | .step => True

instance (data : List UInt8) : DecidablePred (TransmitPc.SafePoint data)
  | .setBusy | .setCount | .unlock | .waitTxe _ | .writeDr _ | .loadCount _ =>
      inferInstanceAs (Decidable False)
  | .testCount pdata => inferInstanceAs (Decidable (pdata = data.length))
  | .checkState | .checkArgs | .testLock | .takeLock | .storeCount _ _ | .waitTc | .setReady =>
      inferInstanceAs (Decidable True)

instance (data : List UInt8) : DecidablePred (WritePc.SafePoint data)
  | .transmit _ pc => inferInstanceAs (Decidable (pc.SafePoint data))
  | .testBusy _ | .forceReady => inferInstanceAs (Decidable True)

instance (data : List UInt8) : Decidable (FitsU16 data) :=
  inferInstanceAs (Decidable (_ ≤ _))

instance (state : UartSystemState) : DecidablePred (NestsSafely state)
  | .enter _ => inferInstanceAs (Decidable (_ ∧ _))
  | .step => inferInstanceAs (Decidable True)

/-- Calls in progress have sent their first bytes and nothing else, finished ones all of them. -/
structure WritesExact (state : UartSystemState) : Prop where
  sending : ∀ act ∈ state.stack, ∃ sent, state.emittedBy act.id = (act.input.take sent).map some
  finished : ∀ call ∈ state.finished,
    call.result = .ok ∧ state.emittedBy call.id = call.input.map some

theorem WriteRuns.sent {pc : WritePc} {out : List DrWrite} (runs : WriteRuns data huart pc out) :
    ∃ sent, out = (data.take sent).map some := by
  cases pc with
  | transmit again pc => exact ⟨pc.sent data, runs.2⟩
  | testBusy ret =>
      rcases runs with ⟨-, -, nothing⟩ | ⟨-, -, all⟩
      · exact ⟨0, by simp [nothing]⟩
      · exact ⟨data.length, by simp [all]⟩
  | forceReady => exact ⟨0, by simp [runs.2]⟩

theorem WritesExact.of_nested {state : UartSystemState} (nested : uartDiscipline.Nested state) :
    WritesExact state := by
  refine ⟨?_, nested.done⟩
  intro act member
  have runs := nested.runs
  cases stack : state.stack with
  | nil =>
      rw [stack] at member
      cases member
  | cons top below =>
      rw [stack] at runs member
      rcases List.mem_cons.mp member with rfl | deeper
      · exact runs.1.2.sent
      · exact (runs.2 act deeper ⟨.ready, false, 0⟩ rfl).2.sent

/--
Calls of `uart_write_polling` nested at safe points send their own bytes, once
and in order, read nothing past their end, and all of them finish.
-/
theorem nested_writes_exact {events : List UartEvent} {state : UartSystemState}
    (ran : uartSystem.run events = some state)
    (nests : uartSystem.Along NestsSafely uartSystem.init events) :
    WritesExact state ∧
      ∃ count final, uartSystem.runFrom state (List.replicate count .step) = some final ∧
        WritesExact final ∧ ∀ id < state.started, ∃ call ∈ final.finished, call.id = id := by
  have admits : uartSystem.Along uartDiscipline.Admits uartSystem.init events := by
    refine System.along_mono ?_ nests
    rintro current (data | _) safe
    · exact safe
    · trivial
  have nested : uartDiscipline.Nested state := Discipline.Nested.of_run rfl ran admits
  refine ⟨WritesExact.of_nested nested, ?_⟩
  rcases nested.drains with ⟨count, final, drained, atEnd, empty, started⟩
  refine ⟨count, final, drained, WritesExact.of_nested atEnd, ?_⟩
  intro id earlier
  have isCall : id ∈ final.ids := by
    apply atEnd.ids.mem_iff.mpr
    rw [started]
    exact List.mem_range.mpr earlier
  rw [NestState.ids, empty, List.map_nil, List.nil_append] at isCall
  rcases List.mem_map.mp isCall with ⟨call, member, same⟩
  exact ⟨call, member, same⟩

/-- A second call comes in when the first has sent its two bytes and not seen TC yet. -/
def nestedAtEnd : List UartEvent :=
  .enter [1, 2] :: List.replicate 18 .step ++ .enter [3] :: List.replicate 10 .step

theorem nested_writes_exact_at_end :
    WritesExact (uartSystem.final nestedAtEnd (by decide +kernel)) ∧
      ∃ count final, uartSystem.runFrom (uartSystem.final nestedAtEnd (by decide +kernel))
          (List.replicate count .step) = some final ∧
        WritesExact final ∧
        ∀ id < (uartSystem.final nestedAtEnd (by decide +kernel)).started,
          ∃ call ∈ final.finished, call.id = id :=
  nested_writes_exact (System.run_final (by decide +kernel)) (by decide +kernel)

/-- A second call comes in while the first waits for TXE with both bytes ahead of it. -/
def nestedInLoop : List UartEvent :=
  .enter [1, 2] :: List.replicate 8 .step ++ .enter [3] :: List.replicate 30 .step

/-- The counter wraps, and the first call reads past the end of its data. -/
theorem nested_writes_exact_violated :
    ¬∀ events state, uartSystem.run events = some state → WritesExact state := by
  intro allExact
  have ran : ((uartSystem.run nestedInLoop).map fun state =>
      (state.stack.map fun act => (act.id, act.input), state.emittedBy 0)) =
        some ([(0, [1, 2])], [some 1, some 2, none]) := by decide +kernel
  rcases Option.map_eq_some_iff.mp ran with ⟨state, reached, shape⟩
  simp only [Prod.mk.injEq] at shape
  rcases shape with ⟨stack, emitted⟩
  have top : (0, [1, 2]) ∈ state.stack.map fun act => (act.id, act.input) := by simp [stack]
  rcases List.mem_map.mp top with ⟨act, member, isFirst⟩
  rcases (allExact _ _ reached).sending act member with ⟨sent, firstBytes⟩
  simp only [Prod.mk.injEq] at isFirst
  rw [isFirst.1, emitted] at firstBytes
  have past : (none : DrWrite) ∈ (act.input.take sent).map some := firstBytes ▸ by simp
  rcases List.mem_map.mp past with ⟨byte, -, impossible⟩
  cases impossible

end MqttAccelero.Uart
