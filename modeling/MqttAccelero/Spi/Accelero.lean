import MqttAccelero.Lib.Windows

/-!
# Reading the accelerometer from two threads

A register is read in four steps: chip select low, `HAL_SPI_Transmit` of the
command, `HAL_SPI_Receive` of the contents, chip select high. The HAL locks the
handle during each of its two calls and turns an overlapping one away with
`HAL_BUSY`. Nothing holds the four steps together: the mutex that `spi_init`
creates is never taken.

The sensor is a bus slave which sees chip select and the clocked bytes. What it
makes of them is kept in the order it sees them, with the call each comes from.
-/

namespace MqttAccelero.Spi

open Windows

/-- The telemetry thread and the shell. -/
inductive SpiThread where
  | srvConn
  | cmdLine
deriving DecidableEq, Repr

/-! ## The sensor -/

/-- What the sensor does with a clocked byte. -/
inductive ByteUse where
  /-- Chip select is high: it drives nothing. -/
  | ignored
  | command (cmd : UInt8)
  | answer (address : ℕ) (contents : UInt8)
deriving DecidableEq, Repr

structure Sensor where
  /-- Chip select is low. -/
  selected : Bool
  /-- The register that is answered next, once a command has come in. -/
  address : Option ℕ
deriving DecidableEq, Repr

/-- The register a command asks for. -/
def commandAddress (cmd : UInt8) : ℕ :=
  cmd.toNat % 128

def Sensor.fall (sensor : Sensor) : Sensor :=
  if sensor.selected then sensor else ⟨true, none⟩

def Sensor.clock (sensor : Sensor) (mosi : UInt8) (registers : ℕ → UInt8) : Sensor × ByteUse :=
  if sensor.selected then
    match sensor.address with
    | none => (⟨true, some (commandAddress mosi)⟩, .command mosi)
    | some address => (⟨true, some (address + 1)⟩, .answer address (registers address))
  else (sensor, .ignored)

/-- The byte on the data line; `floating` is what the master reads where nothing is driven. -/
def ByteUse.miso (floating : UInt8) : ByteUse → UInt8
  | .answer _ contents => contents
  | .ignored | .command _ => floating

/-- Something the sensor sees, and the call it comes from. -/
inductive SensorAct where
  | fall (call : ℕ)
  | rise (call : ℕ)
  | clock (call : ℕ) (use : ByteUse)
deriving DecidableEq, Repr

def SensorAct.call : SensorAct → ℕ
  | .fall call | .rise call | .clock call _ => call

/-! ## The calls -/

def outXLReg : UInt8 := 0x28

/-- `make_command(true, addr)` -/
def makeReadCommand (addr : UInt8) : UInt8 :=
  0x80 ||| addr

inductive SensorCall where
  | acceleroGetXyz
  | acceleroGetTilt
  | lis3dshReadReg (addr : UInt8)
deriving DecidableEq, Repr

def SensorCall.command : SensorCall → UInt8
  | acceleroGetXyz | acceleroGetTilt => makeReadCommand outXLReg
  | lis3dshReadReg addr => makeReadCommand addr

def SensorCall.inSize : SensorCall → ℕ
  | acceleroGetXyz | acceleroGetTilt => 6
  | lis3dshReadReg _ => 1

inductive TransferPc where
  | spiCsEnable
  | transmit
  | sendCommand
  | transmitEnd
  | receive
  | readByte (buf : List UInt8)
  | receiveEnd (buf : List UInt8)
  | spiCsDisable (ret : ℕ) (buf : List UInt8)
deriving DecidableEq, Repr

structure Transfer where
  id : ℕ
  call : SensorCall
  /-- Chip select was high at this call's `spi_cs_enable`, and no other call has clocked a
  byte or run `spi_cs_disable` since. -/
  undisturbed : Bool
  pc : TransferPc
deriving DecidableEq, Repr

/-- A call that has returned, with the bytes it stored. -/
structure Returned where
  id : ℕ
  call : SensorCall
  ret : ℕ
  buf : List UInt8
  undisturbed : Bool
deriving DecidableEq, Repr

structure SpiState where
  threads : SpiThread → Option Transfer
  /-- The thread inside `HAL_SPI_Transmit` or `HAL_SPI_Receive`. -/
  halLock : Option SpiThread
  sensor : Sensor
  view : List SensorAct
  returned : List Returned
  started : ℕ

/-- What the code does not determine when a byte is clocked. -/
structure Wire where
  /-- The byte sent while receiving. -/
  dummy : UInt8
  floating : UInt8
  /-- The register file of the sensor at this moment. -/
  registers : ℕ → UInt8

inductive SpiEvent where
  | start (thread : SpiThread) (call : SensorCall)
  | step (thread : SpiThread) (wire : Wire)
  /-- A HAL call runs into its timeout. -/
  | timeout (thread : SpiThread)

namespace SpiState

def setThread (state : SpiState) (thread : SpiThread) (transfer : Option Transfer) : SpiState :=
  { state with
    threads := fun other => if other = thread then transfer else state.threads other }

/-- The other thread's call is disturbed from now on. -/
def disturbOthers (state : SpiState) (thread : SpiThread) : SpiState :=
  { state with
    threads := fun other =>
      if other = thread then state.threads other
      else (state.threads other).map fun transfer => { transfer with undisturbed := false } }

def goto (state : SpiState) (thread : SpiThread) (transfer : Transfer) (pc : TransferPc) :
    SpiState :=
  state.setThread thread (some { transfer with pc })

def see (state : SpiState) (sensor : Sensor) (acts : List SensorAct) : SpiState :=
  { state with sensor, view := state.view ++ acts }

/-- The falling edge, if chip select was high. -/
def csEnable (state : SpiState) (thread : SpiThread) (transfer : Transfer) : SpiState :=
  let edge := if state.sensor.selected then [] else [.fall transfer.id]
  (state.see state.sensor.fall edge).goto thread
    { transfer with undisturbed := !state.sensor.selected } .transmit

/-- A HAL call begins, or returns `HAL_BUSY`. -/
def halBegin (state : SpiState) (thread : SpiThread) (transfer : Transfer) (pc : TransferPc) :
    SpiState :=
  if state.halLock = none then { state with halLock := some thread }.goto thread transfer pc
  else state.goto thread transfer (.spiCsDisable 1 [])

def halEnd (state : SpiState) (thread : SpiThread) (transfer : Transfer) (pc : TransferPc) :
    SpiState :=
  { state with halLock := none }.goto thread transfer pc

def clock (state : SpiState) (thread : SpiThread) (transfer : Transfer) (mosi : UInt8)
    (wire : Wire) (next : UInt8 → TransferPc) : SpiState :=
  let (sensor, use) := state.sensor.clock mosi wire.registers
  ((state.see sensor [.clock transfer.id use]).disturbOthers thread).goto thread transfer
    (next (use.miso wire.floating))

/-- The rising edge, if chip select was low, and the return of the call. -/
def csDisable (state : SpiState) (thread : SpiThread) (transfer : Transfer) (ret : ℕ)
    (buf : List UInt8) : SpiState :=
  let edge := if state.sensor.selected then [.rise transfer.id] else []
  let call : Returned := ⟨transfer.id, transfer.call, ret, buf, transfer.undisturbed⟩
  (({ state with returned := state.returned ++ [call] }.see ⟨false, none⟩ edge).disturbOthers
    thread).setThread thread none

end SpiState

def nextRead (call : SensorCall) (buf : List UInt8) : TransferPc :=
  if buf.length = call.inSize then .receiveEnd buf else .readByte buf

/-- One step of `read_write` of `accelero.c` with `spi_exchange_polling`. -/
def transferStep (state : SpiState) (thread : SpiThread) (transfer : Transfer) (wire : Wire) :
    SpiState :=
  match transfer.pc with
  | .spiCsEnable => state.csEnable thread transfer
  | .transmit => state.halBegin thread transfer .sendCommand
  | .sendCommand =>
      state.clock thread transfer transfer.call.command wire fun _ => .transmitEnd
  | .transmitEnd => state.halEnd thread transfer .receive
  | .receive => state.halBegin thread transfer (.readByte [])
  | .readByte buf =>
      state.clock thread transfer wire.dummy wire fun miso =>
        nextRead transfer.call (buf ++ [miso])
  | .receiveEnd buf => state.halEnd thread transfer (.spiCsDisable 0 buf)
  | .spiCsDisable ret buf => state.csDisable thread transfer ret buf

def TransferPc.inHal : TransferPc → Bool
  | .sendCommand | .transmitEnd | .readByte _ | .receiveEnd _ => true
  | .spiCsEnable | .transmit | .receive | .spiCsDisable _ _ => false

def spiStep (state : SpiState) : SpiEvent → Option SpiState
  | .start thread call =>
      match state.threads thread with
      | some _ => none
      | none =>
          some ({ state with started := state.started + 1 }.setThread thread
            (some ⟨state.started, call, false, .spiCsEnable⟩))
  | .step thread wire =>
      (state.threads thread).map fun transfer => transferStep state thread transfer wire
  | .timeout thread =>
      match state.threads thread with
      | some transfer =>
          if transfer.pc.inHal then
            some (state.halEnd thread transfer (.spiCsDisable 1 []))
          else none
      | none => none

/-- After `accelero_init`: chip select is high and the handle is ready. -/
def spiSystem : System SpiState SpiEvent where
  init := ⟨fun _ => none, none, ⟨false, none⟩, [], [], 0⟩
  step := spiStep

/-! ## What a call that returns 0 promises -/

/-- The sensor's answers to a call, from a register upward. -/
def answers (call address : ℕ) (buf : List UInt8) : List SensorAct :=
  buf.mapIdx fun index contents => .clock call (.answer (address + index) contents)

/-- A call's command and the answers to it. -/
def exchange (id : ℕ) (call : SensorCall) (buf : List UInt8) : List SensorAct :=
  .clock id (.command call.command) :: answers id (commandAddress call.command) buf

/--
The stored bytes are the sensor's answers to the call's own command, in one
chip-select window which the call has opened, used and closed alone.
-/
structure Returned.Answered (call : Returned) (view : List SensorAct) : Prop where
  size : call.buf.length = call.call.inSize
  window : SensorAct.fall call.id ::
    (exchange call.id call.call call.buf ++ [SensorAct.rise call.id]) <:+: view

/-! ## A call in progress -/

/-- The bytes received so far, once the command has been sent. -/
def TransferPc.received : TransferPc → Option (List UInt8)
  | .spiCsEnable | .transmit | .sendCommand => none
  | .transmitEnd | .receive => some []
  | .readByte buf | .receiveEnd buf | .spiCsDisable _ buf => some buf

/-- Past `spi_cs_enable`, and not turned away. -/
def TransferPc.Inside : TransferPc → Prop
  | .spiCsEnable => False
  | .spiCsDisable ret _ => ret = 0
  | .transmit | .sendCommand | .transmitEnd | .receive | .readByte _ | .receiveEnd _ => True

def TransferPc.SizeFits (call : SensorCall) : TransferPc → Prop
  | .readByte buf => buf.length < call.inSize
  | .receiveEnd buf => buf.length = call.inSize
  | .spiCsDisable ret buf => ret = 0 → buf.length = call.inSize
  | .spiCsEnable | .transmit | .sendCommand | .transmitEnd | .receive => True

namespace Transfer

/-- What the sensor has seen of a call after its falling edge. -/
def acts (transfer : Transfer) : List SensorAct :=
  match transfer.pc.received with
  | none => []
  | some buf => exchange transfer.id transfer.call buf

/-- The register which the sensor answers the call's next byte from. -/
def awaits (transfer : Transfer) : Option ℕ :=
  transfer.pc.received.map fun buf => commandAddress transfer.call.command + buf.length

/-- The call's own window is open, and the sensor has seen nothing but the call in it. -/
def Opened (transfer : Transfer) (view : List SensorAct) (sensor : Sensor) : Prop :=
  ∃ before, view = before ++ .fall transfer.id :: transfer.acts ∧
    .fall transfer.id ∉ before ∧ sensor = ⟨true, transfer.awaits⟩

end Transfer

/-- No window of the call can become whole any more. -/
abbrev CutOff (view : List SensorAct) (id : ℕ) : Prop :=
  Cut SensorAct.call view (.fall id) (.rise id)

structure Transfer.Fine (transfer : Transfer) (view : List SensorAct) (sensor : Sensor) :
    Prop where
  size : transfer.pc.SizeFits transfer.call
  unopened : transfer.pc = .spiCsEnable → .fall transfer.id ∉ view
  opened : transfer.pc.Inside → transfer.undisturbed = true → transfer.Opened view sensor
  cutOff : transfer.pc.Inside → transfer.undisturbed = false → CutOff view transfer.id

/-- What is settled about a call when it returns. -/
structure Returned.Settled (call : Returned) (view : List SensorAct) : Prop where
  answered : call.ret = 0 → call.undisturbed = true → call.Answered view
  cutOff : call.ret = 0 → call.undisturbed = false → CutOff view call.id

theorem mem_exchange {id : ℕ} {call : SensorCall} {buf : List UInt8} {act : SensorAct}
    (member : act ∈ exchange id call buf) : ∃ use, act = .clock id use := by
  rcases List.mem_cons.mp member with rfl | answer
  · exact ⟨_, rfl⟩
  · rcases List.mem_mapIdx.mp answer with ⟨index, _, rfl⟩
    exact ⟨_, rfl⟩

theorem exchange_concat (id : ℕ) (call : SensorCall) (buf : List UInt8) (contents : UInt8) :
    exchange id call (buf ++ [contents]) = exchange id call buf ++
      [.clock id (.answer (commandAddress call.command + buf.length) contents)] := by
  simp [exchange, answers, List.mapIdx_append]

theorem Transfer.mem_acts {transfer : Transfer} {act : SensorAct}
    (member : act ∈ transfer.acts) : ∃ use, act = .clock transfer.id use := by
  simp only [acts] at member
  split at member
  · cases member
  · exact mem_exchange member

section Foreign

variable {transfer : Transfer} {view : List SensorAct} {sensor after : Sensor}

theorem CutOff.append {id : ℕ} (cut : CutOff view id) {acts : List SensorAct}
    (others : ∀ act ∈ acts, act ≠ .fall id) : CutOff (view ++ acts) id := by
  apply Cut.append cut
  intro member
  exact others _ member rfl

theorem Transfer.Fine.foreign (fine : transfer.Fine view sensor) {act : SensorAct}
    (other : act.call ≠ transfer.id) :
    Transfer.Fine { transfer with undisturbed := false } (view ++ [act]) after := by
  have notFall : ∀ seen ∈ [act], seen ≠ .fall transfer.id := by
    intro seen member same
    rw [List.mem_singleton.mp member] at same
    rw [same] at other
    exact other rfl
  refine ⟨fine.size, ?_, ?_, ?_⟩
  · intro waiting member
    rcases List.mem_append.mp member with before | now
    · exact fine.unopened waiting before
    · exact notFall _ now rfl
  · rintro - ⟨⟩
  · intro inside _
    cases flag : transfer.undisturbed with
    | false => exact (fine.cutOff inside flag).append notFall
    | true =>
        rcases fine.opened inside flag with ⟨before, shape, first, -⟩
        refine Cut.of_foreign shape first ?_ ?_ other
        · intro member
          rcases Transfer.mem_acts member with ⟨use, impossible⟩
          cases impossible
        · intro member
          rcases Transfer.mem_acts member with ⟨use, impossible⟩
          cases impossible

theorem Transfer.Fine.unselected (fine : transfer.Fine view sensor)
    (high : sensor.selected = false) {acts : List SensorAct} {flag : Bool}
    (lowers : flag = true → transfer.undisturbed = true)
    (others : ∀ act ∈ acts, act ≠ .fall transfer.id) :
    Transfer.Fine { transfer with undisturbed := flag } (view ++ acts) after := by
  have disturbed : transfer.pc.Inside → transfer.undisturbed = false := by
    intro inside
    by_contra undisturbed
    rcases fine.opened inside (by simpa using undisturbed) with ⟨before, -, -, selected⟩
    rw [selected] at high
    cases high
  refine ⟨fine.size, ?_, ?_, ?_⟩
  · intro waiting member
    rcases List.mem_append.mp member with before | now
    · exact fine.unopened waiting before
    · exact others _ now rfl
  · intro inside raised
    have still := lowers raised
    rw [disturbed inside] at still
    cases still
  · intro inside _
    exact (fine.cutOff inside (disturbed inside)).append others

theorem Returned.Settled.append {call : Returned} (settled : call.Settled view)
    {acts : List SensorAct} (others : ∀ act ∈ acts, act ≠ .fall call.id) :
    call.Settled (view ++ acts) := by
  constructor
  · intro ok undisturbed
    have answered := settled.answered ok undisturbed
    exact ⟨answered.size, answered.window.trans (List.infix_append' [] view acts)⟩
  · intro ok disturbed
    exact (settled.cutOff ok disturbed).append others

end Foreign

/-! ## One step of the call itself -/

section Own

variable {transfer : Transfer} {view : List SensorAct} {sensor : Sensor}

theorem Transfer.Fine.goto (fine : transfer.Fine view sensor) {pc : TransferPc}
    (inside : transfer.pc.Inside) (same : pc.received = transfer.pc.received)
    (size : pc.SizeFits transfer.call) (on : pc ≠ .spiCsEnable) :
    Transfer.Fine { transfer with pc } view sensor := by
  refine ⟨size, fun waiting => absurd waiting on, ?_, ?_⟩
  · intro _ undisturbed
    rcases fine.opened inside undisturbed with ⟨before, shape, first, expects⟩
    refine ⟨before, ?_, first, ?_⟩
    · simpa only [acts, same] using shape
    · simpa only [awaits, same] using expects
  · intro _ disturbed
    exact fine.cutOff inside disturbed

theorem Transfer.Fine.failed (transfer : Transfer) (view : List SensorAct) (sensor : Sensor) :
    Transfer.Fine { transfer with pc := .spiCsDisable 1 [] } view sensor := by
  have notInside : ¬TransferPc.Inside (.spiCsDisable 1 []) := Nat.one_ne_zero
  refine ⟨fun ok => absurd ok notInside, ?_, ?_, ?_⟩
  · rintro ⟨⟩
  · intro inside
    exact absurd inside notInside
  · intro inside
    exact absurd inside notInside

theorem Transfer.Fine.csEnable (fine : transfer.Fine view sensor)
    (waiting : transfer.pc = .spiCsEnable) :
    Transfer.Fine { transfer with undisturbed := !sensor.selected, pc := .transmit }
      (view ++ if sensor.selected then [] else [.fall transfer.id]) sensor.fall := by
  have unopened := fine.unopened waiting
  refine ⟨trivial, ?_, ?_, ?_⟩
  · rintro ⟨⟩
  · intro _ high
    have unselected : sensor.selected = false := by simpa using high
    refine ⟨view, ?_, unopened, ?_⟩
    · simp [unselected, acts, TransferPc.received]
    · simp [unselected, Sensor.fall, awaits, TransferPc.received]
  · intro _ low
    have selected : sensor.selected = true := by simpa using low
    apply Cut.never
    simpa [selected] using unopened

/-- A byte is clocked: an undisturbed call gets the answer it is waiting for. -/
theorem Transfer.Fine.clock (fine : transfer.Fine view sensor) (inside : transfer.pc.Inside)
    (mosi : UInt8) (wire : Wire) (next : UInt8 → TransferPc)
    (on : ∀ miso, next miso ≠ .spiCsEnable) (size : ∀ miso, (next miso).SizeFits transfer.call)
    (command : transfer.pc.received = none → mosi = transfer.call.command ∧
      ∀ miso, (next miso).received = some [])
    (answer : ∀ buf, transfer.pc.received = some buf →
      ∀ miso, (next miso).received = some (buf ++ [miso])) :
    Transfer.Fine
      { transfer with pc := next ((sensor.clock mosi wire.registers).2.miso wire.floating) }
      (view ++ [.clock transfer.id (sensor.clock mosi wire.registers).2])
      (sensor.clock mosi wire.registers).1 := by
  refine ⟨size _, fun waiting => absurd waiting (on _), ?_, ?_⟩
  · intro _ undisturbed
    rcases fine.opened inside undisturbed with ⟨before, shape, first, expects⟩
    refine ⟨before, ?_, first, ?_⟩
    · cases received : transfer.pc.received with
      | none =>
          rcases command received with ⟨rfl, nothing⟩
          simp [shape, expects, Sensor.clock, acts, awaits, received, nothing, exchange, answers]
      | some buf =>
          have more := answer buf received
          simp [shape, expects, Sensor.clock, acts, awaits, received, more, ByteUse.miso,
            exchange_concat]
    · cases received : transfer.pc.received with
      | none =>
          rcases command received with ⟨rfl, nothing⟩
          simp [expects, Sensor.clock, awaits, received, nothing]
      | some buf =>
          have more := answer buf received
          simp [expects, Sensor.clock, awaits, received, more, Nat.add_assoc]
  · intro _ disturbed
    apply (fine.cutOff inside disturbed).append
    intro act member
    rw [List.mem_singleton.mp member]
    rintro ⟨⟩

theorem Transfer.Fine.csDisable {ret : ℕ} {buf : List UInt8} (fine : transfer.Fine view sensor)
    (returns : transfer.pc = .spiCsDisable ret buf) :
    Returned.Settled ⟨transfer.id, transfer.call, ret, buf, transfer.undisturbed⟩
      (view ++ if sensor.selected then [.rise transfer.id] else []) := by
  have size := fine.size
  have inside : ret = 0 → transfer.pc.Inside := by
    intro ok
    rw [returns]
    exact ok
  rw [returns] at size
  constructor
  · intro ok undisturbed
    rcases fine.opened (inside ok) undisturbed with ⟨before, shape, -, expects⟩
    refine ⟨size ok, before, [], ?_⟩
    simp [shape, expects, acts, returns, TransferPc.received]
  · intro ok disturbed
    apply (fine.cutOff (inside ok) disturbed).append
    intro act member
    split at member
    · rw [List.mem_singleton.mp member]
      rintro ⟨⟩
    · cases member

end Own

/-! ## The whole bus -/

/-- Every call has its own number. -/
structure Numbered (threads : SpiThread → Option ℕ) (returned : List ℕ) (started : ℕ) : Prop where
  running : ∀ thread id, threads thread = some id → id < started
  distinct : ∀ first second id, threads first = some id → threads second = some id →
    first = second
  past : ∀ id ∈ returned, id < started
  gone : ∀ thread id, threads thread = some id → id ∉ returned

def SpiState.ids (state : SpiState) (thread : SpiThread) : Option ℕ :=
  (state.threads thread).map Transfer.id

structure BusFine (state : SpiState) : Prop where
  fine : ∀ thread transfer, state.threads thread = some transfer →
    transfer.Fine state.view state.sensor
  settled : ∀ call ∈ state.returned, call.Settled state.view
  numbered : Numbered state.ids (state.returned.map Returned.id) state.started
  seen : ∀ act ∈ state.view, act.call < state.started

theorem BusFine.init : BusFine spiSystem.init := by
  refine ⟨?_, ?_, ⟨?_, ?_, ?_, ?_⟩, ?_⟩
  · rintro thread transfer ⟨⟩
  · intro call member
    cases member
  · rintro thread id ⟨⟩
  · rintro first second id ⟨⟩
  · intro id member
    cases member
  · rintro thread id ⟨⟩
  · intro act member
    cases member

section Moves

variable {state next : SpiState} {thread : SpiThread} {transfer : Transfer}

theorem BusFine.id_ne (bus : BusFine state) (running : state.threads thread = some transfer)
    {other : SpiThread} {theirs : Transfer} (different : other ≠ thread)
    (theirRunning : state.threads other = some theirs) : transfer.id ≠ theirs.id := by
  intro same
  apply different
  apply bus.numbered.distinct other thread transfer.id
  · simp [SpiState.ids, theirRunning, same]
  · simp [SpiState.ids, running]

theorem BusFine.settled_append (bus : BusFine state)
    (running : state.threads thread = some transfer) {acts : List SensorAct}
    (own : ∀ act ∈ acts, act.call = transfer.id) :
    ∀ call ∈ state.returned, call.Settled (state.view ++ acts) := by
  intro call member
  apply (bus.settled call member).append
  rintro act now rfl
  have same : call.id = transfer.id := own _ now
  have isRunning : state.ids thread = some transfer.id := by simp [SpiState.ids, running]
  apply bus.numbered.gone thread transfer.id isRunning
  rw [← same]
  exact List.mem_map_of_mem member

theorem BusFine.seen_append (bus : BusFine state)
    (running : state.threads thread = some transfer) {acts : List SensorAct}
    (own : ∀ act ∈ acts, act.call = transfer.id) :
    ∀ act ∈ state.view ++ acts, act.call < state.started := by
  intro act member
  rcases List.mem_append.mp member with before | now
  · exact bus.seen act before
  · rw [own act now]
    apply bus.numbered.running thread
    simp [SpiState.ids, running]

/-- A step of one call: the sensor sees `acts`, the call goes on as `after`. -/
theorem BusFine.moves (bus : BusFine state) (running : state.threads thread = some transfer)
    {after : Transfer} (acts : List SensorAct) (own : ∀ act ∈ acts, act.call = transfer.id)
    (self : next.threads thread = some after) (sameId : after.id = transfer.id)
    (others : ∀ other, other ≠ thread → next.ids other = state.ids other)
    (view : next.view = state.view ++ acts) (returned : next.returned = state.returned)
    (started : next.started = state.started) (selfFine : after.Fine next.view next.sensor)
    (othersFine : ∀ other theirs, other ≠ thread → next.threads other = some theirs →
      theirs.Fine next.view next.sensor) : BusFine next := by
  have sameIds : next.ids = state.ids := by
    funext other
    by_cases acting : other = thread
    · simp [acting, SpiState.ids, self, running, sameId]
    · exact others other acting
  refine ⟨?_, ?_, ?_, ?_⟩
  · intro other theirs theirRunning
    by_cases acting : other = thread
    · rw [acting, self, Option.some.injEq] at theirRunning
      exact theirRunning ▸ selfFine
    · exact othersFine other theirs acting theirRunning
  · rw [returned, view]
    exact bus.settled_append running own
  · rw [sameIds, returned, started]
    exact bus.numbered
  · rw [view, started]
    exact bus.seen_append running own

theorem setThread_self (state : SpiState) (thread : SpiThread) (transfer : Option Transfer) :
    (state.setThread thread transfer).threads thread = transfer :=
  if_pos rfl

theorem setThread_other {other : SpiThread} (different : other ≠ thread) (state : SpiState)
    (transfer : Option Transfer) :
    (state.setThread thread transfer).threads other = state.threads other :=
  if_neg different

theorem disturbOthers_other {other : SpiThread} (different : other ≠ thread) (state : SpiState) :
    (state.disturbOthers thread).threads other =
      (state.threads other).map fun theirs => { theirs with undisturbed := false } :=
  if_neg different

theorem BusFine.goto (bus : BusFine state) (running : state.threads thread = some transfer)
    (halLock : Option SpiThread) {pc : TransferPc}
    (fine : Transfer.Fine { transfer with pc } state.view state.sensor) :
    BusFine ({ state with halLock }.goto thread transfer pc) := by
  refine bus.moves running [] ?_ (setThread_self _ _ _) rfl ?_ (List.append_nil _).symm rfl rfl
    fine ?_
  · intro act member
    cases member
  · intro other different
    simp only [SpiState.ids, SpiState.goto, setThread_other different]
  · intro other theirs different theirRunning
    rw [SpiState.goto, setThread_other different] at theirRunning
    exact bus.fine other theirs theirRunning

theorem BusFine.csEnable (bus : BusFine state) (running : state.threads thread = some transfer)
    (waiting : transfer.pc = .spiCsEnable) : BusFine (state.csEnable thread transfer) := by
  have fine := bus.fine thread transfer running
  refine bus.moves running (if state.sensor.selected then [] else [.fall transfer.id]) ?_
    (setThread_self _ _ _) rfl ?_ rfl rfl rfl (fine.csEnable waiting) ?_
  · intro act member
    split at member
    · cases member
    · rw [List.mem_singleton.mp member]
      rfl
  · intro other different
    simp only [SpiState.ids, SpiState.csEnable, SpiState.goto, setThread_other different,
      SpiState.see]
  · intro other theirs different theirRunning
    rw [SpiState.csEnable, SpiState.goto, setThread_other different] at theirRunning
    have theirFine := bus.fine other theirs theirRunning
    change theirs.Fine (state.view ++ _) state.sensor.fall
    cases low : state.sensor.selected with
    | true => simpa [Sensor.fall, low] using theirFine
    | false =>
        refine theirFine.unselected low id ?_
        intro act member same
        rw [List.mem_singleton.mp member] at same
        exact bus.id_ne running different theirRunning (congrArg SensorAct.call same)

theorem BusFine.clock (bus : BusFine state) (running : state.threads thread = some transfer)
    {mosi : UInt8} {wire : Wire} {next : UInt8 → TransferPc}
    (fine : Transfer.Fine
      { transfer with pc := next ((state.sensor.clock mosi wire.registers).2.miso wire.floating) }
      (state.view ++ [.clock transfer.id (state.sensor.clock mosi wire.registers).2])
      (state.sensor.clock mosi wire.registers).1) :
    BusFine (state.clock thread transfer mosi wire next) := by
  refine bus.moves running [.clock transfer.id (state.sensor.clock mosi wire.registers).2] ?_
    (setThread_self _ _ _) rfl ?_ rfl rfl rfl fine ?_
  · intro act member
    rw [List.mem_singleton.mp member]
    rfl
  · intro other different
    simp [SpiState.ids, SpiState.clock, SpiState.goto, setThread_other different,
      disturbOthers_other different, SpiState.see, Function.comp_def]
  · intro other theirs different theirRunning
    simp only [SpiState.clock, SpiState.goto, setThread_other different,
      disturbOthers_other different] at theirRunning
    rcases Option.map_eq_some_iff.mp theirRunning with ⟨before, wasRunning, rfl⟩
    exact (bus.fine other before wasRunning).foreign (bus.id_ne running different wasRunning)

theorem Numbered.retire (thread : SpiThread) {threads after : SpiThread → Option ℕ}
    {returned : List ℕ} {started id : ℕ} (numbered : Numbered threads returned started) (was : threads thread = some id)
    (gone : after thread = none) (others : ∀ other, other ≠ thread → after other = threads other) :
    Numbered after (returned ++ [id]) started := by
  have still : ∀ other number, after other = some number →
      other ≠ thread ∧ threads other = some number := by
    intro other number now
    have different : other ≠ thread := by
      rintro rfl
      rw [gone] at now
      cases now
    exact ⟨different, others other different ▸ now⟩
  refine ⟨?_, ?_, ?_, ?_⟩
  · intro other number now
    exact numbered.running other number (still other number now).2
  · intro first second number nowFirst nowSecond
    exact numbered.distinct first second number (still first number nowFirst).2
      (still second number nowSecond).2
  · intro number member
    rcases List.mem_append.mp member with before | now
    · exact numbered.past number before
    · rw [List.mem_singleton.mp now]
      exact numbered.running thread id was
  · intro other number now member
    rcases still other number now with ⟨different, running⟩
    rcases List.mem_append.mp member with before | same
    · exact numbered.gone other number running before
    · rw [List.mem_singleton.mp same] at running
      exact different (numbered.distinct other thread id running was)

theorem Numbered.start (thread : SpiThread) {threads after : SpiThread → Option ℕ}
    {returned : List ℕ} {started : ℕ} (numbered : Numbered threads returned started) (begins : after thread = some started)
    (others : ∀ other, other ≠ thread → after other = threads other) :
    Numbered after returned (started + 1) := by
  have origin : ∀ other number, after other = some number →
      (other = thread ∧ number = started) ∨ threads other = some number := by
    intro other number now
    by_cases acting : other = thread
    · rw [acting, begins, Option.some.injEq] at now
      exact Or.inl ⟨acting, now.symm⟩
    · exact Or.inr (others other acting ▸ now)
  refine ⟨?_, ?_, ?_, ?_⟩
  · intro other number now
    rcases origin other number now with ⟨-, rfl⟩ | running
    · exact Nat.lt_succ_self _
    · exact Nat.lt_succ_of_lt (numbered.running other number running)
  · intro first second number nowFirst nowSecond
    rcases origin first number nowFirst with ⟨rfl, rfl⟩ | runningFirst
    · rcases origin second _ nowSecond with ⟨rfl, -⟩ | runningSecond
      · rfl
      · exact absurd (numbered.running second _ runningSecond) (Nat.lt_irrefl _)
    · rcases origin second number nowSecond with ⟨rfl, rfl⟩ | runningSecond
      · exact absurd (numbered.running first _ runningFirst) (Nat.lt_irrefl _)
      · exact numbered.distinct first second number runningFirst runningSecond
  · intro number member
    exact Nat.lt_succ_of_lt (numbered.past number member)
  · intro other number now member
    rcases origin other number now with ⟨-, rfl⟩ | running
    · exact absurd (numbered.past _ member) (Nat.lt_irrefl _)
    · exact numbered.gone other number running member

theorem BusFine.csDisable (bus : BusFine state) (running : state.threads thread = some transfer)
    {ret : ℕ} {buf : List UInt8} (returns : transfer.pc = .spiCsDisable ret buf) :
    BusFine (state.csDisable thread transfer ret buf) := by
  have fine := bus.fine thread transfer running
  have own : ∀ act ∈ if state.sensor.selected then [SensorAct.rise transfer.id] else [],
      act.call = transfer.id := by
    intro act member
    split at member
    · rw [List.mem_singleton.mp member]
      rfl
    · cases member
  refine ⟨?_, ?_, ?_, ?_⟩
  · intro other theirs theirRunning
    have different : other ≠ thread := by
      rintro rfl
      rw [SpiState.csDisable, setThread_self] at theirRunning
      cases theirRunning
    simp only [SpiState.csDisable, setThread_other different,
      disturbOthers_other different] at theirRunning
    rcases Option.map_eq_some_iff.mp theirRunning with ⟨before, wasRunning, rfl⟩
    have theirFine := bus.fine other before wasRunning
    change Transfer.Fine _ (state.view ++ _) ⟨false, none⟩
    cases low : state.sensor.selected with
    | true => exact theirFine.foreign (bus.id_ne running different wasRunning)
    | false =>
        refine theirFine.unselected low ?_ ?_
        · rintro ⟨⟩
        · rintro act ⟨⟩
  · intro call member
    rcases List.mem_append.mp member with before | now
    · exact bus.settled_append running own call before
    · rw [List.mem_singleton.mp now]
      exact fine.csDisable returns
  · change Numbered _ ((state.returned ++ [_]).map Returned.id) state.started
    rw [List.map_append]
    refine bus.numbered.retire thread ?_ ?_ ?_
    · simp [SpiState.ids, running]
    · simp [SpiState.ids, SpiState.csDisable, setThread_self]
    · intro other different
      simp [SpiState.ids, SpiState.csDisable, setThread_other different,
        disturbOthers_other different, SpiState.see, Function.comp_def]
  · exact bus.seen_append running own

theorem BusFine.start (bus : BusFine state) (call : SensorCall) :
    BusFine ({ state with started := state.started + 1 }.setThread thread
      (some ⟨state.started, call, false, .spiCsEnable⟩)) := by
  refine ⟨?_, bus.settled, ?_, ?_⟩
  · intro other theirs theirRunning
    by_cases acting : other = thread
    · rw [acting, setThread_self, Option.some.injEq] at theirRunning
      subst theirRunning
      refine ⟨trivial, ?_, ?_, ?_⟩
      · intro _ member
        exact Nat.lt_irrefl _ (bus.seen _ member)
      · rintro ⟨⟩
      · rintro ⟨⟩
    · rw [setThread_other acting] at theirRunning
      exact bus.fine other theirs theirRunning
  · refine bus.numbered.start thread ?_ ?_
    · simp [SpiState.ids, setThread_self]
    · intro other different
      simp [SpiState.ids, setThread_other different]
  · intro act member
    exact Nat.lt_succ_of_lt (bus.seen act member)

end Moves

theorem SensorCall.inSize_pos (call : SensorCall) : 0 < call.inSize := by
  cases call with
  | acceleroGetXyz | acceleroGetTilt => exact Nat.succ_pos 5
  | lis3dshReadReg addr => exact Nat.one_pos

theorem nextRead_size (call : SensorCall) {buf : List UInt8} (miso : UInt8)
    (more : buf.length < call.inSize) : (nextRead call (buf ++ [miso])).SizeFits call := by
  simp only [nextRead]
  split
  · rename_i full
    exact full
  · rename_i notFull
    simp only [TransferPc.SizeFits]
    rw [List.length_append, List.length_singleton] at notFull ⊢
    omega

theorem nextRead_received (call : SensorCall) (buf : List UInt8) :
    (nextRead call buf).received = some buf := by
  simp only [nextRead]
  split <;> rfl

theorem nextRead_ne_csEnable (call : SensorCall) (buf : List UInt8) :
    nextRead call buf ≠ .spiCsEnable := by
  simp only [nextRead]
  split <;> simp

theorem BusFine.transfer_step {state : SpiState} {thread : SpiThread} {transfer : Transfer}
    (bus : BusFine state) (running : state.threads thread = some transfer) (wire : Wire) :
    BusFine (transferStep state thread transfer wire) := by
  have fine := bus.fine thread transfer running
  have size := fine.size
  have failed := Transfer.Fine.failed transfer state.view state.sensor
  cases pc : transfer.pc with
  | spiCsEnable =>
      simp only [transferStep, pc]
      exact bus.csEnable running pc
  | transmit =>
      simp only [transferStep, pc, SpiState.halBegin]
      split
      · refine bus.goto running _ (fine.goto ?_ ?_ trivial ?_)
        · rw [pc]
          trivial
        · rw [pc]
          rfl
        · rintro ⟨⟩
      · exact bus.goto running state.halLock failed
  | receive =>
      simp only [transferStep, pc, SpiState.halBegin]
      split
      · refine bus.goto running _ (fine.goto ?_ ?_ transfer.call.inSize_pos ?_)
        · rw [pc]
          trivial
        · rw [pc]
          rfl
        · rintro ⟨⟩
      · exact bus.goto running state.halLock failed
  | sendCommand =>
      simp only [transferStep, pc]
      refine bus.clock running
        (fine.clock ?_ transfer.call.command wire (fun _ => .transmitEnd) ?_ ?_ ?_ ?_)
      · rw [pc]
        trivial
      · rintro miso ⟨⟩
      · intro miso
        trivial
      · intro _
        exact ⟨rfl, fun _ => rfl⟩
      · rw [pc]
        rintro buf ⟨⟩
  | transmitEnd =>
      simp only [transferStep, pc, SpiState.halEnd]
      refine bus.goto running none (fine.goto ?_ ?_ trivial ?_)
      · rw [pc]
        trivial
      · rw [pc]
        rfl
      · rintro ⟨⟩
  | readByte buf =>
      rw [pc] at size
      simp only [transferStep, pc]
      refine bus.clock running (fine.clock ?_ wire.dummy wire
        (fun miso => nextRead transfer.call (buf ++ [miso])) ?_ ?_ ?_ ?_)
      · rw [pc]
        trivial
      · intro miso
        exact nextRead_ne_csEnable _ _
      · intro miso
        exact nextRead_size _ miso size
      · rw [pc]
        rintro ⟨⟩
      · rw [pc]
        rintro _ ⟨⟩ miso
        exact nextRead_received _ _
  | receiveEnd buf =>
      rw [pc] at size
      simp only [transferStep, pc, SpiState.halEnd]
      refine bus.goto running none (fine.goto ?_ ?_ ?_ ?_)
      · rw [pc]
        trivial
      · rw [pc]
        rfl
      · intro _
        exact size
      · rintro ⟨⟩
  | spiCsDisable ret buf =>
      simp only [transferStep, pc]
      exact bus.csDisable running pc

theorem BusFine.step {state next : SpiState} {event : SpiEvent} (bus : BusFine state)
    (stepped : spiStep state event = some next) : BusFine next := by
  cases event with
  | start thread call =>
      simp only [spiStep] at stepped
      split at stepped
      · cases stepped
      · cases stepped
        exact bus.start call
  | step thread wire =>
      rcases Option.map_eq_some_iff.mp stepped with ⟨transfer, running, rfl⟩
      exact bus.transfer_step running wire
  | timeout thread =>
      simp only [spiStep] at stepped
      split at stepped
      · rename_i transfer running
        split at stepped
        · cases stepped
          exact bus.goto running none (Transfer.Fine.failed transfer state.view state.sensor)
        · cases stepped
      · cases stepped

theorem BusFine.of_run {events : List SpiEvent} {state : SpiState}
    (ran : spiSystem.run events = some state) : BusFine state := by
  refine System.invariant BusFine ?_ BusFine.init ran
  intro current event next fine stepped
  exact fine.step stepped

/-! ## Atomic transactions -/

theorem Returned.Answered.not_cutOff {call : Returned} {view : List SensorAct}
    (answered : call.Answered view) : ¬CutOff view call.id := by
  intro cut
  refine cut.not_infix ?_ answered.window
  intro act member
  rcases List.mem_append.mp member with exchanged | last
  · rcases mem_exchange exchanged with ⟨use, rfl⟩
    rfl
  · rw [List.mem_singleton.mp last]
    rfl

/--
A call that returns 0 has stored the sensor's answers to its own command, read in
a window of its own, exactly if no other call has disturbed it.
-/
theorem sensor_call_answered_iff {events : List SpiEvent} {state : SpiState}
    (ran : spiSystem.run events = some state) :
    ∀ call ∈ state.returned, call.ret = 0 →
      (call.Answered state.view ↔ call.undisturbed = true) := by
  intro call member ok
  have settled := (BusFine.of_run ran).settled call member
  constructor
  · intro answered
    by_contra disturbed
    exact answered.not_cutOff (settled.cutOff ok (by simpa using disturbed))
  · exact settled.answered ok

/-- Steps of one thread; register `n` of the sensor reads `n`. -/
def spiSteps (thread : SpiThread) (count : ℕ) : List SpiEvent :=
  List.replicate count (.step thread ⟨0, 255, fun address => UInt8.ofNat address⟩)

/-- The telemetry thread reads the tilt, then the shell reads WHO_AM_I. -/
def oneAfterTheOther : List SpiEvent :=
  .start .srvConn .acceleroGetTilt :: spiSteps .srvConn 13 ++
    .start .cmdLine (.lis3dshReadReg 0x0f) :: spiSteps .cmdLine 8

theorem oneAfterTheOther_enabled : (spiSystem.run oneAfterTheOther).isSome := by
  decide +kernel

theorem sensor_call_answered_in_turn :
    (⟨1, .lis3dshReadReg 0x0f, 0, [0x0f], true⟩ : Returned).Answered
      (spiSystem.final oneAfterTheOther oneAfterTheOther_enabled).view :=
  (sensor_call_answered_iff (System.run_final oneAfterTheOther_enabled) _ (by decide +kernel)
    rfl).mpr rfl

/-- The shell's command comes between the tilt's command and its answers. -/
def commandInBetween : List SpiEvent :=
  .start .srvConn .acceleroGetTilt :: spiSteps .srvConn 4 ++
    .start .cmdLine (.lis3dshReadReg 0x0f) :: spiSteps .cmdLine 8

/-- Asked for register 0x0f, the shell gets register 0x29 and returns 0. -/
theorem sensor_call_answered_violated :
    ¬∀ events state, spiSystem.run events = some state →
      ∀ call ∈ state.returned, call.ret = 0 → call.Answered state.view := by
  intro answered
  have ran : ((spiSystem.run commandInBetween).map fun state => state.returned) =
      some [⟨1, .lis3dshReadReg 0x0f, 0, [0x29], false⟩] := by decide +kernel
  rcases Option.map_eq_some_iff.mp ran with ⟨state, reached, returned⟩
  have member : (⟨1, .lis3dshReadReg 0x0f, 0, [0x29], false⟩ : Returned) ∈ state.returned := by
    simp [returned]
  have cut := ((BusFine.of_run reached).settled _ member).cutOff rfl rfl
  exact (answered _ _ reached _ member rfl).not_cutOff cut

end MqttAccelero.Spi
