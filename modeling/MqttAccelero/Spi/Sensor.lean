import MqttAccelero.Spi.Lis3dsh

/-!
# The accelerometer on the SPI bus

`spi_exchange_polling` turns the outcomes of two blocking HAL transfers into the
bus callback that the driver uses. Chip select is driven around it and does not
bear on what is returned.

Initialisation goes through four layers of return codes. Two of them are dropped
on the way: that of the configuration write in `lis3dsh_init`, and that of the
identification read in `accelero_init`.
-/

namespace MqttAccelero.Sensor

open Memory Lis3dsh

/-- How the HAL transfers end; what is received may depend on the command sent before. -/
structure HalSpi where
  transmit : List UInt8 → ℤ
  receive : List UInt8 → (inSize : ℕ) → Reply inSize

def spiExchangePolling (hal : HalSpi) : ReadWrite := fun outData inSize =>
  if outData ≠ [] ∧ hal.transmit outData ≠ 0 then
    ⟨1, [], Nat.zero_le _, by simp⟩
  else if nothing : inSize = 0 then
    ⟨0, [], Nat.zero_le _, fun _ => nothing.symm⟩
  else
    let answer := hal.receive outData inSize
    if failed : answer.ret ≠ 0 then
      ⟨1, answer.filled, answer.length_le, by simp⟩
    else
      ⟨0, answer.filled, answer.length_le, fun _ => answer.length_of_ok (not_not.mp failed)⟩

/-- What `HAL_SPI_Init` returns, and whether the semaphores and the mutex could be created. -/
structure SpiBoot where
  halSpiInit : ℤ
  rxSem : Bool
  txSem : Bool
  mutex : Bool

def spiInit (boot : SpiBoot) : ℤ :=
  if boot.halSpiInit ≠ 0 then 1
  else if !boot.rxSem then 1
  else if !boot.txSem then 1
  else if !boot.mutex then 1
  else 0

inductive ConsoleLine where
  | error (text : String)
  /-- `"lis3dsh id is 0x%x (must be 0x%x)"` -/
  | idMismatch (id mustBe : UInt8)
  | log (text : String)
  | warn (text : String)
deriving DecidableEq, Repr

structure InitDone where
  ret : ℤ
  console : List ConsoleLine
deriving DecidableEq, Repr

/-- `accelero_init`, with its local `id` at the given address. -/
def acceleroInit (hal : HalSpi) (boot : SpiBoot) (id : ℕ) (ram : Ram) : Option InitDone :=
  if spiInit boot ≠ 0 then some ⟨1, [.error "Can't init accelero SPI"]⟩
  else
    (lis3dshInit (some (spiExchangePolling hal)) ram).bind fun (ctx, inited) =>
      if inited.ret ≠ 0 then some ⟨1, [.error "Can't init lis3dsh"]⟩
      else
        (lis3dshGetId ctx id inited.ram).map fun got =>
          -- A failed read is reported and the value looked at all the same.
          let console := if got.ret ≠ 0 then [.error "Can't get accelero id"] else []
          let value := got.ram.byte id
          if value ≠ lis3dshId then ⟨1, console ++ [.idMismatch value lis3dshId]⟩
          else ⟨0, console ++ [.log "lis3dsh inited"]⟩

/-! ## When initialisation succeeds -/

/-- The command that writes the configuration to `CONTROL_4_REG`. -/
def configure : List UInt8 := [0x20, 0x67]

/-- The command that reads the identification. -/
def identify : List UInt8 := [0x8f]

theorem spiExchangePolling_configure (hal : HalSpi) :
    (spiExchangePolling hal configure 0).ret = 0 ↔ hal.transmit configure = 0 := by
  by_cases sent : hal.transmit configure = 0
  · simp [spiExchangePolling, sent]
  · have notEmpty : configure ≠ [] := by simp [configure]
    simp [spiExchangePolling, sent, notEmpty]

theorem spiExchangePolling_sent {hal : HalSpi} {outData : List UInt8} {inSize : ℕ}
    (sent : hal.transmit outData = 0) (reads : inSize ≠ 0) :
    (spiExchangePolling hal outData inSize).filled = (hal.receive outData inSize).filled ∧
      ((spiExchangePolling hal outData inSize).ret = 0 ↔
        (hal.receive outData inSize).ret = 0) := by
  by_cases received : (hal.receive outData inSize).ret = 0
  · simp [spiExchangePolling, sent, reads, received]
  · simp [spiExchangePolling, sent, reads, received]

theorem spiExchangePolling_unsent {hal : HalSpi} {outData : List UInt8} (inSize : ℕ)
    (writes : outData ≠ []) (unsent : hal.transmit outData ≠ 0) :
    (spiExchangePolling hal outData inSize).filled = [] ∧
      (spiExchangePolling hal outData inSize).ret = 1 := by
  simp [spiExchangePolling, unsent, writes]

/-- `id` is cleared first, so it stays 0 if nothing is received. -/
theorem store_store_head (memory : ℕ → UInt8) (id : ℕ) (filled : List UInt8) :
    store (store memory id [0]) id filled id = filled.head?.getD 0 := by
  cases filled with
  | nil => simp [store]
  | cons first rest => simp [store]

theorem acceleroInit_eq_zero_iff (hal : HalSpi) (boot : SpiBoot) (id : ℕ) (ram : Ram) :
    (acceleroInit hal boot id ram).map InitDone.ret = some 0 ↔
      spiInit boot = 0 ∧
        (spiExchangePolling hal identify sizeofPointer).filled.head? = some lis3dshId := by
  by_cases started : spiInit boot = 0
  · have read : (spiExchangePolling hal [0x80 ||| whoIAmReg] 4) =
        spiExchangePolling hal identify sizeofPointer := rfl
    simp only [acceleroInit, started, ne_eq, not_true_eq_false, if_false, lis3dshInit_eq,
      Option.bind_some, lis3dshGetId_eq, Option.map_some, store_store_head, read, true_and,
      Option.some.injEq]
    cases (spiExchangePolling hal identify sizeofPointer).filled.head? with
    | none => simp [lis3dshId]
    | some value =>
        by_cases isId : value = lis3dshId
        · simp [isId]
        · simp [isId]
  · simp [acceleroInit, started]

/-- Every step that initialisation consists of has succeeded. -/
structure SensorConfigured (hal : HalSpi) (boot : SpiBoot) : Prop where
  started : spiInit boot = 0
  written : (spiExchangePolling hal configure 0).ret = 0
  read : (spiExchangePolling hal identify sizeofPointer).ret = 0
  identified : (spiExchangePolling hal identify sizeofPointer).filled.head? = some lis3dshId

/-- No error is dropped: where SPI is up and the first byte of the answer is the
identification, the write has been sent and the answer received to its end. -/
def NoErrorDropped (hal : HalSpi) (boot : SpiBoot) : Prop :=
  spiInit boot = 0 → hal.transmit identify = 0 →
    (hal.receive identify sizeofPointer).filled.head? = some lis3dshId →
      hal.transmit configure = 0 ∧ (hal.receive identify sizeofPointer).ret = 0

theorem sizeofPointer_ne_zero : sizeofPointer ≠ 0 := by decide

theorem accelero_init_reports_iff (hal : HalSpi) (boot : SpiBoot) (id : ℕ) (ram : Ram) :
    ((acceleroInit hal boot id ram).map InitDone.ret = some 0 ↔ SensorConfigured hal boot) ↔
      NoErrorDropped hal boot := by
  rw [acceleroInit_eq_zero_iff]
  constructor
  · intro reports started sent identified
    rcases spiExchangePolling_sent sent sizeofPointer_ne_zero with ⟨filled, ok⟩
    have configured := reports.mp ⟨started, by rw [filled, identified]⟩
    exact ⟨(spiExchangePolling_configure hal).mp configured.written, ok.mp configured.read⟩
  · intro noneDropped
    constructor
    · rintro ⟨started, identified⟩
      have sent : hal.transmit identify = 0 := by
        by_contra unsent
        rw [(spiExchangePolling_unsent sizeofPointer (by simp [identify]) unsent).1] at identified
        cases identified
      rcases spiExchangePolling_sent sent sizeofPointer_ne_zero with ⟨filled, ok⟩
      rw [filled] at identified
      rcases noneDropped started sent identified with ⟨written, received⟩
      refine ⟨started, (spiExchangePolling_configure hal).mpr written, ok.mpr received, ?_⟩
      rw [filled, identified]
    · intro configured
      exact ⟨configured.started, configured.identified⟩

/-- Everything works except that the configuration write times out. -/
def writeTimesOut : HalSpi where
  transmit := fun command => if command = configure then 3 else 0
  receive := answersId

theorem accelero_init_reports_violated :
    ¬((acceleroInit writeTimesOut ⟨0, true, true, true⟩ 0 blank).map InitDone.ret = some 0 ↔
      SensorConfigured writeTimesOut ⟨0, true, true, true⟩) := by
  intro reports
  have succeeds : (acceleroInit writeTimesOut ⟨0, true, true, true⟩ 0 blank).map InitDone.ret =
      some 0 := by
    decide +kernel
  have written := (reports.mp succeeds).written
  simp [spiExchangePolling, writeTimesOut, configure] at written

/-! ## The tilt -/

section Tilt

variable {Tilt : Type} (tilt : Xyz → Tilt)

structure TiltDone (Tilt : Type) where
  ret : ℤ
  /-- What `*out` holds afterwards. -/
  out : Tilt
  /-- The sample that `lis3dsh_get_xyz` has read, if it succeeded. -/
  sample : Option Xyz

/-- `accelero_get_tilt`, where `tilt` is the computation in floats and `*out` holds `before`. -/
def acceleroGetTilt (ctx : Ctx) (buf data : ℕ) (ram : Ram) (before : Tilt) :
    Option (TiltDone Tilt) :=
  (lis3dshGetXyz ctx buf data ram).map fun done =>
    if done.ret ≠ 0 then ⟨1, before, none⟩
    else ⟨0, tilt (done.ram.xyz data), some (done.ram.xyz data)⟩

/-- The command that reads the three axes. -/
def readAxes : List UInt8 := [0xa8]

/-- Both transfers of a read of the axes succeed. -/
def HalSpi.ReadsAxes (hal : HalSpi) : Prop :=
  hal.transmit readAxes = 0 ∧ (hal.receive readAxes 6).ret = 0

instance (hal : HalSpi) : Decidable hal.ReadsAxes :=
  inferInstanceAs (Decidable (_ ∧ _))

theorem spiExchangePolling_readAxes (hal : HalSpi) :
    (spiExchangePolling hal [0x80 ||| outXLReg] 6).ret = 0 ↔ hal.ReadsAxes := by
  have command : [0x80 ||| outXLReg] = readAxes := rfl
  have six : 6 ≠ 0 := by omega
  rw [command]
  by_cases sent : hal.transmit readAxes = 0
  · simp [(spiExchangePolling_sent sent six).2, HalSpi.ReadsAxes, sent]
  · simp [(spiExchangePolling_unsent 6 (by simp [readAxes]) sent).2,
      HalSpi.ReadsAxes, sent]

variable {tilt} {hal : HalSpi} {buf data : ℕ} {ram : Ram} {before : Tilt}

theorem acceleroGetTilt_ok (reads : hal.ReadsAxes) :
    ∃ sample, acceleroGetTilt tilt (initialised (spiExchangePolling hal)) buf data ram before =
      some ⟨0, tilt sample, some sample⟩ := by
  have ok := (spiExchangePolling_readAxes hal).mpr reads
  rcases Reply.exists_six ok with ⟨xl, xh, yl, yh, zl, zh, filled⟩
  refine ⟨⟨signedLe xl xh / 2000, signedLe yl yh / 2000, signedLe zl zh / 2000⟩, ?_⟩
  simp [acceleroGetTilt, lis3dshGetXyz_ok ok filled]

/-- After a failed read `*out` is as it was, and the error is returned. -/
theorem acceleroGetTilt_failed (fails : ¬hal.ReadsAxes) :
    acceleroGetTilt tilt (initialised (spiExchangePolling hal)) buf data ram before =
      some ⟨1, before, none⟩ := by
  have failed := mt (spiExchangePolling_readAxes hal).mp fails
  simp [acceleroGetTilt, lis3dshGetXyz_failed failed]

end Tilt

end MqttAccelero.Sensor
