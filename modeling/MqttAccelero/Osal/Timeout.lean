import MqttAccelero.Lib.Scaling

/-!
# Timeouts in ticks

The waits of the operating system layer are given their timeout in milliseconds
and pass it to the kernel in ticks. They convert it with `pdMS_TO_TICKS`, which
multiplies by the tick rate before it divides, both in 32 bits.
`osal_thread_sleep` divides by the length of a tick instead.

What the kernel answers is a parameter. A failed `assert` is no result.
-/

namespace MqttAccelero.Osal.Timeout

open Scaling

def configTickRateHz : UInt32 := 1000

def portTickPeriodMs : UInt32 := 1000 / configTickRateHz

def portMaxDelay : UInt32 := 0xffffffff

/-- `OSAL_MAX_TIMEOUT`, which is `UINT32_MAX`. -/
def osalMaxTimeout : UInt32 := 0xffffffff

def pdMsToTicks (timeInMs : UInt32) : UInt32 := timeInMs * configTickRateHz / 1000

def pdPass : ℤ := 1

def pdTrue : ℤ := 1

inductive KernelCall where
  | xSemaphoreTake (semaphore : ℕ) (blockTime : UInt32)
  | xTaskNotifyWait (bitsToClearOnEntry bitsToClearOnExit ticksToWait : UInt32)
  | vTaskDelay (ticksToDelay : UInt32)
deriving DecidableEq, Repr

def KernelCall.ticks : KernelCall → UInt32
  | .xSemaphoreTake _ blockTime => blockTime
  | .xTaskNotifyWait _ _ ticksToWait => ticksToWait
  | .vTaskDelay ticksToDelay => ticksToDelay

/-- What the kernel answers; `xTaskNotifyWait` stores the notification value besides. -/
structure Kernel where
  xSemaphoreTake : ℕ → UInt32 → ℤ
  xTaskNotifyWait : UInt32 → UInt32 → UInt32 → ℤ × UInt32

structure Waited (Ret : Type) where
  call : KernelCall
  ret : Ret
deriving DecidableEq, Repr

/-- The local `ticks` of the three waits. -/
def timeoutTicks (msTimeout : UInt32) : UInt32 :=
  if msTimeout = osalMaxTimeout then portMaxDelay else pdMsToTicks msTimeout

/-- A semaphore or mutex is taken; the handle 0 is NULL. -/
def takeWithin (kernel : Kernel) (handle : ℕ) (msTimeout : UInt32) : Option (Waited ℤ) :=
  if handle = 0 then none
  else
    let ticks := timeoutTicks msTimeout
    some ⟨.xSemaphoreTake handle ticks,
      if kernel.xSemaphoreTake handle ticks = pdPass then 0 else 1⟩

def osalSemaphoreWait (kernel : Kernel) (sem : ℕ) (msTimeout : UInt32) : Option (Waited ℤ) :=
  takeWithin kernel sem msTimeout

def osalMutexLock (kernel : Kernel) (mutex : ℕ) (msTimeout : UInt32) : Option (Waited ℤ) :=
  takeWithin kernel mutex msTimeout

def osalThreadNotifyWait (kernel : Kernel) (eventFlags msTimeout : UInt32) :
    Option (Waited UInt32) :=
  if eventFlags = 0 then none
  else
    let ticks := timeoutTicks msTimeout
    let answer := kernel.xTaskNotifyWait 0 eventFlags ticks
    some ⟨.xTaskNotifyWait 0 eventFlags ticks, if answer.1 = pdTrue then answer.2 else 0⟩

def osalThreadSleep (ms : UInt32) : KernelCall :=
  let ticks := ms / portTickPeriodMs
  .vTaskDelay (if ticks ≠ 0 then ticks else 1)

/-- One of the waits, with what it waits for. -/
inductive Wait where
  | osalSemaphoreWait (sem : ℕ)
  | osalMutexLock (mutex : ℕ)
  | osalThreadNotifyWait (eventFlags : UInt32)
deriving DecidableEq, Repr

/-- The call to the kernel that a wait makes. -/
def Wait.call (kernel : Kernel) (msTimeout : UInt32) : Wait → Option KernelCall
  | .osalSemaphoreWait sem => (Timeout.osalSemaphoreWait kernel sem msTimeout).map Waited.call
  | .osalMutexLock mutex => (Timeout.osalMutexLock kernel mutex msTimeout).map Waited.call
  | .osalThreadNotifyWait eventFlags =>
      (Timeout.osalThreadNotifyWait kernel eventFlags msTimeout).map Waited.call

/-- The tick count that a wait passes to the kernel. -/
def Wait.ticks (kernel : Kernel) (wait : Wait) (msTimeout : UInt32) : Option UInt32 :=
  (wait.call kernel msTimeout).map KernelCall.ticks

/-- What a wait asserts of its other argument. -/
def Wait.Asserted : Wait → Prop
  | .osalSemaphoreWait sem => sem ≠ 0
  | .osalMutexLock mutex => mutex ≠ 0
  | .osalThreadNotifyWait eventFlags => 0 < eventFlags

variable {kernel : Kernel} {wait : Wait} {msTimeout ms : UInt32}

theorem Wait.ticks_eq (asserted : wait.Asserted) :
    wait.ticks kernel msTimeout = some (timeoutTicks msTimeout) := by
  cases wait with
  | osalSemaphoreWait sem =>
      have notNull : sem ≠ 0 := asserted
      simp [ticks, call, Timeout.osalSemaphoreWait, takeWithin, notNull, KernelCall.ticks]
  | osalMutexLock mutex =>
      have notNull : mutex ≠ 0 := asserted
      simp [ticks, call, Timeout.osalMutexLock, takeWithin, notNull, KernelCall.ticks]
  | osalThreadNotifyWait eventFlags =>
      have someFlag : eventFlags ≠ 0 := by
        intro none
        rw [none] at asserted
        exact absurd asserted (by simp [Asserted])
      simp [ticks, call, Timeout.osalThreadNotifyWait, someFlag, KernelCall.ticks]

/-! ## The two conversions -/

theorem toNat_pdMsToTicks (ms : UInt32) :
    (pdMsToTicks ms).toNat = scale (2 ^ 32) 1000 1000 ms.toNat := by
  simp [pdMsToTicks, configTickRateHz, scale]

/-- The longest timeout whose conversion does not wrap. -/
def longestTimeout : UInt32 := 4294967

theorem fits_iff : ms.toNat * 1000 < 2 ^ 32 ↔ ms ≤ longestTimeout := by
  rw [UInt32.le_iff_toNat_le]
  have longest : longestTimeout.toNat = 4294967 := rfl
  omega

/-- `pdMS_TO_TICKS` is exact for a little over 71 minutes. -/
theorem pdMsToTicks_eq_self_iff : pdMsToTicks ms = ms ↔ ms ≤ longestTimeout := by
  rw [← UInt32.toNat_inj, toNat_pdMsToTicks, scale_eq_self_iff (by decide) (by decide), fits_iff]

/-- No count it returns is more than a thousandth of what 32 bits hold. -/
theorem pdMsToTicks_le (ms : UInt32) : pdMsToTicks ms ≤ longestTimeout := by
  rw [UInt32.le_iff_toNat_le, toNat_pdMsToTicks]
  exact scale_le (by decide)

theorem timeoutTicks_of_finite (finite : ms ≠ osalMaxTimeout) :
    timeoutTicks ms = pdMsToTicks ms := by
  rw [timeoutTicks, if_neg finite]

@[simp]
theorem timeoutTicks_osalMaxTimeout : timeoutTicks osalMaxTimeout = portMaxDelay := by
  rw [timeoutTicks, if_pos rfl]

/-- Whether or not the product wraps, a finite timeout does not become an infinite one. -/
theorem timeoutTicks_ne_portMaxDelay (finite : ms ≠ osalMaxTimeout) :
    timeoutTicks ms ≠ portMaxDelay := by
  intro forever
  have bounded := pdMsToTicks_le ms
  rw [← timeoutTicks_of_finite finite, forever] at bounded
  exact absurd bounded (by decide)

/-- `osal_thread_sleep` divides only, and is exact for every time but 0. -/
theorem osalThreadSleep_eq (nonzero : ms ≠ 0) : osalThreadSleep ms = .vTaskDelay ms := by
  have tick : portTickPeriodMs = 1 := rfl
  simp [osalThreadSleep, tick, nonzero]

/-! ## Faithful timeouts -/

/-- What is wanted of the tick count that a wait makes of a timeout. -/
structure Faithful (kernel : Kernel) (wait : Wait) (msTimeout : UInt32) : Prop where
  equal : msTimeout ≠ osalMaxTimeout → wait.ticks kernel msTimeout = some msTimeout
  monotone : ∀ shorter ≤ msTimeout, ∃ less more, wait.ticks kernel shorter = some less ∧
    wait.ticks kernel msTimeout = some more ∧ less ≤ more
  waits : wait.ticks kernel msTimeout = some 0 → msTimeout = 0
  finite : msTimeout ≠ osalMaxTimeout → wait.ticks kernel msTimeout ≠ some portMaxDelay
  sleeps : msTimeout ≠ osalMaxTimeout → msTimeout ≠ 0 →
    wait.ticks kernel msTimeout = some (osalThreadSleep msTimeout).ticks
  forever : msTimeout = osalMaxTimeout → wait.ticks kernel msTimeout = some portMaxDelay

theorem timeoutTicks_of_le (short : ms ≤ longestTimeout) : timeoutTicks ms = ms := by
  have finite : ms ≠ osalMaxTimeout := by
    rintro rfl
    exact absurd short (by decide)
  rw [timeoutTicks_of_finite finite]
  exact pdMsToTicks_eq_self_iff.mpr short

theorem le_portMaxDelay (ticks : UInt32) : ticks ≤ portMaxDelay := by
  have wide : portMaxDelay.toNat = 2 ^ 32 - 1 := rfl
  rw [UInt32.le_iff_toNat_le, wide]
  exact Nat.le_sub_one_of_lt ticks.toNat_lt

theorem faithful_osalMaxTimeout (asserted : wait.Asserted) :
    Faithful kernel wait osalMaxTimeout where
  equal finite := absurd rfl finite
  monotone shorter _ := by
    refine ⟨_, _, wait.ticks_eq asserted, wait.ticks_eq asserted, ?_⟩
    rw [timeoutTicks_osalMaxTimeout]
    exact le_portMaxDelay _
  waits atOnce := by
    rw [wait.ticks_eq asserted, timeoutTicks_osalMaxTimeout] at atOnce
    exact absurd atOnce (by decide)
  finite finite := absurd rfl finite
  sleeps finite := absurd rfl finite
  forever _ := by rw [wait.ticks_eq asserted, timeoutTicks_osalMaxTimeout]

theorem faithful_of_le (asserted : wait.Asserted) (short : ms ≤ longestTimeout) :
    Faithful kernel wait ms where
  equal _ := by rw [wait.ticks_eq asserted, timeoutTicks_of_le short]
  monotone shorter le := by
    refine ⟨_, _, wait.ticks_eq asserted, wait.ticks_eq asserted, ?_⟩
    rw [timeoutTicks_of_le short, timeoutTicks_of_le (UInt32.le_trans le short)]
    exact le
  waits atOnce := by
    rw [wait.ticks_eq asserted, timeoutTicks_of_le short] at atOnce
    exact Option.some.inj atOnce
  finite finite := by
    rw [wait.ticks_eq asserted]
    intro forever
    exact timeoutTicks_ne_portMaxDelay finite (Option.some.inj forever)
  sleeps _ nonzero := by
    rw [wait.ticks_eq asserted, timeoutTicks_of_le short, osalThreadSleep_eq nonzero]
    rfl
  forever isMax := by
    rw [isMax] at short
    exact absurd short (by decide)

/-- A timeout is waited for as it is given exactly if it is infinite or its product with the
tick rate does not wrap. -/
theorem timeout_faithful_iff (kernel : Kernel) (wait : Wait) (msTimeout : UInt32)
    (asserted : wait.Asserted) :
    Faithful kernel wait msTimeout ↔
      msTimeout = osalMaxTimeout ∨ msTimeout ≤ longestTimeout := by
  constructor
  · intro faithful
    by_cases isMax : msTimeout = osalMaxTimeout
    · exact .inl isMax
    · right
      have same := faithful.equal isMax
      rw [wait.ticks_eq asserted, timeoutTicks_of_finite isMax] at same
      exact pdMsToTicks_eq_self_iff.mp (Option.some.inj same)
  · rintro (rfl | short)
    · exact faithful_osalMaxTimeout asserted
    · exact faithful_of_le asserted short

/-- A kernel whose semaphores are there and which has been notified. -/
def readyKernel : Kernel := ⟨fun _ _ => pdPass, fun _ bits _ => (pdTrue, bits)⟩

theorem timeout_faithful_half_second :
    Faithful readyKernel (.osalSemaphoreWait 1) 500 ↔
      (500 : UInt32) = osalMaxTimeout ∨ (500 : UInt32) ≤ longestTimeout :=
  timeout_faithful_iff readyKernel (.osalSemaphoreWait 1) 500 Nat.one_ne_zero

/-- A wait of one hour, eleven minutes and 34.968 seconds returns at once. -/
theorem timeout_faithful_violated :
    Wait.ticks readyKernel (.osalSemaphoreWait 1) 4294968 = some 0 ∧
      ¬Faithful readyKernel (.osalSemaphoreWait 1) 4294968 := by
  have atOnce : Wait.ticks readyKernel (.osalSemaphoreWait 1) 4294968 = some 0 := by
    decide +kernel
  refine ⟨atOnce, fun faithful => ?_⟩
  have zero := faithful.waits atOnce
  exact absurd zero (by decide)

end MqttAccelero.Osal.Timeout
