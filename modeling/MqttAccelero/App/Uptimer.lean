import Mathlib.Algebra.Group.Nat.Defs
import Mathlib.Data.Prod.Lex
import Mathlib.Logic.Function.Iterate
import MqttAccelero.Lib.System

/-!
# The uptime clock

`TIM5` counts microseconds up to its period, and its update interrupt counts seconds.
`_gettimeofday` reads `sec` first and the counter after that, without looking at
whether an update is due, so the counter may wrap between the two reads, and the
interrupt may be late.

Handlers are nested by their priorities. Calls of `_gettimeofday` come from threads
and from other handlers, and any number of them may be between their two reads.
-/

namespace MqttAccelero.Uptimer

/-! ## The timers -/

structure TimHandle where
  /-- The address of the registers. -/
  inst : UInt32
  period : ℕ
deriving DecidableEq, Repr

structure NvicConf where
  enable : Bool
  mainPrio : ℕ
deriving DecidableEq, Repr

structure TimerConf where
  handler : TimHandle
  irq : NvicConf
deriving DecidableEq, Repr

def tim5 : UInt32 := 0x40000c00

/-- `timer_list[CLOCK_TIMER]` -/
def clockTimer : TimerConf where
  handler := ⟨tim5, 1000000 - 1⟩
  irq := ⟨true, 6⟩

/-- A table of timers that contains the clock timer. -/
structure TimerTable where
  timerList : List TimerConf
  /-- `CLOCK_TIMER` -/
  clockId : ℕ
  hasClock : timerList[clockId]? = some clockTimer
  /-- `timer_list_len` is a `size_t`. -/
  length_lt : timerList.length < 2 ^ 32

namespace TimerTable

def timerListLen (table : TimerTable) : ℕ := table.timerList.length

theorem timerListLen_pos (table : TimerTable) : 0 < table.timerListLen := by
  have inTable := table.hasClock
  rw [List.getElem?_eq_some_iff] at inTable
  rcases inTable with ⟨inside, _⟩
  exact Nat.lt_of_le_of_lt (Nat.zero_le _) inside

end TimerTable

/-- The table of the source. -/
def timerList : TimerTable := ⟨[clockTimer], 0, rfl, by decide⟩

def uptimerUpdate (sec : UInt32) : UInt32 := sec + 1

/-- The body of the loop in `HAL_TIM_PeriodElapsedCallback`. -/
def callbackPass (htimer : TimHandle) (sec : UInt32) : UInt32 :=
  if htimer.inst = tim5 then uptimerUpdate sec else sec

/-- `HAL_TIM_PeriodElapsedCallback`: the loop makes one pass for each entry of the table. -/
def halTimPeriodElapsedCallback (table : TimerTable) (htimer : TimHandle) (sec : UInt32) :
    UInt32 :=
  (callbackPass htimer)^[table.timerListLen] sec

/-! ## The state -/

structure Timeval where
  tvSec : ℕ
  tvUsec : ℕ
deriving DecidableEq, Repr

instance : LE Timeval :=
  ⟨fun earlier later => toLex (earlier.tvSec, earlier.tvUsec) ≤ toLex (later.tvSec, later.tvUsec)⟩

/-- A handler that has been entered. -/
structure Handler where
  prio : ℕ
  /-- The argument of `HAL_TIM_PeriodElapsedCallback` and the passes it has ahead. -/
  callback : Option (TimHandle × ℕ)

inductive Caller where
  | thread (id : ℕ)
  /-- The handler with so many others below it. -/
  | handler (depth : ℕ)
deriving DecidableEq

structure Returned where
  tv : Timeval
  /-- The microseconds that had passed when the counter was read. -/
  time : ℕ

structure UptimeState where
  sec : UInt32
  counter : ℕ
  /-- The update flag of `TIM5`. -/
  updateFlag : Bool
  /-- The innermost first. -/
  handlers : List Handler
  /-- What a call between its two reads has read. -/
  calls : Caller → Option UInt32
  /-- The microseconds since the timer was started. -/
  elapsed : ℕ
  /-- In the order of the second reads. -/
  returned : List Returned

inductive UptimeEvent where
  /-- The timer counts on while nothing else happens. -/
  | elapse (ticks : ℕ)
  /-- The handler of a timer is entered, up to the loop in its callback. -/
  | timerIrq (id : ℕ)
  | pass
  /-- Any other handler. -/
  | irq (prio : ℕ)
  | handlerReturn
  /-- `uptimer_get_sec` in `_gettimeofday` -/
  | getSec (caller : Caller)
  /-- `uptimer_get_msec`, and the return -/
  | getMsec (caller : Caller)

namespace UptimeState

/-- The processor executes the code of the caller. -/
def executes (state : UptimeState) : Caller → Bool
  | .thread _ => state.handlers.isEmpty
  | .handler depth =>
      match state.handlers with
      | [] => false
      | top :: below => depth == below.length && top.callback.isNone

/-- A lower number is more urgent. -/
def preempts (state : UptimeState) (prio : ℕ) : Bool :=
  match state.handlers with
  | [] => true
  | top :: _ => prio < top.prio

end UptimeState

def uptimeStep (table : TimerTable) (state : UptimeState) : UptimeEvent → Option UptimeState
  | .elapse ticks =>
      if state.counter + ticks ≤ clockTimer.handler.period then
        some { state with counter := state.counter + ticks, elapsed := state.elapsed + ticks }
      else if state.counter + ticks = clockTimer.handler.period + 1 then
        some { state with counter := 0, updateFlag := true, elapsed := state.elapsed + ticks }
      else none
  | .timerIrq id =>
      match table.timerList[id]? with
      | none => none
      | some conf =>
          if conf.irq.enable ∧ state.preempts conf.irq.mainPrio then
            let entered : UptimeState :=
              { state with
                handlers :=
                  ⟨conf.irq.mainPrio, some (conf.handler, table.timerListLen)⟩ :: state.handlers }
            if id = table.clockId then
              if state.updateFlag then some { entered with updateFlag := false } else none
            else if conf.handler.inst = tim5 then none
            else some entered
          else none
  | .pass =>
      match state.handlers with
      | ⟨prio, some (htimer, passes + 1)⟩ :: below =>
          some { state with
            sec := callbackPass htimer state.sec
            handlers := ⟨prio, some (htimer, passes)⟩ :: below }
      | _ => none
  | .irq prio =>
      if state.preempts prio then
        some { state with handlers := ⟨prio, none⟩ :: state.handlers }
      else none
  | .handlerReturn =>
      match state.handlers with
      | ⟨_, some (_, 0)⟩ :: below => some { state with handlers := below }
      | ⟨_, none⟩ :: below =>
          if state.calls (.handler below.length) = none then
            some { state with handlers := below }
          else none
      | _ => none
  | .getSec caller =>
      if state.executes caller ∧ state.calls caller = none then
        some { state with calls := Function.update state.calls caller (some state.sec) }
      else none
  | .getMsec caller =>
      if state.executes caller then
        match state.calls caller with
        | none => none
        | some sec =>
            some { state with
              calls := Function.update state.calls caller none
              returned := state.returned ++ [⟨⟨sec.toNat, state.counter⟩, state.elapsed⟩] }
      else none

/-- The clock after `uptimer_start`. `updateAtStart` says whether the update event that
`TIM_Base_SetConfig` generates has left the update flag set. -/
def uptimeSystem (table : TimerTable) (updateAtStart : Bool) :
    System UptimeState UptimeEvent where
  init :=
    { sec := 0
      counter := 0
      updateFlag := updateAtStart
      handlers := []
      calls := fun _ => none
      elapsed := 0
      returned := [] }
  step := uptimeStep table

/-! ## What is claimed, and the condition for it -/

/-- What an update event of `TIM5` does to `sec`, and one of another timer. -/
def TimerTable.AdvancesByOne (table : TimerTable) : Prop :=
  (∀ sec, halTimPeriodElapsedCallback table clockTimer.handler sec = sec + 1) ∧
    ∀ htimer : TimHandle, htimer.inst ≠ tim5 →
      ∀ sec, halTimPeriodElapsedCallback table htimer sec = sec

/-- The times that `_gettimeofday` has returned do not go back. -/
structure UptimeState.Monotone (state : UptimeState) : Prop where
  ordered : (state.returned.map Returned.tv).Pairwise (· ≤ ·)
  usec_lt : ∀ returned ∈ state.returned, returned.tv.tvUsec < 1000000

/-- The increments of `sec` that a handler has ahead. -/
def Handler.ahead (handler : Handler) : ℕ :=
  match handler.callback with
  | some (htimer, passes) => if htimer.inst = tim5 then passes else 0
  | none => 0

def aheadOf : List Handler → ℕ
  | [] => 0
  | handler :: below => handler.ahead + aheadOf below

namespace UptimeState

/-- The increments that are due for update events and have not been made. -/
def due (state : UptimeState) (table : TimerTable) : ℕ :=
  (if state.updateFlag then table.timerListLen else 0) + aheadOf state.handlers

/-- The update events so far. -/
def updates (state : UptimeState) (updateAtStart : Bool) : ℕ :=
  state.elapsed / 1000000 + updateAtStart.toNat

end UptimeState

/-- The condition on a step: `sec` is read while no increment is due, the counter does
not wrap while a call is between its reads or an update is pending, and `sec` does not
overflow. -/
def ReadsSettled (table : TimerTable) (state : UptimeState) : UptimeEvent → Prop
  | .getSec _ => state.due table = 0
  | .elapse ticks =>
      state.counter + ticks = clockTimer.handler.period + 1 →
        state.updateFlag = false ∧ ∀ caller, state.calls caller = none
  | .pass => state.sec.toNat + 1 < 2 ^ 32
  | _ => True

/-! ## One update event -/

variable {table : TimerTable} {updateAtStart : Bool} {state next : UptimeState}

theorem iterate_callbackPass_clock (passes : ℕ) (sec : UInt32) :
    (callbackPass clockTimer.handler)^[passes] sec = sec + UInt32.ofNat passes := by
  induction passes generalizing sec with
  | zero => simp
  | succ passes ih =>
      have first : callbackPass clockTimer.handler sec = sec + 1 := if_pos rfl
      rw [Function.iterate_succ_apply, first, ih, UInt32.add_assoc, Nat.add_comm passes 1,
        UInt32.ofNat_add]
      rfl

theorem iterate_callbackPass_other {htimer : TimHandle} (other : htimer.inst ≠ tim5) (passes : ℕ)
    (sec : UInt32) : (callbackPass htimer)^[passes] sec = sec := by
  have unchanged : callbackPass htimer sec = sec := if_neg other
  exact Function.iterate_fixed unchanged passes

/-- The table must have the clock timer alone. -/
theorem advancesByOne_iff : table.AdvancesByOne ↔ table.timerListLen = 1 := by
  constructor
  · rintro ⟨clock, _⟩
    have atZero := clock 0
    rw [halTimPeriodElapsedCallback, iterate_callbackPass_clock, UInt32.zero_add,
      UInt32.zero_add] at atZero
    have inRange : table.timerListLen < UInt32.size := table.length_lt
    have sameNat := congrArg UInt32.toNat atZero
    rw [UInt32.toNat_ofNat_of_lt' inRange] at sameNat
    exact sameNat
  · intro single
    refine ⟨fun sec => ?_, fun htimer other sec => iterate_callbackPass_other other _ sec⟩
    rw [halTimPeriodElapsedCallback, iterate_callbackPass_clock, single]
    rfl

/-- The passes of the handler, one by one, make what the callback makes at once. -/
theorem runFrom_passes {prio : ℕ} {htimer : TimHandle} {below : List Handler} (passes : ℕ)
    (entered : state.handlers = ⟨prio, some (htimer, passes)⟩ :: below) :
    (uptimeSystem table updateAtStart).runFrom state (List.replicate passes .pass) =
      some { state with
        sec := (callbackPass htimer)^[passes] state.sec
        handlers := ⟨prio, some (htimer, 0)⟩ :: below } := by
  induction passes generalizing state with
  | zero => simp [← entered]
  | succ passes ih =>
      have stepped : uptimeStep table state .pass =
          some { state with
            sec := callbackPass htimer state.sec
            handlers := ⟨prio, some (htimer, passes)⟩ :: below } := by
        simp [uptimeStep, entered]
      rw [List.replicate_succ, System.runFrom]
      simp only [uptimeSystem, stepped, Option.bind_some]
      exact ih rfl

/-! ## The time a settled read returns -/

/-- What the clock shows after so many microseconds, all updates made. -/
def clockAt (table : TimerTable) (updateAtStart : Bool) (elapsed : ℕ) : Timeval where
  tvSec := table.timerListLen * (elapsed / 1000000 + updateAtStart.toNat)
  tvUsec := elapsed % 1000000

theorem clockAt_mono (table : TimerTable) (updateAtStart : Bool) {earlier later : ℕ}
    (before : earlier ≤ later) :
    clockAt table updateAtStart earlier ≤ clockAt table updateAtStart later := by
  apply Prod.Lex.toLex_le_toLex.mpr
  have seconds : earlier / 1000000 ≤ later / 1000000 := Nat.div_le_div_right before
  rcases Nat.lt_or_eq_of_le seconds with less | same
  · left
    apply Nat.mul_lt_mul_of_pos_left _ table.timerListLen_pos
    exact Nat.add_lt_add_right less _
  · right
    constructor
    · simp only [clockAt, same]
    · simp only [clockAt]
      omega

/-! ## The invariant -/

/-- `sec` lags behind the update events by the increments that are due, and every call
has read or will return a settled time. -/
structure UptimeInv (table : TimerTable) (updateAtStart : Bool) (state : UptimeState) : Prop where
  counter_eq : state.counter = state.elapsed % 1000000
  accounted : state.sec.toNat + state.due table =
    table.timerListLen * state.updates updateAtStart
  settled : ∀ caller sec, state.calls caller = some sec → sec = state.sec ∧ state.due table = 0
  exact_time : ∀ returned ∈ state.returned,
    returned.tv = clockAt table updateAtStart returned.time ∧ returned.time ≤ state.elapsed
  sorted : (state.returned.map Returned.time).Pairwise (· ≤ ·)

namespace UptimeInv

theorem init : UptimeInv table updateAtStart (uptimeSystem table updateAtStart).init where
  counter_eq := rfl
  accounted := by
    cases updateAtStart with
    | false => simp [uptimeSystem, UptimeState.due, UptimeState.updates, aheadOf]
    | true => simp [uptimeSystem, UptimeState.due, UptimeState.updates, aheadOf]
  settled := by
    intro caller sec reading
    cases reading
  exact_time := by
    intro returned member
    cases member
  sorted := List.Pairwise.nil

/-- A step that neither touches the clock nor what the calls have read or returned. -/
theorem congr (inv : UptimeInv table updateAtStart state) (sec_eq : next.sec = state.sec)
    (counter_eq : next.counter = state.counter) (elapsed_eq : next.elapsed = state.elapsed)
    (due_eq : next.due table = state.due table) (calls_eq : next.calls = state.calls)
    (returned_eq : next.returned = state.returned) : UptimeInv table updateAtStart next where
  counter_eq := by rw [counter_eq, elapsed_eq, inv.counter_eq]
  accounted := by
    rw [sec_eq, due_eq, UptimeState.updates, elapsed_eq]
    exact inv.accounted
  settled := by
    rw [calls_eq, sec_eq, due_eq]
    exact inv.settled
  exact_time := by
    rw [returned_eq, elapsed_eq]
    exact inv.exact_time
  sorted := returned_eq ▸ inv.sorted

theorem elapse {ticks : ℕ} (inv : UptimeInv table updateAtStart state)
    (met : ReadsSettled table state (.elapse ticks))
    (stepped : uptimeStep table state (.elapse ticks) = some next) :
    UptimeInv table updateAtStart next := by
  have counter_eq := inv.counter_eq
  have exact_time : ∀ returned ∈ state.returned,
      returned.tv = clockAt table updateAtStart returned.time ∧
        returned.time ≤ state.elapsed + ticks := by
    intro returned member
    rcases inv.exact_time returned member with ⟨shown, past⟩
    exact ⟨shown, Nat.le_add_right_of_le past⟩
  simp only [uptimeStep] at stepped
  split at stepped
  · next inPeriod =>
      have inPeriod : state.counter + ticks ≤ 999999 := inPeriod
      have sameSecond : (state.elapsed + ticks) / 1000000 = state.elapsed / 1000000 := by omega
      cases stepped
      refine ⟨?_, ?_, inv.settled, exact_time, inv.sorted⟩
      · show state.counter + ticks = (state.elapsed + ticks) % 1000000
        omega
      · show state.sec.toNat + state.due table =
          table.timerListLen * ((state.elapsed + ticks) / 1000000 + updateAtStart.toNat)
        rw [sameSecond]
        exact inv.accounted
  · split at stepped
    · next wraps =>
        rcases met wraps with ⟨noUpdate, noCall⟩
        have wraps : state.counter + ticks = 1000000 := wraps
        have nextSecond : (state.elapsed + ticks) / 1000000 = state.elapsed / 1000000 + 1 := by
          omega
        cases stepped
        refine ⟨?_, ?_, ?_, exact_time, inv.sorted⟩
        · show 0 = (state.elapsed + ticks) % 1000000
          omega
        · have accounted := inv.accounted
          simp only [UptimeState.due, UptimeState.updates, noUpdate, Bool.false_eq_true, if_false,
            if_true] at accounted ⊢
          rw [nextSecond, Nat.add_right_comm, Nat.mul_succ]
          omega
        · intro caller sec reading
          rw [noCall caller] at reading
          cases reading
    · cases stepped

theorem timerIrq {id : ℕ} (inv : UptimeInv table updateAtStart state)
    (stepped : uptimeStep table state (.timerIrq id) = some next) :
    UptimeInv table updateAtStart next := by
  simp only [uptimeStep] at stepped
  split at stepped
  · cases stepped
  · next conf found =>
      split at stepped
      · split at stepped
        · next isClock =>
            have isClockTimer : conf = clockTimer := by
              rw [isClock, table.hasClock] at found
              exact (Option.some.inj found).symm
            split at stepped
            · next pending =>
                cases stepped
                refine inv.congr rfl rfl rfl ?_ rfl rfl
                simp [UptimeState.due, aheadOf, Handler.ahead, isClockTimer, clockTimer, pending]
            · cases stepped
        · split at stepped
          · cases stepped
          · next other =>
              cases stepped
              refine inv.congr rfl rfl rfl ?_ rfl rfl
              simp [UptimeState.due, aheadOf, Handler.ahead, other]
      · cases stepped

/-- An increment takes one from what is due. -/
theorem pass (inv : UptimeInv table updateAtStart state) (met : ReadsSettled table state .pass)
    (stepped : uptimeStep table state .pass = some next) :
    UptimeInv table updateAtStart next := by
  have met : state.sec.toNat + 1 < 2 ^ 32 := met
  simp only [uptimeStep] at stepped
  split at stepped
  · next prio htimer passes below entered =>
      cases stepped
      by_cases isClock : htimer.inst = tim5
      · have advanced : (callbackPass htimer state.sec).toNat = state.sec.toNat + 1 := by
          rw [callbackPass, if_pos isClock, uptimerUpdate, UInt32.toNat_add]
          exact Nat.mod_eq_of_lt met
        have due_eq : state.due table =
            UptimeState.due { state with
              sec := callbackPass htimer state.sec
              handlers := ⟨prio, some (htimer, passes)⟩ :: below } table + 1 := by
          simp only [UptimeState.due, entered, aheadOf, Handler.ahead, isClock, if_true]
          omega
        refine ⟨inv.counter_eq, ?_, ?_, inv.exact_time, inv.sorted⟩
        · have accounted := inv.accounted
          rw [due_eq] at accounted
          show (callbackPass htimer state.sec).toNat + _ = _
          rw [advanced, ← Nat.add_right_comm]
          exact accounted
        · intro caller sec reading
          have settledNow := (inv.settled caller sec reading).2
          rw [due_eq] at settledNow
          exact absurd settledNow (Nat.succ_ne_zero _)
      · have unchanged : callbackPass htimer state.sec = state.sec := if_neg isClock
        refine inv.congr unchanged rfl rfl ?_ rfl rfl
        simp [UptimeState.due, entered, aheadOf, Handler.ahead, isClock]
  · cases stepped

theorem irq {prio : ℕ} (inv : UptimeInv table updateAtStart state)
    (stepped : uptimeStep table state (.irq prio) = some next) :
    UptimeInv table updateAtStart next := by
  simp only [uptimeStep] at stepped
  split at stepped
  · cases stepped
    refine inv.congr rfl rfl rfl ?_ rfl rfl
    simp [UptimeState.due, aheadOf, Handler.ahead]
  · cases stepped

theorem handlerReturn (inv : UptimeInv table updateAtStart state)
    (stepped : uptimeStep table state .handlerReturn = some next) :
    UptimeInv table updateAtStart next := by
  simp only [uptimeStep] at stepped
  split at stepped
  · next entered =>
      cases stepped
      refine inv.congr rfl rfl rfl ?_ rfl rfl
      simp [UptimeState.due, entered, aheadOf, Handler.ahead]
  · next entered =>
      split at stepped
      · cases stepped
        refine inv.congr rfl rfl rfl ?_ rfl rfl
        simp [UptimeState.due, entered, aheadOf, Handler.ahead]
      · cases stepped
  · cases stepped

theorem getSec {caller : Caller} (inv : UptimeInv table updateAtStart state)
    (met : ReadsSettled table state (.getSec caller))
    (stepped : uptimeStep table state (.getSec caller) = some next) :
    UptimeInv table updateAtStart next := by
  simp only [uptimeStep] at stepped
  split at stepped
  · cases stepped
    refine ⟨inv.counter_eq, inv.accounted, ?_, inv.exact_time, inv.sorted⟩
    intro other sec reading
    by_cases same : other = caller
    · subst same
      simp only [Function.update_self, Option.some.injEq] at reading
      exact ⟨reading.symm, met⟩
    · simp only [Function.update_of_ne same] at reading
      exact inv.settled other sec reading
  · cases stepped

/-- What was read when the clock had settled is the time at the second read. -/
theorem getMsec {caller : Caller} (inv : UptimeInv table updateAtStart state)
    (stepped : uptimeStep table state (.getMsec caller) = some next) :
    UptimeInv table updateAtStart next := by
  simp only [uptimeStep] at stepped
  split at stepped
  · split at stepped
    · cases stepped
    · next sec reading =>
        cases stepped
        rcases inv.settled caller sec reading with ⟨same, settledNow⟩
        refine ⟨inv.counter_eq, inv.accounted, ?_, ?_, ?_⟩
        · intro other otherSec stillReading
          by_cases isCaller : other = caller
          · subst isCaller
            simp only [Function.update_self, reduceCtorEq] at stillReading
          · simp only [Function.update_of_ne isCaller] at stillReading
            exact inv.settled other otherSec stillReading
        · intro returned member
          rcases List.mem_append.mp member with earlier | last
          · exact inv.exact_time returned earlier
          · rw [List.mem_singleton.mp last]
            have accounted := inv.accounted
            rw [settledNow, Nat.add_zero] at accounted
            refine ⟨?_, Nat.le_refl _⟩
            simp only [clockAt, same, accounted, inv.counter_eq, UptimeState.updates]
        · rw [List.map_append, List.pairwise_append]
          refine ⟨inv.sorted, List.pairwise_singleton _ _, ?_⟩
          intro earlier member now isNow
          rcases List.mem_map.mp member with ⟨returned, earlierReturn, rfl⟩
          rw [List.mem_singleton.mp isNow]
          exact (inv.exact_time returned earlierReturn).2
  · cases stepped

theorem step {event : UptimeEvent} (inv : UptimeInv table updateAtStart state)
    (met : ReadsSettled table state event) (stepped : uptimeStep table state event = some next) :
    UptimeInv table updateAtStart next := by
  cases event with
  | elapse ticks => exact inv.elapse met stepped
  | timerIrq id => exact inv.timerIrq stepped
  | pass => exact inv.pass met stepped
  | irq prio => exact inv.irq stepped
  | handlerReturn => exact inv.handlerReturn stepped
  | getSec caller => exact inv.getSec met stepped
  | getMsec caller => exact inv.getMsec stepped

end UptimeInv

/-- The order of the times carries over to what was returned. -/
theorem UptimeInv.monotone (inv : UptimeInv table updateAtStart state) : state.Monotone where
  ordered := by
    rw [List.pairwise_map]
    apply (List.pairwise_map.mp inv.sorted).imp_of_mem
    intro earlier later earlierReturn laterReturn before
    rw [(inv.exact_time earlier earlierReturn).1, (inv.exact_time later laterReturn).1]
    exact clockAt_mono table updateAtStart before
  usec_lt := by
    intro returned member
    rw [(inv.exact_time returned member).1]
    exact Nat.mod_lt _ (by decide)

theorem uptimeInv_run {events : List UptimeEvent}
    (ran : (uptimeSystem table updateAtStart).run events = some state)
    (met : (uptimeSystem table updateAtStart).Along (ReadsSettled table)
      (uptimeSystem table updateAtStart).init events) :
    UptimeInv table updateAtStart state :=
  System.invariant_along (UptimeInv table updateAtStart)
    (fun _ _ _ inv met stepped => inv.step met stepped) UptimeInv.init ran met

/-- An update event advances `sec` by one exactly if the clock timer is alone in the
table, and in runs whose reads are settled time does not go back. -/
theorem uptime_exact_and_monotone (table : TimerTable) (updateAtStart : Bool) :
    (table.AdvancesByOne ↔ table.timerListLen = 1) ∧
      ∀ events final, (uptimeSystem table updateAtStart).run events = some final →
        (uptimeSystem table updateAtStart).Along (ReadsSettled table)
          (uptimeSystem table updateAtStart).init events →
        final.Monotone ∧
          final.sec.toNat + final.due table =
            table.timerListLen * final.updates updateAtStart := by
  refine ⟨advancesByOne_iff, ?_⟩
  intro events final ran met
  have inv := uptimeInv_run ran met
  exact ⟨inv.monotone, inv.accounted⟩

/-- A thread is preempted between its reads by a handler that asks for the time too, and
asks again after the wrap. -/
def acrossTheWrap : List UptimeEvent :=
  [.elapse 999998, .getSec (.thread 0), .irq 5, .getSec (.handler 0), .elapse 1,
    .getMsec (.handler 0), .handlerReturn, .getMsec (.thread 0), .elapse 1, .timerIrq 0, .pass,
    .handlerReturn, .getSec (.thread 0), .getMsec (.thread 0)]

theorem acrossTheWrap_enabled : ((uptimeSystem timerList false).run acrossTheWrap).isSome := by
  decide +kernel

theorem acrossTheWrap_settled :
    (uptimeSystem timerList false).Along (ReadsSettled timerList)
      (uptimeSystem timerList false).init acrossTheWrap := by
  simp [acrossTheWrap, System.Along, uptimeSystem, uptimeStep, ReadsSettled, clockTimer, timerList,
    UptimeState.executes, UptimeState.preempts, UptimeState.due, aheadOf, Handler.ahead,
    TimerTable.timerListLen, callbackPass, uptimerUpdate, Function.update]
  intro caller notThread _
  exact notThread

theorem uptime_exact_and_monotone_across_wrap :
    let final := (uptimeSystem timerList false).final acrossTheWrap acrossTheWrap_enabled
    final.Monotone ∧ final.sec.toNat + final.due timerList = 1 * final.updates false :=
  (uptime_exact_and_monotone timerList false).2 acrossTheWrap _
    (System.run_final acrossTheWrap_enabled) acrossTheWrap_settled

/-- The counter wraps between the reads of the second call: 0.999999 s, then 0.000000 s. -/
theorem uptime_exact_and_monotone_violated :
    ∃ final, (uptimeSystem timerList false).run
        [.elapse 999999, .getSec (.thread 0), .getMsec (.thread 0), .getSec (.thread 0), .elapse 1,
          .getMsec (.thread 0)] = some final ∧
      final.returned.map Returned.tv = [⟨0, 999999⟩, ⟨0, 0⟩] ∧ ¬final.Monotone := by
  refine ⟨_, rfl, rfl, ?_⟩
  intro monotone
  have ordered : (⟨0, 999999⟩ : Timeval) ≤ ⟨0, 0⟩ :=
    List.rel_of_pairwise_cons monotone.ordered (List.mem_singleton.mpr rfl)
  rcases Prod.Lex.toLex_le_toLex.mp ordered with less | ⟨_, less⟩
  · exact absurd less (by decide)
  · exact absurd less (by decide)

end MqttAccelero.Uptimer
