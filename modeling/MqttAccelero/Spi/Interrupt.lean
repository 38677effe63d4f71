import Mathlib.Logic.Function.Basic
import MqttAccelero.Lib.System
import MqttAccelero.Osal.Semaphore

/-!
# SPI transfers driven by interrupts

`spi_write_interrupt`, `spi_read_interrupt` and `spi_exchange_interrupt` start a
transfer and wait 500 ms for the semaphores that its completion releases. The
completion interrupt may come after the wait has timed out, or not at all; the
HAL turns a call away while a transfer is in progress.

Transfers carry the number of the call that started them, and a token the number
of the transfer whose completion released it. The code knows neither.
-/

namespace MqttAccelero.Spi

open Osal

inductive SemId where
  | txSem
  | rxSem
deriving DecidableEq, Repr

inductive InterruptOp where
  | spiWriteInterrupt
  | spiReadInterrupt
  | spiExchangeInterrupt
deriving DecidableEq, Repr

namespace InterruptOp

/-- The semaphores that a call waits for, in order. -/
def awaits : InterruptOp → List SemId
  | spiWriteInterrupt => [.txSem]
  | spiReadInterrupt => [.rxSem]
  | spiExchangeInterrupt => [.txSem, .rxSem]

def startError : InterruptOp → String
  | spiWriteInterrupt => "Can't start SPI IT transmit routine"
  | spiReadInterrupt => "Can't start SPI IT receive routine"
  | spiExchangeInterrupt => "Can't start SPI transmit/receive routine"

def timeoutError : InterruptOp → SemId → String
  | spiWriteInterrupt, _ | spiReadInterrupt, _ => "Timeout reached"
  | spiExchangeInterrupt, .txSem => "Timeout tx reached"
  | spiExchangeInterrupt, .rxSem => "Timeout rx reached"

end InterruptOp

structure Token where
  sem : Semaphore
  /-- The transfer whose completion released the semaphore last. -/
  source : ℕ
deriving DecidableEq, Repr

/-- A release while the token is there is lost. -/
def Token.release (token : Token) (source : ℕ) : Token where
  sem := (osalSemaphoreRelease token.sem).1
  source := if token.sem.available then token.source else source

/-- A call whose transfer has been started. -/
structure InterruptCall where
  id : ℕ
  op : InterruptOp
  remaining : List SemId
  /-- Where the tokens it has taken come from. -/
  taken : List ℕ
  /-- None of the semaphores it waits for held a token when its transfer was started. -/
  clean : Bool
deriving DecidableEq, Repr

structure InterruptReturned where
  id : ℕ
  op : InterruptOp
  ret : ℤ
  error : Option String
  taken : List ℕ
  /-- The transfer that this call started has completed. -/
  completed : Bool
deriving DecidableEq, Repr

structure InterruptState where
  sems : SemId → Token
  /-- The transfer in progress, with the call that started it. -/
  transfer : Option (ℕ × InterruptOp)
  call : Option InterruptCall
  started : ℕ
  completed : List ℕ
  returned : List InterruptReturned

inductive InterruptEvent where
  /-- A call is made; the HAL starts its transfer or turns it away. -/
  | call (op : InterruptOp) (accepted : Bool)
  | wait (waitEnd : WaitEnd)
  /-- The completion interrupt of the transfer in progress. -/
  | completion
  /-- The transfer in progress ends with an error, for which there is no callback. -/
  | failure
deriving DecidableEq, Repr

namespace InterruptState

def release (state : InterruptState) (which : SemId) (source : ℕ) : InterruptState :=
  { state with sems := Function.update state.sems which ((state.sems which).release source) }

def halSpiTxCpltCallback (state : InterruptState) (source : ℕ) : InterruptState :=
  state.release .txSem source

def halSpiRxCpltCallback (state : InterruptState) (source : ℕ) : InterruptState :=
  state.release .rxSem source

def halSpiTxRxCpltCallback (state : InterruptState) (source : ℕ) : InterruptState :=
  (state.release .txSem source).release .rxSem source

/-- The callback that the HAL invokes when a transfer completes. -/
def callback (state : InterruptState) (source : ℕ) : InterruptOp → InterruptState
  | .spiWriteInterrupt => state.halSpiTxCpltCallback source
  | .spiReadInterrupt => state.halSpiRxCpltCallback source
  | .spiExchangeInterrupt => state.halSpiTxRxCpltCallback source

def finish (state : InterruptState) (call : InterruptCall) (ret : ℤ) (error : Option String) :
    InterruptState :=
  { state with
    call := none
    returned := state.returned ++
      [⟨call.id, call.op, ret, error, call.taken, decide (call.id ∈ state.completed)⟩] }

/-- The HAL has turned the call away. -/
def refuse (state : InterruptState) (op : InterruptOp) : InterruptState :=
  { state with
    started := state.started + 1
    returned := state.returned ++
      [⟨state.started, op, 1, some op.startError, [], false⟩] }

def start (state : InterruptState) (op : InterruptOp) : InterruptState :=
  { state with
    started := state.started + 1
    transfer := some (state.started, op)
    call := some
      { id := state.started
        op := op
        remaining := op.awaits
        taken := []
        clean := op.awaits.all fun which => !(state.sems which).sem.available } }

/-- The token of `which` is taken, and `rest` remains to be waited for. -/
def take (state : InterruptState) (call : InterruptCall) (which : SemId) (rest : List SemId) :
    InterruptCall :=
  { call with
    remaining := rest
    taken := call.taken ++ [(state.sems which).source] }

/-- The call has waited for `which` and then has `rest` to wait for. -/
def waited (state : InterruptState) (call : InterruptCall) (which : SemId) (rest : List SemId)
    (sem : Semaphore) (ret : ℤ) : InterruptState :=
  let left :=
    { state with sems := Function.update state.sems which { state.sems which with sem := sem } }
  if ret ≠ 0 then left.finish call 1 (some (call.op.timeoutError which))
  else if rest = [] then left.finish (state.take call which rest) 0 none
  else { left with call := some (state.take call which rest) }

end InterruptState

def interruptStep (state : InterruptState) : InterruptEvent → Option InterruptState
  | .call op accepted =>
      match state.call with
      | some _ => none
      | none =>
          if !accepted then some (state.refuse op)
          else if state.transfer.isSome then none
          else some (state.start op)
  | .wait waitEnd =>
      state.call.bind fun call =>
        match call.remaining with
        | [] => none
        | which :: rest =>
            (osalSemaphoreWait (state.sems which).sem waitEnd).map fun (sem, ret) =>
              state.waited call which rest sem ret
  | .completion =>
      state.transfer.map fun (id, op) =>
        { state with transfer := none, completed := state.completed ++ [id] }.callback id op
  | .failure => state.transfer.map fun _ => { state with transfer := none }

/-- Both semaphores are created empty. -/
def interruptSystem : System InterruptState InterruptEvent where
  init := ⟨fun _ => ⟨⟨false⟩, 0⟩, none, none, 0, [], []⟩
  step := interruptStep

/-! ## What is claimed of a call, and what decides it -/

/-- If the call returns 0, its own transfer has completed and all tokens it took come from it. -/
def InterruptReturned.ReportsOwn (call : InterruptReturned) : Prop :=
  call.ret = 0 → call.completed ∧ ∀ source ∈ call.taken, source = call.id

def InterruptState.ReportsOwn (state : InterruptState) : Prop :=
  ∀ call ∈ state.returned, call.ReportsOwn

/-- A call that gets its last token now has found the semaphores empty at its start. -/
def StartedClean (state : InterruptState) (event : InterruptEvent) : Prop :=
  ∀ call which, state.call = some call → call.remaining = [which] → event = .wait .taken →
    call.clean

/-- The call has taken, or is going to take, a token of another transfer. -/
def InterruptState.TakesForeign (state : InterruptState) (call : InterruptCall) : Prop :=
  (∃ source ∈ call.taken, source ≠ call.id) ∨
    ∃ which ∈ call.remaining,
      (state.sems which).sem.available ∧ (state.sems which).source ≠ call.id

structure InterruptInv (state : InterruptState) : Prop where
  /-- Tokens come from completed transfers, and these from calls that have been made. -/
  sources : ∀ which, (state.sems which).sem.available →
    (state.sems which).source ∈ state.completed
  made : ∀ id ∈ state.completed, id < state.started
  /-- A transfer in progress while a call waits is the call's own. -/
  own : ∀ call, state.call = some call → call.id < state.started ∧
    ∀ id op, state.transfer = some (id, op) → id = call.id
  transferMade : ∀ id op, state.transfer = some (id, op) → id < state.started
  taken : ∀ call, state.call = some call → ∀ source ∈ call.taken, source ∈ state.completed
  unclean : ∀ call, state.call = some call → (call.clean = false ↔ state.TakesForeign call)
  nodup : ∀ call, state.call = some call → call.remaining.Nodup

variable {state next : InterruptState} {call : InterruptCall}

/-! ## Completion -/

theorem Token.release_of_available {token : Token} {source : ℕ} (available : token.sem.available) :
    token.release source = ⟨⟨true⟩, token.source⟩ := by
  simp [Token.release, available]

theorem Token.release_of_empty {token : Token} {source : ℕ} (empty : ¬token.sem.available) :
    token.release source = ⟨⟨true⟩, source⟩ := by
  simp [Token.release, empty]

theorem InterruptState.callback_eq (state : InterruptState) (source : ℕ) (op : InterruptOp) :
    state.callback source op =
      { state with
        sems := fun which =>
          if which ∈ op.awaits then (state.sems which).release source else state.sems which } := by
  cases op with
  | spiWriteInterrupt =>
      simp only [callback, halSpiTxCpltCallback, release, mk.injEq, and_true]
      funext which
      cases which <;> simp [InterruptOp.awaits, Function.update]
  | spiReadInterrupt =>
      simp only [callback, halSpiRxCpltCallback, release, mk.injEq, and_true]
      funext which
      cases which <;> simp [InterruptOp.awaits, Function.update]
  | spiExchangeInterrupt =>
      simp only [callback, halSpiTxRxCpltCallback, release, mk.injEq, and_true]
      funext which
      cases which <;> simp [InterruptOp.awaits, Function.update]

/-- A transfer that completes adds no token of another one. -/
theorem release_foreign_iff {token : Token} {source : ℕ} :
    ((token.release source).sem.available ∧ (token.release source).source ≠ source) ↔
      (token.sem.available ∧ token.source ≠ source) := by
  by_cases available : token.sem.available
  · simp [Token.release_of_available available, available]
  · simp [Token.release_of_empty available, available]

theorem release_source_mem {token : Token} {source : ℕ} {completed : List ℕ}
    (known : token.sem.available → token.source ∈ completed) :
    (token.release source).source ∈ completed ++ [source] := by
  by_cases available : token.sem.available
  · rw [Token.release_of_available available]
    exact List.mem_append_left _ (known available)
  · rw [Token.release_of_empty available]
    exact List.mem_append_right _ (List.mem_singleton_self _)

theorem InterruptInv.completion_step (inv : InterruptInv state)
    (stepped : interruptStep state .completion = some next) : InterruptInv next := by
  simp only [interruptStep, Option.map_eq_some_iff, Prod.exists] at stepped
  rcases stepped with ⟨id, op, inProgress, rfl⟩
  rw [InterruptState.callback_eq]
  constructor
  · intro which available
    simp only at available ⊢
    split at available
    next awaited =>
      rw [if_pos awaited]
      exact release_source_mem (inv.sources which)
    next other =>
      rw [if_neg other]
      exact List.mem_append_left _ (inv.sources which available)
  · intro other completed
    rcases List.mem_append.mp completed with earlier | now
    · exact inv.made other earlier
    · rw [List.mem_singleton.mp now]
      exact inv.transferMade id op inProgress
  · intro call current
    exact ⟨(inv.own call current).1, by simp⟩
  · simp
  · intro call current source isTaken
    exact List.mem_append_left _ (inv.taken call current source isTaken)
  · intro call current
    have isOwn := (inv.own call current).2 id op inProgress
    subst isOwn
    rw [inv.unclean call current]
    apply or_congr_right
    apply exists_congr
    intro which
    apply and_congr_right
    intro _
    simp only
    split
    · exact release_foreign_iff.symm
    · rfl
  · exact inv.nodup

theorem InterruptInv.failure_step (inv : InterruptInv state)
    (stepped : interruptStep state .failure = some next) : InterruptInv next := by
  simp only [interruptStep, Option.map_eq_some_iff] at stepped
  rcases stepped with ⟨-, -, rfl⟩
  exact ⟨inv.sources, inv.made, fun call current => ⟨(inv.own call current).1, by simp⟩, by simp,
    inv.taken, inv.unclean, inv.nodup⟩

/-! ## Calls -/

theorem InterruptInv.finish (inv : InterruptInv state) (ret : ℤ) (error : Option String) :
    InterruptInv (state.finish call ret error) := by
  refine ⟨inv.sources, inv.made, ?_, inv.transferMade, ?_, ?_, ?_⟩
  all_goals
    intro other current
    cases current

theorem InterruptInv.call_step {op : InterruptOp} {accepted : Bool} (inv : InterruptInv state)
    (stepped : interruptStep state (.call op accepted) = some next) : InterruptInv next := by
  simp only [interruptStep] at stepped
  split at stepped
  next => cases stepped
  next idle =>
    split at stepped
    · cases stepped
      refine ⟨inv.sources, ?_, ?_, ?_, ?_, ?_, ?_⟩
      · intro id completed
        exact Nat.lt_succ_of_lt (inv.made id completed)
      · intro call current
        simp [InterruptState.refuse, idle] at current
      · intro id op inProgress
        exact Nat.lt_succ_of_lt (inv.transferMade id op inProgress)
      all_goals
        intro call current
        simp [InterruptState.refuse, idle] at current
    · split at stepped
      · cases stepped
      next =>
        cases stepped
        refine ⟨inv.sources, ?_, ?_, ?_, ?_, ?_, ?_⟩
        · intro id completed
          exact Nat.lt_succ_of_lt (inv.made id completed)
        · rintro call ⟨⟩
          refine ⟨Nat.lt_succ_self _, ?_⟩
          rintro id op ⟨⟩
          rfl
        · rintro id op ⟨⟩
          exact Nat.lt_succ_self _
        · rintro call ⟨⟩
          simp
        · rintro call ⟨⟩
          -- Its number is new, so a token that is there is not its own.
          have foreign : ∀ which, (state.sems which).sem.available →
              (state.sems which).source ≠ state.started := by
            intro which available
            exact Nat.ne_of_lt (inv.made _ (inv.sources which available))
          simp only [InterruptState.TakesForeign, InterruptState.start, List.not_mem_nil,
            false_and, exists_false, false_or, List.all_eq_false, Bool.not_eq_true',
            Bool.not_eq_false]
          constructor
          · rintro ⟨which, awaited, available⟩
            exact ⟨which, awaited, available, foreign which available⟩
          · rintro ⟨which, awaited, available, -⟩
            exact ⟨which, awaited, available⟩
        · rintro call ⟨⟩
          cases op <;> simp [InterruptOp.awaits]

/-! ## Waiting -/

/-- A wait that times out ends the call; one that gets its token goes on to the next semaphore,
or ends the call. -/
theorem wait_cases {waitEnd : WaitEnd}
    (stepped : interruptStep state (.wait waitEnd) = some next) :
    ∃ call which rest, state.call = some call ∧ call.remaining = which :: rest ∧
      ((waitEnd = .timedOut ∧
          next = state.finish call 1 (some (call.op.timeoutError which))) ∨
        (waitEnd = .taken ∧ (state.sems which).sem.available ∧
          next = state.waited call which rest ⟨false⟩ 0)) := by
  simp only [interruptStep, Option.bind_eq_some_iff] at stepped
  rcases stepped with ⟨call, current, stepped⟩
  split at stepped
  next => cases stepped
  next which rest toWait =>
    simp only [Option.map_eq_some_iff, Prod.exists] at stepped
    rcases stepped with ⟨sem, ret, waited, rfl⟩
    refine ⟨call, which, rest, current, toWait, ?_⟩
    by_cases ok : ret = 0
    · subst ok
      rcases osalSemaphoreWait_eq_zero waited with ⟨available, rfl, isTaken⟩
      right
      exact ⟨isTaken, by rw [available], rfl⟩
    · rcases osalSemaphoreWait_ne_zero waited ok with ⟨empty, rfl, timedOut⟩
      left
      have same : ({ state.sems which with sem := ⟨false⟩ } : Token) = state.sems which := by
        rw [← empty]
      refine ⟨timedOut, ?_⟩
      rw [InterruptState.waited, same, Function.update_eq_self, if_pos ok]

theorem InterruptState.take_foreign_iff {which : SemId} {rest : List SemId}
    (toWait : call.remaining = which :: rest) (nodup : call.remaining.Nodup)
    (available : (state.sems which).sem.available) (after : InterruptState)
    (emptied : after.sems =
      Function.update state.sems which { state.sems which with sem := ⟨false⟩ }) :
    after.TakesForeign (state.take call which rest) ↔ state.TakesForeign call := by
  rw [toWait] at nodup
  have notAgain := (List.nodup_cons.mp nodup).1
  have kept : ∀ other ∈ rest, after.sems other = state.sems other := by
    intro other toWaitOther
    rw [emptied, Function.update_of_ne]
    rintro rfl
    exact notAgain toWaitOther
  simp only [TakesForeign, take, toWait, List.mem_append, List.mem_cons, List.not_mem_nil,
    or_false, or_and_right, exists_or, exists_eq_left, available, true_and]
  rw [or_assoc]
  apply or_congr_right
  apply or_congr_right
  apply exists_congr
  intro other
  apply and_congr_right
  intro toWaitOther
  rw [kept other toWaitOther]

theorem InterruptInv.wait_step {waitEnd : WaitEnd} (inv : InterruptInv state)
    (stepped : interruptStep state (.wait waitEnd) = some next) : InterruptInv next := by
  rcases wait_cases stepped with
    ⟨call, which, rest, current, toWait, ⟨-, rfl⟩ | ⟨-, available, rfl⟩⟩
  · exact inv.finish 1 _
  · have going : InterruptInv
        { state with
          sems := Function.update state.sems which { state.sems which with sem := ⟨false⟩ }
          call := some (state.take call which rest) } := by
      refine ⟨?_, inv.made, ?_, inv.transferMade, ?_, ?_, ?_⟩
      · intro other
        by_cases same : other = which
        · subst same
          simp
        · simp only [Function.update_of_ne same]
          exact inv.sources other
      · rintro other ⟨⟩
        exact inv.own call current
      · rintro other ⟨⟩ source isTaken
        rcases List.mem_append.mp isTaken with earlier | now
        · exact inv.taken call current source earlier
        · rw [List.mem_singleton.mp now]
          exact inv.sources which available
      · rintro other ⟨⟩
        rw [InterruptState.take_foreign_iff toWait (inv.nodup call current) available _ rfl]
        exact inv.unclean call current
      · rintro other ⟨⟩
        have nodup := inv.nodup call current
        rw [toWait] at nodup
        exact (List.nodup_cons.mp nodup).2
    simp only [InterruptState.waited, ne_eq, not_true_eq_false, if_false]
    split
    · exact going.finish 0 none
    · exact going

theorem InterruptInv.init : InterruptInv interruptSystem.init := by
  constructor <;> simp [interruptSystem]

theorem InterruptInv.step {event : InterruptEvent} (inv : InterruptInv state)
    (stepped : interruptStep state event = some next) : InterruptInv next := by
  cases event with
  | call op accepted => exact inv.call_step stepped
  | wait waitEnd => exact inv.wait_step stepped
  | completion => exact inv.completion_step stepped
  | failure => exact inv.failure_step stepped

/-! ## Reports -/

theorem startedClean_of_ne {event : InterruptEvent} (other : event ≠ .wait .taken) :
    StartedClean state event := by
  intro call which _ _ isTaken
  exact absurd isTaken other

theorem InterruptState.reportsOwn_congr (same : next.returned = state.returned) :
    next.ReportsOwn ↔ state.ReportsOwn := by
  simp [ReportsOwn, same]

theorem InterruptState.reportsOwn_concat {call : InterruptReturned}
    (concat : next.returned = state.returned ++ [call]) :
    next.ReportsOwn ↔ state.ReportsOwn ∧ call.ReportsOwn := by
  simp [ReportsOwn, concat, or_imp, forall_and]

theorem reportsOwn_of_error {call : InterruptReturned} (failed : call.ret = 1) :
    call.ReportsOwn := by
  intro ok
  rw [failed] at ok
  cases ok

/-- The call that takes its last token reports its own transfer exactly if it started clean. -/
theorem reportsOwn_last_iff {which : SemId} (inv : InterruptInv state)
    (current : state.call = some call) (toWait : call.remaining = [which])
    (available : (state.sems which).sem.available) :
    InterruptReturned.ReportsOwn
        ⟨call.id, call.op, 0, none, (state.take call which []).taken,
          decide (call.id ∈ state.completed)⟩ ↔
      call.clean := by
  have foreign_iff := InterruptState.take_foreign_iff toWait (inv.nodup call current) available
    { state with
      sems := Function.update state.sems which { state.sems which with sem := ⟨false⟩ } } rfl
  have unclean_iff : call.clean = false ↔
      ∃ source ∈ (state.take call which []).taken, source ≠ call.id := by
    rw [inv.unclean call current, ← foreign_iff]
    simp [InterruptState.TakesForeign, InterruptState.take]
  constructor
  · intro reports
    by_contra unclean
    rcases unclean_iff.mp (Bool.eq_false_iff.mpr unclean) with ⟨source, isTaken, foreign⟩
    exact foreign ((reports rfl).2 source isTaken)
  · intro clean _
    have own : ∀ source ∈ (state.take call which []).taken, source = call.id := by
      intro source isTaken
      by_contra foreign
      have unclean := unclean_iff.mpr ⟨source, isTaken, foreign⟩
      rw [clean] at unclean
      cases unclean
    refine ⟨?_, own⟩
    have last := own (state.sems which).source (by simp [InterruptState.take])
    have completed := inv.sources which available
    rw [last] at completed
    exact decide_eq_true completed

theorem InterruptInv.reportsOwn_wait {waitEnd : WaitEnd} (inv : InterruptInv state)
    (stepped : interruptStep state (.wait waitEnd) = some next) :
    next.ReportsOwn ↔ state.ReportsOwn ∧ StartedClean state (.wait waitEnd) := by
  rcases wait_cases stepped with
    ⟨call, which, rest, current, toWait, ⟨rfl, rfl⟩ | ⟨rfl, available, rfl⟩⟩
  · have clean : StartedClean state (.wait .timedOut) := startedClean_of_ne (by simp)
    rw [InterruptState.reportsOwn_concat rfl]
    simp only [clean, and_true, and_iff_left_iff_imp]
    intro _
    exact reportsOwn_of_error rfl
  · rcases rest with _ | ⟨second, rest⟩
    · have clean_iff : StartedClean state (.wait .taken) ↔ call.clean := by
        constructor
        · intro clean
          exact clean call which current toWait rfl
        · rintro clean other _ currentOther - -
          rw [current] at currentOther
          cases currentOther
          exact clean
      rw [clean_iff, ← reportsOwn_last_iff inv current toWait available]
      exact InterruptState.reportsOwn_concat rfl
    · have clean : StartedClean state (.wait .taken) := by
        rintro other last currentOther toWaitOther -
        rw [current] at currentOther
        cases currentOther
        rw [toWait] at toWaitOther
        cases toWaitOther
      simp only [clean, and_true]
      exact InterruptState.reportsOwn_congr rfl

theorem InterruptInv.reportsOwn_step {event : InterruptEvent} (inv : InterruptInv state)
    (stepped : interruptStep state event = some next) :
    next.ReportsOwn ↔ state.ReportsOwn ∧ StartedClean state event := by
  cases event with
  | call op accepted =>
      rw [and_iff_left (startedClean_of_ne (by simp))]
      simp only [interruptStep] at stepped
      split at stepped
      next => cases stepped
      next =>
        split at stepped
        · cases stepped
          rw [InterruptState.reportsOwn_concat rfl, and_iff_left (reportsOwn_of_error rfl)]
        · split at stepped
          · cases stepped
          · cases stepped
            exact InterruptState.reportsOwn_congr rfl
  | wait waitEnd => exact inv.reportsOwn_wait stepped
  | completion =>
      rw [and_iff_left (startedClean_of_ne (by simp))]
      simp only [interruptStep, Option.map_eq_some_iff, Prod.exists] at stepped
      rcases stepped with ⟨id, op, -, rfl⟩
      rw [InterruptState.callback_eq]
      exact InterruptState.reportsOwn_congr rfl
  | failure =>
      rw [and_iff_left (startedClean_of_ne (by simp))]
      simp only [interruptStep, Option.map_eq_some_iff] at stepped
      rcases stepped with ⟨-, -, rfl⟩
      exact InterruptState.reportsOwn_congr rfl

/-- Every call that returns 0 reports its own transfer exactly in the runs in which each of them
found the semaphores it waits for empty when its transfer was started. -/
theorem interrupt_calls_report_own_iff {events : List InterruptEvent} {final : InterruptState}
    (ran : interruptSystem.run events = some final) :
    final.ReportsOwn ↔ interruptSystem.Along StartedClean interruptSystem.init events := by
  have reports_iff := System.good_iff_along StartedClean InterruptInv InterruptState.ReportsOwn
    (fun _ _ _ inv stepped => inv.step stepped)
    (fun _ _ _ inv stepped => inv.reportsOwn_step stepped) InterruptInv.init ran
  have reportsAtStart : interruptSystem.init.ReportsOwn := by
    intro call returned
    cases returned
  rw [reports_iff]
  exact and_iff_right reportsAtStart

/-! ## Only a timeout leaves tokens behind -/

/-- Whatever tokens there are belong to the call that is waiting. -/
structure InterruptState.Settled (state : InterruptState) : Prop where
  idle : state.call = none →
    state.transfer = none ∧ ∀ which, ¬(state.sems which).sem.available
  clean : ∀ call, state.call = some call → call.clean
  spent : ∀ call, state.call = some call → ∀ which, which ∉ call.remaining →
    ¬(state.sems which).sem.available
  running : ∀ call id op, state.call = some call → state.transfer = some (id, op) →
    call.remaining = op.awaits ∧ ∀ which, ¬(state.sems which).sem.available

namespace InterruptState.Settled

theorem call_step {op : InterruptOp} {accepted : Bool} (settled : state.Settled)
    (stepped : interruptStep state (.call op accepted) = some next) : next.Settled := by
  simp only [interruptStep] at stepped
  split at stepped
  next => cases stepped
  next idle =>
    rcases settled.idle idle with ⟨noTransfer, empty⟩
    split at stepped
    · cases stepped
      refine ⟨fun _ => ⟨noTransfer, empty⟩, ?_, ?_, ?_⟩
      all_goals simp [refuse, idle]
    · split at stepped
      · cases stepped
      · cases stepped
        refine ⟨by simp [start], ?_, ?_, ?_⟩
        · rintro call ⟨⟩
          simpa [start] using fun which _ => empty which
        · intro call _ which _
          exact empty which
        · rintro call id other ⟨⟩ ⟨⟩
          exact ⟨rfl, empty⟩

theorem taken_step (settled : state.Settled)
    (stepped : interruptStep state (.wait .taken) = some next) : next.Settled := by
  rcases wait_cases stepped with
    ⟨call, which, rest, current, toWait, ⟨timedOut, -⟩ | ⟨-, available, rfl⟩⟩
  · cases timedOut
  · have noTransfer : state.transfer = none := by
      rcases inProgress : state.transfer with _ | ⟨id, op⟩
      · rfl
      · exact absurd available ((settled.running call id op current inProgress).2 which)
    have spent : ∀ other, other ∉ rest →
        ¬(Function.update state.sems which
          { state.sems which with sem := ⟨false⟩ } other).sem.available := by
      intro other notInRest
      by_cases same : other = which
      · subst same
        simp
      · rw [Function.update_of_ne same]
        apply settled.spent call current
        rw [toWait]
        simp [same, notInRest]
    simp only [waited, ne_eq, not_true_eq_false, if_false]
    split
    next last =>
      subst last
      refine ⟨fun _ => ⟨noTransfer, fun other => spent other List.not_mem_nil⟩, ?_, ?_, ?_⟩
      all_goals simp [finish]
    next =>
      refine ⟨by simp, ?_, ?_, ?_⟩
      · rintro other ⟨⟩
        exact settled.clean call current
      · rintro other ⟨⟩
        exact spent
      · intro other id op _ inProgress
        simp only [noTransfer] at inProgress
        cases inProgress

theorem completion_step (settled : state.Settled)
    (stepped : interruptStep state .completion = some next) : next.Settled := by
  simp only [interruptStep, Option.map_eq_some_iff, Prod.exists] at stepped
  rcases stepped with ⟨id, op, inProgress, rfl⟩
  rw [callback_eq]
  refine ⟨?_, settled.clean, ?_, by simp⟩
  · intro idle
    have noTransfer := (settled.idle idle).1
    rw [inProgress] at noTransfer
    cases noTransfer
  · intro call current which notToWait
    have waitsForAll := (settled.running call id op current inProgress).1
    rw [waitsForAll] at notToWait
    simp only [if_neg notToWait]
    exact (settled.running call id op current inProgress).2 which

theorem failure_step (settled : state.Settled)
    (stepped : interruptStep state .failure = some next) : next.Settled := by
  simp only [interruptStep, Option.map_eq_some_iff] at stepped
  rcases stepped with ⟨-, -, rfl⟩
  exact ⟨fun idle => ⟨rfl, (settled.idle idle).2⟩, settled.clean, settled.spent, by simp⟩

theorem step {event : InterruptEvent} (settled : state.Settled)
    (inTime : event ≠ .wait .timedOut) (stepped : interruptStep state event = some next) :
    next.Settled := by
  cases event with
  | call op accepted => exact settled.call_step stepped
  | wait waitEnd =>
      cases waitEnd with
      | taken => exact settled.taken_step stepped
      | timedOut => exact absurd rfl inTime
  | completion => exact settled.completion_step stepped
  | failure => exact settled.failure_step stepped

theorem init : interruptSystem.init.Settled := by
  constructor <;> simp [interruptSystem]

end InterruptState.Settled

/-- As long as no wait times out, every call starts clean. -/
theorem startedClean_of_no_timeout {events : List InterruptEvent}
    (inTime : ∀ event ∈ events, event ≠ .wait .timedOut) :
    interruptSystem.Along StartedClean interruptSystem.init events := by
  have along : interruptSystem.Along (fun _ event => event ≠ .wait .timedOut)
      interruptSystem.init events := System.along_of_forall interruptSystem.init inTime
  refine System.along_of_invariant ?_ ?_ InterruptState.Settled.init along
  · intro current event next settled inTime stepped
    exact settled.step inTime stepped
  · intro current event settled _ call which isCurrent _ _
    exact settled.clean call isCurrent

/-! ## Two runs -/

/-- A write and the completion of its transfer, and after that a read. -/
def writeThenRead : List InterruptEvent :=
  [.call .spiWriteInterrupt true, .completion, .wait .taken, .call .spiReadInterrupt true,
    .completion, .wait .taken]

/-- The transfer of a write completes after its wait has timed out, and the next write starts. -/
def lateCompletion : List InterruptEvent :=
  [.call .spiWriteInterrupt true, .wait .timedOut, .completion, .call .spiWriteInterrupt true,
    .wait .taken]

theorem writeThenRead_enabled : (interruptSystem.run writeThenRead).isSome := by
  decide +kernel

theorem interrupt_calls_report_own_in_time :
    (interruptSystem.final writeThenRead writeThenRead_enabled).ReportsOwn ↔
      interruptSystem.Along StartedClean interruptSystem.init writeThenRead :=
  interrupt_calls_report_own_iff (System.run_final writeThenRead_enabled)

/-- The second write returns 0 with the token of the first, its own transfer still going on. -/
theorem interrupt_calls_report_own_violated :
    ∃ final, interruptSystem.run lateCompletion = some final ∧
      final.returned.map (fun call => (call.id, call.ret, call.taken, call.completed)) =
        [(0, 1, [], false), (1, 0, [0], false)] ∧
      ¬final.ReportsOwn := by
  refine ⟨_, rfl, rfl, ?_⟩
  intro reports
  have own := reports ⟨1, .spiWriteInterrupt, 0, none, [0], false⟩ (by decide +kernel)
  exact absurd (own rfl).1 (by decide)

end MqttAccelero.Spi
