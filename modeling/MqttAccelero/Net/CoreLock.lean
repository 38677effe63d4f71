import MqttAccelero.Net.EventLoop

/-!
# The core lock in the receive loop

`ll_input` returning NULL leaves the locked region through `goto proceed`, past
`UNLOCK_TCPIP_CORE`. The lock is recursive, so the loop itself runs on, and every
such iteration adds one to its hold on the lock for ever.

The loop is studied against an arbitrary environment: between two steps the USB
side may become anything at all.
-/

namespace MqttAccelero.Net

open Usb

inductive OpenEvent where
  | net (event : NetEvent)
  | environment (usb : UsbDevice)

def openStep (net : NetState) : OpenEvent → Option NetState
  | .net event => netStep net event
  | .environment usb => some { net with usb }

def openSystem : System NetState OpenEvent where
  init := netInit
  step := openStep

/-- What `ll_input` finds at its next test or allocation makes it return a chain. -/
def InputSucceeds (net : NetState) (results : CallResults) : LoopPc → Prop
  | .testRxLength _ => ∀ hcdc ∈ net.usb.pClassData, 0 < hcdc.rxLength
  | .testRxState _ => ∀ hcdc ∈ net.usb.pClassData, hcdc.rxState = 1
  | .pbufAlloc _ => results.pool.isSome
  | _ => True

def KeepsBalance (net : NetState) : OpenEvent → Prop
  | .net (.loop results) => InputSucceeds net results net.loop.pc
  | _ => True

/-- How often the loop is meant to hold the lock at a statement. -/
def LoopPc.meantToHold : LoopPc → ℕ
  | .llInput | .testRxLength _ | .testRxState _ | .pbufAlloc _ | .copyFrame _ _ | .setLen _ _
  | .input _ | .pbufFree _ | .unlockCore => 1
  | _ => 0

/-- The loop holds the lock `extra` times more than it is meant to. -/
structure Leaked (extra : ℕ) (net : NetState) : Prop where
  holds : net.loop.pc ≠ .fault → net.loop.coreLock = net.loop.pc.meantToHold + extra
  counted : net.loop.trace.count .lock = net.loop.trace.count .unlock + net.loop.coreLock

theorem Leaked.usb {extra : ℕ} {net : NetState} (leaked : Leaked extra net) (usb : UsbDevice) :
    Leaked extra { net with usb } :=
  ⟨leaked.holds, leaked.counted⟩

/-- A step which neither locks nor unlocks; `meant` says what that changes. -/
theorem Leaked.quiet {extra after : ℕ} {net : NetState} (leaked : Leaked extra net)
    {loop : LoopThread} {usb : UsbDevice} {added : List LoopAct}
    (trace : loop.trace = net.loop.trace ++ added)
    (silent : ∀ act ∈ added, act ≠ .lock ∧ act ≠ .unlock)
    (same : loop.coreLock = net.loop.coreLock) (running : net.loop.pc ≠ .fault)
    (meant : net.loop.pc.meantToHold + extra = loop.pc.meantToHold + after) :
    Leaked after ⟨usb, loop⟩ := by
  have noLock : added.count .lock = 0 :=
    List.count_eq_zero.mpr fun member => (silent _ member).1 rfl
  have noUnlock : added.count .unlock = 0 :=
    List.count_eq_zero.mpr fun member => (silent _ member).2 rfl
  refine ⟨fun _ => ?_, ?_⟩
  · change loop.coreLock = loop.pc.meantToHold + after
    rw [same, leaked.holds running, meant]
  · change loop.trace.count .lock = loop.trace.count .unlock + loop.coreLock
    rw [trace, List.count_append, List.count_append, noLock, noUnlock, same, leaked.counted]
    rfl

theorem Leaked.fault {extra : ℕ} {net : NetState} (leaked : Leaked extra net)
    (pointer installed : Option HandleId) (after : ℕ) :
    Leaked after ((net.record (.access pointer installed)).goto .fault) := by
  refine ⟨fun running => absurd rfl running, ?_⟩
  change (net.loop.trace ++ [_]).count _ = (net.loop.trace ++ [_]).count _ + net.loop.coreLock
  rw [List.count_append, List.count_append, leaked.counted]
  rfl

/-- A statement that goes through a pointer goes on as written, or faults. -/
theorem Leaked.withHandle {extra after : ℕ} {net : NetState} (leaked : Leaked extra net)
    {pointer : Option HandleId} {body : ClassHandle → NetState → NetState}
    (goesOn : ∀ hcdc, net.usb.pClassData = some hcdc →
      Leaked after (body hcdc (net.record (.access pointer (some hcdc.id))))) :
    Leaked after (net.withHandle pointer body) := by
  rcases net.withHandle_cases pointer body with ⟨hcdc, present, -, through⟩ | ⟨-, faulted⟩
  · rw [through]
    exact goesOn hcdc present
  · rw [faulted]
    exact leaked.fault _ _ _

theorem Leaked.lock {extra : ℕ} {net : NetState} (leaked : Leaked extra net)
    {flags : NetEvents} (pc : net.loop.pc = .newPacket flags) :
    Leaked extra (({ net with loop := { net.loop with coreLock := net.loop.coreLock + 1 } }.record
      .lock).goto .llInput) := by
  have running : net.loop.pc ≠ .fault := by
    rw [pc]
    intro faulted
    cases faulted
  have holds := leaked.holds running
  rw [pc] at holds
  refine ⟨fun _ => ?_, ?_⟩
  · change net.loop.coreLock + 1 = 1 + extra
    rw [holds]
    change 0 + extra + 1 = 1 + extra
    omega
  · change (net.loop.trace ++ [_]).count _ = (net.loop.trace ++ [_]).count _ +
      (net.loop.coreLock + 1)
    rw [List.count_append, List.count_append, leaked.counted]
    rfl

theorem Leaked.unlock {extra : ℕ} {net : NetState} (leaked : Leaked extra net)
    (pc : net.loop.pc = .unlockCore) :
    Leaked extra (({ net with loop := { net.loop with coreLock := net.loop.coreLock - 1 } }.record
      .unlock).goto .resetRxLength) := by
  have running : net.loop.pc ≠ .fault := by
    rw [pc]
    intro faulted
    cases faulted
  have held : net.loop.coreLock = extra + 1 := by
    rw [leaked.holds running, pc]
    exact Nat.add_comm 1 extra
  refine ⟨fun _ => ?_, ?_⟩
  · change net.loop.coreLock - 1 = 0 + extra
    omega
  · change (net.loop.trace ++ [_]).count _ = (net.loop.trace ++ [_]).count _ +
      (net.loop.coreLock - 1)
    rw [List.count_append, List.count_append, leaked.counted, held]
    simp
    omega

/-- Where `ll_input` goes on or the loop is elsewhere, nothing leaks. -/
theorem Leaked.kept_step {extra : ℕ} {net next : NetState} {results : CallResults}
    (leaked : Leaked extra net) (succeeds : InputSucceeds net results net.loop.pc)
    (stepped : loopStep results net = some next) : Leaked extra next := by
  have running : net.loop.pc ≠ .fault := by
    intro faulted
    simp [loopStep, faulted] at stepped
  cases pc : net.loop.pc with
  | notifyWait =>
      simp only [loopStep, pc] at stepped
      split at stepped
      · cases stepped
        exact leaked.quiet (List.append_nil _).symm (by simp) rfl running (by rw [pc]; rfl)
      · cases stepped
  | setLinkUp flags | setLinkDown flags =>
      simp only [loopStep, pc] at stepped
      split at stepped
      · cases stepped
        exact leaked.quiet (List.append_nil _).symm (by simp) rfl running (by rw [pc]; rfl)
      · cases stepped
        exact leaked.quiet (List.append_nil _).symm (by simp) rfl running (by rw [pc]; rfl)
  | loadHcdc flags | clearHcdc flags | llInput =>
      simp only [loopStep, pc] at stepped
      cases stepped
      exact leaked.quiet (List.append_nil _).symm (by simp) rfl running (by rw [pc]; rfl)
  | newPacket flags =>
      simp only [loopStep, pc] at stepped
      split at stepped
      · cases stepped
        exact leaked.lock pc
      · cases stepped
        exact leaked.quiet (List.append_nil _).symm (by simp) rfl running (by rw [pc]; rfl)
  | testRxLength pointer | testRxState pointer =>
      rw [pc] at succeeds
      simp only [loopStep, pc, Option.some.injEq] at stepped
      subst stepped
      apply leaked.withHandle
      intro hcdc present
      rw [if_pos (succeeds hcdc present)]
      exact leaked.quiet rfl (by simp) rfl running (by rw [pc]; rfl)
  | pbufAlloc pointer =>
      rw [pc, InputSucceeds] at succeeds
      simp only [loopStep, pc, Option.some.injEq] at stepped
      subst stepped
      apply leaked.withHandle
      intro hcdc _
      rw [← isSome_pbufAlloc _ (toU16 hcdc.rxLength)] at succeeds
      rcases Option.isSome_iff_exists.mp succeeds with ⟨p, allocated⟩
      rw [allocated]
      exact leaked.quiet (List.append_assoc _ _ _) (by simp) rfl running (by rw [pc]; rfl)
  | copyFrame pointer p | setLen pointer p =>
      simp only [loopStep, pc, Option.some.injEq] at stepped
      subst stepped
      apply leaked.withHandle
      intro hcdc _
      exact leaked.quiet rfl (by simp) rfl running (by rw [pc]; rfl)
  | input p =>
      simp only [loopStep, pc] at stepped
      split at stepped
      · cases stepped
        exact leaked.quiet rfl (by simp) rfl running (by rw [pc]; rfl)
      · cases stepped
        exact leaked.quiet rfl (by simp) rfl running (by rw [pc]; rfl)
  | pbufFree p =>
      simp only [loopStep, pc] at stepped
      cases stepped
      exact leaked.quiet rfl (by simp) rfl running (by rw [pc]; rfl)
  | unlockCore =>
      simp only [loopStep, pc] at stepped
      cases stepped
      exact leaked.unlock pc
  | resetRxLength | resetRxState =>
      simp only [loopStep, pc, Option.some.injEq] at stepped
      subst stepped
      apply leaked.withHandle
      intro hcdc _
      exact leaked.quiet (List.append_assoc _ _ _) (by simp) rfl running (by rw [pc]; rfl)
  | prepareReceive =>
      simp only [loopStep, pc, Option.some.injEq] at stepped
      subst stepped
      apply leaked.withHandle
      intro hcdc _
      exact leaked.quiet ((List.append_assoc _ _ _).trans (List.append_assoc _ _ _)) (by simp)
        rfl running (by rw [pc]; rfl)
  | fault => exact absurd pc running

/-- Where `ll_input` returns NULL, the loop skips the unlock and one more hold leaks. -/
theorem Leaked.missed_step {extra : ℕ} {net next : NetState} {results : CallResults}
    (leaked : Leaked extra net) (fails : ¬InputSucceeds net results net.loop.pc)
    (stepped : loopStep results net = some next) : Leaked (extra + 1) next := by
  have skipsUnlock : 1 + extra = 0 + (extra + 1) := by omega
  have running : net.loop.pc ≠ .fault := by
    intro faulted
    simp [loopStep, faulted] at stepped
  cases pc : net.loop.pc with
  | testRxLength pointer | testRxState pointer =>
      simp only [loopStep, pc, Option.some.injEq] at stepped
      subst stepped
      apply leaked.withHandle
      intro hcdc present
      split
      · rename_i found
        rw [pc] at fails
        exact absurd (by simpa [InputSucceeds, present] using found) fails
      · refine leaked.quiet rfl (by simp) rfl running ?_
        rw [pc]
        exact skipsUnlock
  | pbufAlloc pointer =>
      rw [pc, InputSucceeds] at fails
      simp only [loopStep, pc, Option.some.injEq] at stepped
      subst stepped
      apply leaked.withHandle
      intro hcdc _
      have exhausted : Net.pbufAlloc results.pool (toU16 hcdc.rxLength) = none := by
        rw [← Option.not_isSome_iff_eq_none, isSome_pbufAlloc]
        exact fails
      rw [exhausted]
      refine leaked.quiet (List.append_assoc _ _ _) (by simp) rfl running ?_
      rw [pc]
      exact skipsUnlock
  | _ =>
      rw [pc] at fails
      exact absurd trivial fails

theorem Leaked.open_step {extra : ℕ} {net next : NetState} {event : OpenEvent}
    (leaked : Leaked extra net) (stepped : openStep net event = some next) :
    (KeepsBalance net event → Leaked extra next) ∧
      (¬KeepsBalance net event → Leaked (extra + 1) next) := by
  cases event with
  | environment usb =>
      cases stepped
      exact ⟨fun _ => leaked.usb usb, fun fails => absurd trivial fails⟩
  | net event =>
      rcases netStep_cases stepped with ⟨usbEvent, usb, rfl, -, rfl⟩ | ⟨results, rfl, looped⟩
      · exact ⟨fun _ => leaked.usb usb, fun fails => absurd trivial fails⟩
      · exact ⟨fun succeeds => leaked.kept_step succeeds looped,
          fun fails => leaked.missed_step fails looped⟩

theorem Leaked.init : Leaked 0 netInit :=
  ⟨fun _ => rfl, rfl⟩

theorem leaked_zero_of_keepsBalance {events : List OpenEvent} {net : NetState}
    (ran : openSystem.run events = some net)
    (keeps : openSystem.Along KeepsBalance netInit events) : Leaked 0 net := by
  refine System.invariant_along (Leaked 0) ?_ Leaked.init ran keeps
  intro current event next leaked kept stepped
  exact (leaked.open_step stepped).1 kept

def HoldLeaked (net : NetState) : Prop :=
  ∃ extra, Leaked (extra + 1) net

theorem HoldLeaked.of_runFrom {events : List OpenEvent} {current net : NetState}
    (start : HoldLeaked current) (ran : openSystem.runFrom current events = some net) :
    HoldLeaked net := by
  refine System.invariant HoldLeaked ?_ start ran
  rintro state event next ⟨extra, leaked⟩ stepped
  by_cases kept : KeepsBalance state event
  · exact ⟨extra, (leaked.open_step stepped).1 kept⟩
  · exact ⟨extra + 1, (leaked.open_step stepped).2 kept⟩

/-- One NULL from `ll_input` anywhere in a run leaks a hold for the rest of it. -/
theorem HoldLeaked.of_not_keepsBalance {events : List OpenEvent} {net : NetState}
    (ran : openSystem.run events = some net)
    (missed : ¬openSystem.Along KeepsBalance netInit events) : HoldLeaked net := by
  rcases System.exists_first_of_not_along ran missed with
    ⟨first, event, second, current, next, -, ranFirst, kept, fails, stepped, ranSecond⟩
  have before : Leaked 0 current := leaked_zero_of_keepsBalance ranFirst kept
  have leaked : HoldLeaked next := ⟨0, (before.open_step stepped).2 fails⟩
  exact leaked.of_runFrom ranSecond

/--
Back in `osal_thread_notify_wait`, locks and unlocks are balanced and the lock
is free if and only if `ll_input` has returned a chain every time so far.
-/
theorem core_lock_balanced_iff {events : List OpenEvent} {net : NetState}
    (ran : openSystem.run events = some net) (waiting : net.loop.pc = .notifyWait) :
    (net.loop.trace.count .unlock = net.loop.trace.count .lock ∧ net.loop.coreLock = 0) ↔
      openSystem.Along KeepsBalance netInit events := by
  have running : net.loop.pc ≠ .fault := by
    rw [waiting]
    intro faulted
    cases faulted
  constructor
  · rintro ⟨-, free⟩
    by_contra missed
    rcases HoldLeaked.of_not_keepsBalance ran missed with ⟨extra, leaked⟩
    have holds := leaked.holds running
    omega
  · intro kept
    have leaked := leaked_zero_of_keepsBalance ran kept
    have free : net.loop.coreLock = 0 := by
      rw [leaked.holds running, waiting]
      rfl
    refine ⟨?_, free⟩
    rw [leaked.counted, free, Nat.add_zero]

theorem core_lock_balanced_first_frame :
    ((openSystem.final (firstFrame.map .net) (by decide)).loop.trace.count .unlock =
        (openSystem.final (firstFrame.map .net) (by decide)).loop.trace.count .lock ∧
      (openSystem.final (firstFrame.map .net) (by decide)).loop.coreLock = 0) ↔
    openSystem.Along KeepsBalance netInit (firstFrame.map .net) :=
  core_lock_balanced_iff (System.run_final (by decide)) (LoopPc.eq_notifyWait (by decide))

/-- The host opens the session with a packet of length zero. -/
def emptyFrame : List NetEvent :=
  [.usb (.classInit true), .usb (.outPacket [])] ++ loopSteps 10

theorem core_lock_balanced_violated :
    ¬∀ events net, openSystem.run events = some net → net.loop.pc = .notifyWait →
      net.loop.trace.count .unlock = net.loop.trace.count .lock ∧ net.loop.coreLock = 0 := by
  intro balanced
  have ran : ((openSystem.run (emptyFrame.map .net)).map fun net =>
      (net.loop.pc.waits, net.loop.coreLock)) = some (true, 1) := by decide
  rcases Option.map_eq_some_iff.mp ran with ⟨net, reached, seen⟩
  have waiting := LoopPc.eq_notifyWait (congrArg Prod.fst seen)
  have free := (balanced _ _ reached waiting).2
  have held : net.loop.coreLock = 1 := congrArg Prod.snd seen
  omega

end MqttAccelero.Net
