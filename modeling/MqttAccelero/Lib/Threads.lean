import Mathlib.Data.Nat.Notation
import MqttAccelero.Lib.System

/-!
# Threads that share a service under a recursive mutex

A thread is a structured program over calls of a service, the operations of one
recursive mutex, and tests whose outcome the scheduler chooses. A call is an
enter and a leave step, so any other thread may run while it is in progress. A
service function may call out to a callback and is still in progress then.

`Covers` is a lock discipline that can be read off a program. A thread that
follows it holds the mutex during every call the discipline asks for.
-/

namespace MqttAccelero.Threads

universe u v

variable {Thread : Type u} {Fn : Type v}

/-! ## The mutex -/

/-- A mutex its owner may take again; `again` counts the holds after the first. -/
inductive RecursiveMutex (Thread : Type u) where
  | free
  | held (owner : Thread) (again : ℕ)

namespace RecursiveMutex

variable [DecidableEq Thread]

def depth : RecursiveMutex Thread → Thread → ℕ
  | free, _ => 0
  | held owner again, thread => if owner = thread then again + 1 else 0

/-- `none` where the caller has to wait. -/
def take (thread : Thread) : RecursiveMutex Thread → Option (RecursiveMutex Thread)
  | free => some (held thread 0)
  | held owner again => if owner = thread then some (held owner (again + 1)) else none

/-- Giving a mutex that the caller does not hold fails and changes nothing. -/
def give (thread : Thread) : RecursiveMutex Thread → RecursiveMutex Thread
  | free => free
  | held owner 0 => if owner = thread then free else held owner 0
  | held owner (again + 1) =>
      if owner = thread then held owner again else held owner (again + 1)

theorem depth_unique {mutex : RecursiveMutex Thread} {first second : Thread}
    (holdsFirst : 0 < mutex.depth first) (holdsSecond : 0 < mutex.depth second) :
    first = second := by
  cases mutex with
  | free => exact absurd holdsFirst (Nat.lt_irrefl 0)
  | held owner again =>
      simp only [depth] at holdsFirst holdsSecond
      split at holdsFirst
      · split at holdsSecond
        · simp_all
        · omega
      · omega

theorem depth_take {mutex after : RecursiveMutex Thread} {thread : Thread}
    (taken : mutex.take thread = some after) (other : Thread) :
    after.depth other = mutex.depth other + if other = thread then 1 else 0 := by
  cases mutex with
  | free =>
      cases taken
      simp only [depth, eq_comm]
      split <;> rfl
  | held owner again =>
      simp only [take] at taken
      split at taken
      · rename_i same
        cases taken
        subst same
        by_cases mine : owner = other
        · simp [depth, mine]
        · simp [depth, mine, Ne.symm mine]
      · cases taken

theorem depth_give (mutex : RecursiveMutex Thread) (thread other : Thread) :
    (mutex.give thread).depth other = mutex.depth other - if other = thread then 1 else 0 := by
  cases mutex with
  | free => simp [give, depth]
  | held owner again =>
      cases again <;> by_cases mine : owner = thread <;> by_cases theirs : owner = other <;>
        simp_all [give, depth, eq_comm]

end RecursiveMutex

/-! ## Programs and their runs -/

inductive Stmt (Thread : Type u) (Fn : Type v) where
  | call (fn : Fn)
  | lock
  | unlock
  | spawn (thread : Thread)
  | whether (yes no : List (Stmt Thread Fn))
  | loop (body : List (Stmt Thread Fn))
  | stop

inductive Activity (Fn : Type v) where
  | own
  | inside (fn : Fn)
  | calledOut (fn : Fn)

def Activity.fn? : Activity Fn → Option Fn
  | own => none
  | inside fn | calledOut fn => some fn

def Activity.isOut : Activity Fn → Bool
  | calledOut _ => true
  | _ => false

structure ThreadState (Thread : Type u) (Fn : Type v) where
  started : Bool
  activity : Activity Fn
  code : List (Stmt Thread Fn)

structure ServiceState (Thread : Type u) (Fn : Type v) where
  threads : Thread → ThreadState Thread Fn
  mutex : RecursiveMutex Thread

/-- The code of each thread, which of them run from the start, and which functions of the
service may call out. -/
structure Programs (Thread : Type u) (Fn : Type v) where
  code : Thread → List (Stmt Thread Fn)
  runsFirst : Thread → Bool
  callsOut : Fn → Bool

inductive Move where
  | advance (taken : Bool)
  | leave
  | callOut
  | callReturn

structure ThreadEvent (Thread : Type u) where
  thread : Thread
  move : Move

/-- What one step makes of the acting thread, the mutex and a thread it creates. -/
structure Progress (Thread : Type u) (Fn : Type v) where
  activity : Activity Fn
  code : List (Stmt Thread Fn)
  mutex : RecursiveMutex Thread
  spawned : Option Thread

section Execution

variable [DecidableEq Thread]

/-- One statement of a thread's own code. -/
def execute (thread : Thread) (taken : Bool) (mutex : RecursiveMutex Thread) :
    List (Stmt Thread Fn) → Option (Progress Thread Fn)
  | [] => none
  | .call fn :: rest => some ⟨.inside fn, rest, mutex, none⟩
  | .lock :: rest => (mutex.take thread).map fun after => ⟨.own, rest, after, none⟩
  | .unlock :: rest => some ⟨.own, rest, mutex.give thread, none⟩
  | .spawn other :: rest => some ⟨.own, rest, mutex, some other⟩
  | .whether yes no :: rest => some ⟨.own, (if taken then yes else no) ++ rest, mutex, none⟩
  | .loop body :: rest => some ⟨.own, body ++ .loop body :: rest, mutex, none⟩
  | .stop :: _ => some ⟨.own, [], mutex, none⟩

def progress (programs : Programs Thread Fn) (state : ServiceState Thread Fn)
    (event : ThreadEvent Thread) : Option (Progress Thread Fn) :=
  let acting := state.threads event.thread
  match acting.activity, event.move with
  | .own, .advance taken => execute event.thread taken state.mutex acting.code
  | .inside _, .leave => some ⟨.own, acting.code, state.mutex, none⟩
  | .inside fn, .callOut =>
      if programs.callsOut fn then some ⟨.calledOut fn, acting.code, state.mutex, none⟩ else none
  | .calledOut fn, .callReturn => some ⟨.inside fn, acting.code, state.mutex, none⟩
  | _, _ => none

def ServiceState.apply (state : ServiceState Thread Fn) (thread : Thread)
    (done : Progress Thread Fn) : ServiceState Thread Fn where
  threads other :=
    if other = thread then ⟨true, done.activity, done.code⟩
    else if done.spawned = some other then { state.threads other with started := true }
    else state.threads other
  mutex := done.mutex

def step (programs : Programs Thread Fn) (state : ServiceState Thread Fn)
    (event : ThreadEvent Thread) : Option (ServiceState Thread Fn) :=
  if (state.threads event.thread).started then
    (progress programs state event).map (state.apply event.thread)
  else none

def system (programs : Programs Thread Fn) :
    System (ServiceState Thread Fn) (ThreadEvent Thread) where
  init := ⟨fun thread => ⟨programs.runsFirst thread, .own, programs.code thread⟩, .free⟩
  step := step programs

namespace ServiceState

/-- The call that a thread is inside of. -/
def inside (state : ServiceState Thread Fn) (thread : Thread) : Option Fn :=
  (state.threads thread).activity.fn?

def isOut (state : ServiceState Thread Fn) (thread : Thread) : Bool :=
  (state.threads thread).activity.isOut

def entered (state : ServiceState Thread Fn) (event : ThreadEvent Thread) : Option Fn :=
  match (state.threads event.thread).activity, event.move, (state.threads event.thread).code with
  | .own, .advance _, .call fn :: _ => some fn
  | _, _, _ => none

/-- At most one thread is between the enter and the leave of a call. -/
def Exclusive (state : ServiceState Thread Fn) : Prop :=
  ∀ first second, (state.inside first).isSome → (state.inside second).isSome → first = second

end ServiceState

/-! ## One step -/

variable {programs : Programs Thread Fn} {state next : ServiceState Thread Fn}
  {event : ThreadEvent Thread}

theorem step_eq_some (stepped : step programs state event = some next) :
    ∃ done, progress programs state event = some done ∧ next = state.apply event.thread done := by
  simp only [step] at stepped
  split at stepped
  · rcases Option.map_eq_some_iff.mp stepped with ⟨done, progressed, rfl⟩
    exact ⟨done, progressed, rfl⟩
  · cases stepped

@[simp]
theorem apply_self (done : Progress Thread Fn) (thread : Thread) :
    (state.apply thread done).threads thread = ⟨true, done.activity, done.code⟩ := by
  simp [ServiceState.apply]

theorem apply_other {thread other : Thread} (different : other ≠ thread)
    (done : Progress Thread Fn) :
    ((state.apply thread done).threads other).activity = (state.threads other).activity ∧
      ((state.apply thread done).threads other).code = (state.threads other).code := by
  simp only [ServiceState.apply, if_neg different]
  split <;> exact ⟨rfl, rfl⟩

theorem inside_other {other : Thread} (different : other ≠ event.thread)
    (stepped : step programs state event = some next) :
    next.inside other = state.inside other := by
  rcases step_eq_some stepped with ⟨done, -, rfl⟩
  simp only [ServiceState.inside, (apply_other different done).1]

theorem execute_depth_other {thread other : Thread} {taken : Bool}
    {mutex : RecursiveMutex Thread} {code : List (Stmt Thread Fn)} {done : Progress Thread Fn}
    (executed : execute thread taken mutex code = some done) (different : other ≠ thread) :
    done.mutex.depth other = mutex.depth other := by
  cases code with
  | nil => cases executed
  | cons stmt rest =>
      cases stmt with
      | lock =>
          rcases Option.map_eq_some_iff.mp executed with ⟨after, held, rfl⟩
          simpa [different] using RecursiveMutex.depth_take held other
      | unlock =>
          cases executed
          simpa [different] using RecursiveMutex.depth_give mutex thread other
      | call | spawn | whether | loop | stop =>
          cases executed
          rfl

theorem depth_other {other : Thread} (different : other ≠ event.thread)
    (stepped : step programs state event = some next) :
    next.mutex.depth other = state.mutex.depth other := by
  rcases step_eq_some stepped with ⟨done, progressed, rfl⟩
  change done.mutex.depth other = _
  simp only [progress] at progressed
  split at progressed
  · exact execute_depth_other progressed different
  · cases progressed
    rfl
  · split at progressed
    · cases progressed
      rfl
    · cases progressed
  · cases progressed
    rfl
  · cases progressed

theorem inside_self (stepped : step programs state event = some next) {fn : Fn}
    (within : next.inside event.thread = some fn) :
    state.entered event = some fn ∨ state.inside event.thread = some fn := by
  rcases step_eq_some stepped with ⟨done, progressed, rfl⟩
  simp only [ServiceState.inside, apply_self] at within
  simp only [progress] at progressed
  split at progressed
  · rename_i taken activity move
    left
    simp only [ServiceState.entered, activity, move]
    cases code : (state.threads event.thread).code with
    | nil => simp [code, execute] at progressed
    | cons stmt rest =>
        rw [code] at progressed
        cases stmt with
        | call called =>
            cases progressed
            exact within
        | lock =>
            rcases Option.map_eq_some_iff.mp progressed with ⟨after, -, rfl⟩
            cases within
        | unlock | spawn | whether | loop | stop =>
            cases progressed
            cases within
  · cases progressed
    cases within
  · rename_i activity move
    right
    simp only [ServiceState.inside, activity]
    split at progressed
    · cases progressed
      exact within
    · cases progressed
  · rename_i activity move
    right
    simp only [ServiceState.inside, activity]
    cases progressed
    exact within
  · cases progressed

theorem inside_of_entered (stepped : step programs state event = some next) {fn : Fn}
    (entered : state.entered event = some fn) : next.inside event.thread = some fn := by
  rcases step_eq_some stepped with ⟨done, progressed, rfl⟩
  simp only [ServiceState.entered] at entered
  split at entered
  · rename_i called rest activity move code
    cases entered
    simp only [progress, activity, move, code, execute, Option.some.injEq] at progressed
    subst progressed
    simp [ServiceState.inside, Activity.fn?]
  · cases entered

/-! ## Exclusion -/

/-- The step enters a call while another thread is inside one. -/
def Crowds (state : ServiceState Thread Fn) (event : ThreadEvent Thread) : Prop :=
  (state.entered event).isSome ∧ ∃ other, other ≠ event.thread ∧ (state.inside other).isSome

theorem exclusive_step (exclusive : state.Exclusive) (apart : ¬Crowds state event)
    (stepped : step programs state event = some next) : next.Exclusive := by
  -- only the acting thread can have come in, and then nobody else was inside
  have alone : ∀ other, other ≠ event.thread → (next.inside other).isSome →
      (next.inside event.thread).isSome → False := by
    intro other different withinOther withinSelf
    rw [inside_other different stepped] at withinOther
    rcases Option.isSome_iff_exists.mp withinSelf with ⟨fn, isInside⟩
    rcases inside_self stepped isInside with entered | before
    · exact apart ⟨by rw [entered]; rfl, other, different, withinOther⟩
    · exact different (exclusive other event.thread withinOther (by rw [before]; rfl))
  intro first second withinFirst withinSecond
  by_cases firstActs : first = event.thread
  · by_cases secondActs : second = event.thread
    · exact firstActs.trans secondActs.symm
    · rw [firstActs] at withinFirst
      exact absurd withinFirst (alone second secondActs withinSecond)
  · by_cases secondActs : second = event.thread
    · rw [secondActs] at withinSecond
      exact absurd withinSecond (alone first firstActs withinFirst)
    · rw [inside_other firstActs stepped] at withinFirst
      rw [inside_other secondActs stepped] at withinSecond
      exact exclusive first second withinFirst withinSecond

theorem not_exclusive_of_crowds (crowds : Crowds state event)
    (stepped : step programs state event = some next) : ¬next.Exclusive := by
  intro exclusive
  rcases crowds with ⟨enters, other, different, within⟩
  rcases Option.isSome_iff_exists.mp enters with ⟨fn, entered⟩
  have acting := inside_of_entered stepped entered
  apply different
  apply exclusive
  · rwa [inside_other different stepped]
  · rw [acting]
    rfl

/-! ## The lock discipline -/

/-- `Covers needs depth code after`: started with the mutex held at least `depth` times,
`code` makes every call that `needs` it with the mutex held, and ends with it held at least
`after` times. -/
inductive Covers (needs : Fn → Prop) : ℕ → List (Stmt Thread Fn) → ℕ → Prop where
  | done {depth after : ℕ} (enough : after ≤ depth) : Covers needs depth [] after
  | call {depth after : ℕ} {fn : Fn} {rest : List (Stmt Thread Fn)}
      (holds : needs fn → 0 < depth) (then_ : Covers needs depth rest after) :
      Covers needs depth (.call fn :: rest) after
  | lock {depth after : ℕ} {rest : List (Stmt Thread Fn)}
      (then_ : Covers needs (depth + 1) rest after) : Covers needs depth (.lock :: rest) after
  | unlock {depth after : ℕ} {rest : List (Stmt Thread Fn)}
      (then_ : Covers needs depth rest after) : Covers needs (depth + 1) (.unlock :: rest) after
  | spawn {depth after : ℕ} {thread : Thread} {rest : List (Stmt Thread Fn)}
      (then_ : Covers needs depth rest after) : Covers needs depth (.spawn thread :: rest) after
  | whether {depth middle after : ℕ} {yes no rest : List (Stmt Thread Fn)}
      (yes_ : Covers needs depth yes middle) (no_ : Covers needs depth no middle)
      (then_ : Covers needs middle rest after) :
      Covers needs depth (.whether yes no :: rest) after
  | loop {depth least after : ℕ} {body rest : List (Stmt Thread Fn)} (enough : least ≤ depth)
      (body_ : Covers needs least body least) : Covers needs depth (.loop body :: rest) after
  | stop {depth after : ℕ} {rest : List (Stmt Thread Fn)} :
      Covers needs depth (.stop :: rest) after

namespace Covers

variable {needs : Fn → Prop} {depth middle after : ℕ} {code rest : List (Stmt Thread Fn)}

omit [DecidableEq Thread] in
theorem mono (covers : Covers needs depth code after) {more : ℕ} (atLeast : depth ≤ more) :
    Covers needs more code after := by
  induction covers generalizing more with
  | done enough => exact .done (Nat.le_trans enough atLeast)
  | call holds _ ih => exact .call (fun need => Nat.lt_of_lt_of_le (holds need) atLeast) (ih atLeast)
  | lock _ ih => exact .lock (ih (Nat.succ_le_succ atLeast))
  | unlock _ ih =>
      cases more with
      | zero => omega
      | succ less => exact .unlock (ih (Nat.le_of_succ_le_succ atLeast))
  | spawn _ ih => exact .spawn (ih atLeast)
  | whether _ _ then_ yesIh noIh _ => exact .whether (yesIh atLeast) (noIh atLeast) then_
  | loop enough body _ => exact .loop (Nat.le_trans enough atLeast) body
  | stop => exact .stop

omit [DecidableEq Thread] in
theorem append (covers : Covers needs depth code middle) (ends : Covers needs middle rest after) :
    Covers needs depth (code ++ rest) after := by
  induction covers with
  | done enough => exact ends.mono enough
  | call holds _ ih => exact .call holds (ih ends)
  | lock _ ih => exact .lock (ih ends)
  | unlock _ ih => exact .unlock (ih ends)
  | spawn _ ih => exact .spawn (ih ends)
  | whether yes no _ _ _ ih => exact .whether yes no (ih ends)
  | loop enough body _ => exact .loop enough body
  | stop => exact .stop

end Covers

mutual

def Stmt.unlocks : Stmt Thread Fn → Bool
  | .unlock => true
  | .whether yes no => unlocksSomewhere yes || unlocksSomewhere no
  | .loop body => unlocksSomewhere body
  | _ => false

def unlocksSomewhere : List (Stmt Thread Fn) → Bool
  | [] => false
  | stmt :: rest => stmt.unlocks || unlocksSomewhere rest

end

omit [DecidableEq Thread] in
/-- Code which gives nothing back meets the discipline that asks for nothing. -/
theorem covers_of_not_unlocks :
    ∀ code : List (Stmt Thread Fn), unlocksSomewhere code = false → Covers (fun _ => False) 0 code 0
  | [], _ => .done (Nat.le_refl 0)
  | stmt :: rest, quiet => by
      simp only [unlocksSomewhere, Bool.or_eq_false_iff] at quiet
      have covered := covers_of_not_unlocks rest quiet.2
      cases stmt with
      | call fn => exact .call False.elim covered
      | lock => exact .lock (covered.mono (Nat.zero_le 1))
      | unlock => simp [Stmt.unlocks] at quiet
      | spawn thread => exact .spawn covered
      | whether yes no =>
          simp only [Stmt.unlocks, Bool.or_eq_false_iff] at quiet
          exact .whether (covers_of_not_unlocks yes quiet.1.1) (covers_of_not_unlocks no quiet.1.2)
            covered
      | loop body =>
          simp only [Stmt.unlocks] at quiet
          exact .loop (Nat.le_refl 0) (covers_of_not_unlocks body quiet.1)
      | stop => exact .stop

/-- A thread in the middle of a program that follows the discipline. -/
structure Disciplined (needs : Fn → Prop) (thread : Thread)
    (state : ServiceState Thread Fn) : Prop where
  covered : ∃ after, Covers needs (state.mutex.depth thread) (state.threads thread).code after
  holds : ∀ fn, state.inside thread = some fn → needs fn → 0 < state.mutex.depth thread

theorem Disciplined.execute {needs : Fn → Prop} {thread : Thread} {taken : Bool}
    {depth after : ℕ} {mutex : RecursiveMutex Thread} {code : List (Stmt Thread Fn)}
    {done : Progress Thread Fn} (atDepth : mutex.depth thread = depth)
    (covers : Covers needs depth code after)
    (executed : Threads.execute thread taken mutex code = some done) :
    (∃ after, Covers needs (done.mutex.depth thread) done.code after) ∧
      ∀ fn, done.activity.fn? = some fn → needs fn → 0 < done.mutex.depth thread := by
  cases covers with
  | done enough => cases executed
  | call holds rest =>
      cases executed
      refine ⟨⟨_, atDepth ▸ rest⟩, ?_⟩
      rintro fn ⟨⟩ need
      exact atDepth ▸ holds need
  | lock rest =>
      rcases Option.map_eq_some_iff.mp executed with ⟨held, took, rfl⟩
      have deeper := RecursiveMutex.depth_take took thread
      rw [if_pos rfl, atDepth] at deeper
      refine ⟨⟨_, deeper ▸ rest⟩, ?_⟩
      rintro fn ⟨⟩
  | unlock rest =>
      cases executed
      have shallower := RecursiveMutex.depth_give mutex thread thread
      rw [if_pos rfl, atDepth, Nat.add_sub_cancel] at shallower
      refine ⟨⟨_, shallower ▸ rest⟩, ?_⟩
      rintro fn ⟨⟩
  | spawn rest =>
      cases executed
      refine ⟨⟨_, atDepth ▸ rest⟩, ?_⟩
      rintro fn ⟨⟩
  | whether yes no rest =>
      cases executed
      refine ⟨⟨after, ?_⟩, ?_⟩
      · rw [atDepth]
        cases taken with
        | true => exact yes.append rest
        | false => exact no.append rest
      · rintro fn ⟨⟩
  | loop enough body =>
      cases executed
      refine ⟨⟨0, ?_⟩, ?_⟩
      · rw [atDepth]
        exact (body.mono enough).append (.loop (Nat.le_refl _) body)
      · rintro fn ⟨⟩
  | stop =>
      cases executed
      refine ⟨⟨0, .done (Nat.zero_le _)⟩, ?_⟩
      rintro fn ⟨⟩

theorem Disciplined.step {needs : Fn → Prop} {thread : Thread}
    (disciplined : Disciplined needs thread state)
    (stepped : Threads.step programs state event = some next) :
    Disciplined needs thread next := by
  rcases disciplined with ⟨⟨after, covered⟩, holds⟩
  by_cases acts : thread = event.thread
  · subst acts
    rcases step_eq_some stepped with ⟨done, progressed, rfl⟩
    -- the mutex and the code change only where the thread executes a statement
    have made : (∃ after, Covers needs (done.mutex.depth event.thread) done.code after) ∧
        ∀ fn, done.activity.fn? = some fn → needs fn → 0 < done.mutex.depth event.thread := by
      simp only [progress] at progressed
      split at progressed
      · exact Disciplined.execute rfl covered progressed
      · cases progressed
        refine ⟨⟨after, covered⟩, ?_⟩
        rintro fn ⟨⟩
      · rename_i activity move
        split at progressed
        · cases progressed
          refine ⟨⟨after, covered⟩, fun fn within => holds fn ?_⟩
          simp only [ServiceState.inside, activity]
          exact within
        · cases progressed
      · rename_i activity move
        cases progressed
        refine ⟨⟨after, covered⟩, fun fn within => holds fn ?_⟩
        simp only [ServiceState.inside, activity]
        exact within
      · cases progressed
    constructor
    · rw [apply_self]
      exact made.1
    · simp only [ServiceState.inside, apply_self]
      exact made.2
  · have depth := depth_other acts stepped
    constructor
    · rcases step_eq_some stepped with ⟨done, -, rfl⟩
      rw [depth, (apply_other acts done).2]
      exact ⟨after, covered⟩
    · intro fn within need
      rw [inside_other acts stepped] at within
      rw [depth]
      exact holds fn within need

/-! ## Runs -/

variable {needs : Thread → Fn → Prop}

/-- The step makes a call overlap the call of another thread, and the discipline does not
ask for the mutex in one of the two. -/
def OverlapsUnlocked (needs : Thread → Fn → Prop) (state : ServiceState Thread Fn)
    (event : ThreadEvent Thread) : Prop :=
  ∃ fn ∈ state.entered event, ∃ other, other ≠ event.thread ∧ ∃ busy ∈ state.inside other,
    ¬needs event.thread fn ∨ ¬needs other busy

def FollowsDiscipline (programs : Programs Thread Fn) (needs : Thread → Fn → Prop) : Prop :=
  ∀ thread, ∃ after, Covers (needs thread) 0 (programs.code thread) after

theorem disciplined_run (follows : FollowsDiscipline programs needs)
    {events : List (ThreadEvent Thread)} (ran : (system programs).run events = some state)
    (thread : Thread) : Disciplined (needs thread) thread state := by
  have preserved : ∀ current event next, Disciplined (needs thread) thread current →
      (system programs).step current event = some next →
      Disciplined (needs thread) thread next := by
    intro current event next disciplined stepped
    exact disciplined.step stepped
  have start : Disciplined (needs thread) thread (system programs).init := by
    refine ⟨follows thread, ?_⟩
    rintro fn ⟨⟩
  exact System.invariant _ preserved start ran

/-- Two calls that both need the mutex never overlap. -/
theorem overlapsUnlocked_of_crowds
    (disciplined : ∀ thread, Disciplined (needs thread) thread state)
    (after : ∀ thread, Disciplined (needs thread) thread next)
    (stepped : step programs state event = some next) (crowds : Crowds state event) :
    OverlapsUnlocked needs state event := by
  rcases crowds with ⟨enters, other, different, within⟩
  rcases Option.isSome_iff_exists.mp enters with ⟨fn, entered⟩
  rcases Option.isSome_iff_exists.mp within with ⟨busy, isInside⟩
  refine ⟨fn, entered, other, different, busy, isInside, ?_⟩
  by_contra neither
  push Not at neither
  have actingHolds := (after event.thread).holds fn (inside_of_entered stepped entered) neither.1
  have otherHolds := (disciplined other).holds busy isInside neither.2
  rw [← depth_other different stepped] at otherHolds
  exact different (RecursiveMutex.depth_unique otherHolds actingHolds)

/-- The calls of a run are exclusive just when none that was made without the mutex overlaps
another. -/
theorem exclusive_run_iff (follows : FollowsDiscipline programs needs)
    {events : List (ThreadEvent Thread)} (enabled : ((system programs).run events).isSome) :
    (∀ first second state, events = first ++ second →
        (system programs).run first = some state → state.Exclusive) ↔
      (system programs).Along (fun state event => ¬OverlapsUnlocked needs state event)
        (system programs).init events := by
  constructor
  · intro exclusive
    by_contra missed
    rcases System.exists_first_of_not_along (System.run_final enabled) missed with
      ⟨first, event, second, current, next, shape, ranFirst, -, overlaps, stepped, -⟩
    rcases not_not.mp overlaps with ⟨fn, entered, other, different, busy, isInside, -⟩
    have ranNext : (system programs).run (first ++ [event]) = some next :=
      System.runFrom_append.mpr ⟨current, ranFirst, by rwa [System.runFrom_singleton]⟩
    refine not_exclusive_of_crowds ⟨?_, other, different, ?_⟩ stepped
      (exclusive (first ++ [event]) second next (by simp [shape]) ranNext)
    · rw [Option.mem_def.mp entered]
      rfl
    · rw [Option.mem_def.mp isInside]
      rfl
  · rintro along first second state rfl ranFirst
    rcases System.runFrom_append.mp (System.run_final enabled) with ⟨middle, ranMiddle, -⟩
    have alongFirst := ((System.along_append ranMiddle).mp along).1
    let Inv := fun current : ServiceState Thread Fn =>
      current.Exclusive ∧ ∀ thread, Disciplined (needs thread) thread current
    have preserved : ∀ current event next, Inv current →
        ¬OverlapsUnlocked needs current event →
        (system programs).step current event = some next → Inv next := by
      rintro current event next ⟨exclusive, disciplined⟩ apart stepped
      have after := fun thread => (disciplined thread).step stepped
      refine ⟨exclusive_step exclusive ?_ stepped, after⟩
      intro crowds
      exact apart (overlapsUnlocked_of_crowds disciplined after stepped crowds)
    refine (System.invariant_along Inv preserved ⟨?_, ?_⟩ ranFirst alongFirst).1
    · rintro thread other ⟨⟩
    · intro thread
      exact disciplined_run follows (System.runFrom_nil _) thread

end Execution

end MqttAccelero.Threads
