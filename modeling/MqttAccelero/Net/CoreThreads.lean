import Mathlib.Data.Fintype.Basic
import MqttAccelero.Lib.Threads

/-!
# The threads inside lwIP

lwIP's core has one lock. Its own thread holds it while it works, and so does the
receive loop while it reads a frame; the set-up of the interface, the link
events, the MQTT client and the shell call the core without it. Tests of flags,
results and user input are choices here, so the runs include every outcome.

Light-weight protection is off, and the core lock is a recursive mutex.
-/

namespace MqttAccelero.Net

open Threads

inductive CoreThread where
  | app
  | tcpip
  | lwipInput
  | srvConn
  | cmdLine
deriving DecidableEq

instance : Fintype CoreThread where
  elems := {.app, .tcpip, .lwipInput, .srvConn, .cmdLine}
  complete thread := by cases thread <;> decide

inductive CoreFn where
  | lwipInit
  | netifAdd
  | netifSetDefault
  | netifSetUp
  | netifSetLinkUp
  | netifSetLinkDown
  | pbufAlloc
  | pbufFree
  | tcpipInput
  | mqttClientNew
  | mqttSetInpubCallback
  | mqttClientConnect
  | mqttPublish
  | rawNew
  | rawRecv
  | rawBind
  | rawSendto
  | sysTimeoutsSleeptime
  | sysCheckTimeouts
  | tcpipThreadHandleMsg
deriving DecidableEq

/-- The functions that may hand a frame to `ll_output_cb`. -/
def CoreFn.callsOutput : CoreFn → Bool
  | netifSetUp | netifSetLinkUp | mqttClientConnect | mqttPublish | rawSendto
  | sysCheckTimeouts | tcpipThreadHandleMsg => true
  | _ => false

abbrev CoreStmt := Stmt CoreThread CoreFn

/-! ## The code of the threads -/

def mainNetifSetup : List CoreStmt :=
  [.call .netifAdd, .call .netifSetDefault, .call .netifSetUp, .call .netifSetLinkUp]

def tcpipInit : List CoreStmt :=
  [.call .lwipInit, .spawn .tcpip]

def netInitCode : List CoreStmt :=
  tcpipInit ++ mainNetifSetup ++ [.whether [.spawn .lwipInput] [.stop]]

def app : List CoreStmt :=
  netInitCode ++ [.whether [.spawn .cmdLine] [], .whether [.spawn .srvConn] [], .stop]

/-- One round of the `again` loop of `tcpip_timeouts_mbox_fetch`; a fetched message is
handled before the next one. -/
def tcpipTimeoutsMboxFetch : List CoreStmt :=
  [.call .sysTimeoutsSleeptime,
    .whether
      [.call .sysCheckTimeouts]
      [.unlock, .lock,
        .whether [.call .sysCheckTimeouts] [.call .tcpipThreadHandleMsg]]]

def tcpipThread : List CoreStmt :=
  [.lock, .loop tcpipTimeoutsMboxFetch]

def llInput : List CoreStmt :=
  [.whether [.call .pbufAlloc] []]

/-- The first branch after `ll_input` is `goto proceed`, past the unlock. -/
def netEventLoop : List CoreStmt :=
  [.loop
    [.whether [.call .netifSetLinkUp] [],
      .whether [.call .netifSetLinkDown] [],
      .whether
        ([.lock] ++ llInput ++
          [.whether
            []
            [.call .tcpipInput, .whether [.call .pbufFree] [], .unlock]])
        []]]

def mqttServerConnection : List CoreStmt :=
  [.whether [.stop] [],
    .call .mqttClientNew,
    .whether [.stop] [],
    .call .mqttSetInpubCallback,
    .call .mqttClientConnect,
    .whether [.stop] [],
    .loop [.call .mqttPublish, .whether [.stop] []]]

def pingInit : List CoreStmt :=
  [.call .rawNew, .call .rawRecv, .call .rawBind]

def pingSend : List CoreStmt :=
  [.call .pbufAlloc,
    .whether
      []
      [.whether [.call .rawSendto] [], .call .pbufFree]]

def pingTest : List CoreStmt :=
  [.whether pingInit []] ++ pingSend

def mqttTest : List CoreStmt :=
  [.whether
    [.call .mqttClientNew,
      .whether [] [.call .mqttSetInpubCallback, .call .mqttClientConnect]]
    [.whether [.call .mqttPublish] []]]

def cmdLine : List CoreStmt :=
  [.loop [.whether pingTest [.whether mqttTest []]]]

def corePrograms : Programs CoreThread CoreFn where
  code
    | .app => app
    | .tcpip => tcpipThread
    | .lwipInput => netEventLoop
    | .srvConn => mqttServerConnection
    | .cmdLine => cmdLine
  runsFirst thread := thread = .app
  callsOut := CoreFn.callsOutput

abbrev CoreState := ServiceState CoreThread CoreFn

abbrev CoreEvent := ThreadEvent CoreThread

def coreSystem : System CoreState CoreEvent :=
  Threads.system corePrograms

/-! ## Which calls are locked -/

/-- The calls made under `LOCK_TCPIP_CORE`. -/
def LockedCall : CoreThread → CoreFn → Prop
  | .tcpip, _ => True
  | .lwipInput, fn => fn ≠ .netifSetLinkUp ∧ fn ≠ .netifSetLinkDown
  | _, _ => False

instance (thread : CoreThread) (fn : CoreFn) : Decidable (LockedCall thread fn) := by
  cases thread <;> unfold LockedCall <;> infer_instance

theorem tcpipThread_covers {needs : CoreFn → Prop} : Covers needs 0 tcpipThread 0 := by
  have held : ∀ fn, needs fn → 0 < 1 := fun _ _ => Nat.zero_lt_one
  apply Covers.lock
  refine .loop (Nat.le_refl 1) (.call (held _) (.whether ?_ ?_ (.done (Nat.le_refl 1))))
  · exact .call (held _) (.done (Nat.le_refl 1))
  · apply Covers.unlock
    apply Covers.lock
    refine .whether ?_ ?_ (.done (Nat.le_refl 1))
    · exact .call (held _) (.done (Nat.le_refl 1))
    · exact .call (held _) (.done (Nat.le_refl 1))

theorem netEventLoop_covers : Covers (LockedCall .lwipInput) 0 netEventLoop 0 := by
  have held : ∀ fn, LockedCall .lwipInput fn → 0 < 1 := fun _ _ => Nat.zero_lt_one
  refine .loop (Nat.le_refl 0) (.whether ?_ (.done (Nat.le_refl 0)) (.whether ?_
    (.done (Nat.le_refl 0)) (.whether ?_ (.done (Nat.le_refl 0)) (.done (Nat.le_refl 0)))))
  · exact .call (fun locked => absurd rfl locked.1) (.done (Nat.le_refl 0))
  · exact .call (fun locked => absurd rfl locked.2) (.done (Nat.le_refl 0))
  · apply Covers.lock
    refine .whether (.call (held _) (.done (Nat.le_refl 1))) (.done (Nat.le_refl 1)) ?_
    -- without a chain the loop goes on holding the lock
    refine .whether (.done (Nat.zero_le 1)) ?_ (.done (Nat.le_refl 0))
    apply Covers.call (held _)
    exact .whether (.call (held _) (.done (Nat.le_refl 1))) (.done (Nat.le_refl 1))
      (.unlock (.done (Nat.le_refl 0)))

theorem core_followsDiscipline : FollowsDiscipline corePrograms LockedCall := by
  intro thread
  cases thread with
  | tcpip => exact ⟨0, tcpipThread_covers⟩
  | lwipInput => exact ⟨0, netEventLoop_covers⟩
  | app => exact ⟨0, covers_of_not_unlocks app (by decide)⟩
  | srvConn => exact ⟨0, covers_of_not_unlocks mqttServerConnection (by decide)⟩
  | cmdLine => exact ⟨0, covers_of_not_unlocks cmdLine (by decide)⟩

/-- lwIP's own thread holds the core lock in everything it does there. -/
theorem tcpip_holds_core_lock {events : List CoreEvent} {state : CoreState} {fn : CoreFn}
    (ran : coreSystem.run events = some state) (inside : state.inside .tcpip = some fn) :
    0 < state.mutex.depth .tcpip :=
  (disciplined_run core_followsDiscipline ran .tcpip).holds fn inside trivial

/-! ## Exclusion -/

/-- No two threads are in the core, nor in `ll_output_cb` under it. -/
structure CoreExclusive (state : CoreState) : Prop where
  core : state.Exclusive
  output : ∀ first second, state.isOut first → state.isOut second → first = second

theorem isSome_of_isOut {state : CoreState} {thread : CoreThread} (out : state.isOut thread) :
    (state.inside thread).isSome := by
  simp only [ServiceState.isOut] at out
  simp only [ServiceState.inside]
  cases activity : (state.threads thread).activity with
  | own | inside => simp [activity, Activity.isOut] at out
  | calledOut fn => rfl

theorem coreExclusive_iff {state : CoreState} : CoreExclusive state ↔ state.Exclusive := by
  constructor
  · intro exclusive
    exact exclusive.core
  · intro exclusive
    refine ⟨exclusive, ?_⟩
    intro first second firstOut secondOut
    exact exclusive first second (isSome_of_isOut firstOut) (isSome_of_isOut secondOut)

/-- A call made without the core lock begins while no other thread is in the core, and no
other thread enters until it ends. -/
def UnlockedCallsApart (state : CoreState) (event : CoreEvent) : Prop :=
  ¬OverlapsUnlocked LockedCall state event

/-- The core is exclusive throughout a run exactly when no unlocked call overlaps another
thread's call. -/
theorem core_exclusive_iff {events : List CoreEvent} (enabled : (coreSystem.run events).isSome) :
    (∀ first second state, events = first ++ second → coreSystem.run first = some state →
        CoreExclusive state) ↔
      coreSystem.Along UnlockedCallsApart coreSystem.init events := by
  simp only [coreExclusive_iff]
  exact exclusive_run_iff core_followsDiscipline enabled

instance (state : CoreState) (event : CoreEvent) :
    Decidable (UnlockedCallsApart state event) := by
  unfold UnlockedCallsApart OverlapsUnlocked
  infer_instance

/-- `count` calls of a thread, each left before the next is entered. -/
def callsOf (thread : CoreThread) (count : ℕ) : List CoreEvent :=
  (List.replicate count [⟨thread, .advance true⟩, ⟨thread, .leave⟩]).flatten

def advances (thread : CoreThread) (outcomes : List Bool) : List CoreEvent :=
  outcomes.map fun taken => ⟨thread, .advance taken⟩

/-- `app` sets the interface up and creates the other threads. -/
def coreStart : List CoreEvent :=
  callsOf .app 1 ++ advances .app [true] ++ callsOf .app 4 ++
    advances .app [true, true, true, true, true, true]

theorem core_exclusive_iff_start :
    (coreSystem.run (coreStart ++ advances .tcpip [true, true, true])).isSome ∧
      ∀ first second state, coreStart ++ advances .tcpip [true, true, true] = first ++ second →
        coreSystem.run first = some state → CoreExclusive state :=
  ⟨by decide +kernel, (core_exclusive_iff (by decide +kernel)).mpr (by decide +kernel)⟩

/-- `mqtt_publish` of the telemetry thread and `raw_sendto` of the shell's ping. -/
def publishMeetsPing : List CoreEvent :=
  coreStart ++
    (advances .srvConn [false] ++ callsOf .srvConn 1 ++ advances .srvConn [false] ++
      callsOf .srvConn 2 ++ advances .srvConn [false, true, true] ++ [⟨.srvConn, .callOut⟩]) ++
    (advances .cmdLine [true, true, true] ++ callsOf .cmdLine 4 ++
      advances .cmdLine [false, true, true] ++ [⟨.cmdLine, .callOut⟩])

theorem publishMeetsPing_enabled : (coreSystem.run publishMeetsPing).isSome := by
  decide +kernel

/-- Two threads are in `ll_output_cb` at once. -/
theorem core_exclusive_violated :
    ¬∀ events state, coreSystem.run events = some state → CoreExclusive state := by
  intro exclusive
  have atEnd := exclusive publishMeetsPing _ (System.run_final publishMeetsPing_enabled)
  have meet := atEnd.output .srvConn .cmdLine (by decide +kernel) (by decide +kernel)
  cases meet

end MqttAccelero.Net
