import MqttAccelero.Lib.System
import MqttAccelero.Osal.Semaphore
import MqttAccelero.Spi.Sensor

/-!
# The telemetry thread

`mqtt_server_connection` waits for `connection_cb` to be invoked with
`MQTT_CONNECT_ACCEPTED` and then publishes the tilt of the board for ever.

`tilt` is declared inside the loop and not initialised. What it holds before
`accelero_get_tilt` is not determined by the code: the event of the call brings
that value with it, and also how the transfers on the bus end and what is on the
stack. The computation of the tilt and the formatting of floats are parameters.
-/

namespace MqttAccelero.App

open Lis3dsh Sensor Osal

/-- `MQTT_CONNECT_ACCEPTED` -/
def mqttConnectAccepted : ℕ := 0

section

variable {Tilt : Type}

/-- What the loop body has got when it comes to `mqtt_publish`. -/
structure Iteration (Tilt : Type) where
  /-- How the transfers of this iteration's read ended. -/
  hal : HalSpi
  tilt : Tilt
  /-- What `lis3dsh_get_xyz` has read in this iteration, if it succeeded. -/
  sample : Option Xyz

inductive ConnPc (Tilt : Type) where
  | semaphoreCreate
  | mqttClientNew
  | mqttClientConnect
  | semaphoreWait
  | getTilt
  | publish (iteration : Iteration Tilt)
  | sleep
  | stopped

/-- A call of `mqtt_publish`. -/
structure Publish where
  topic : String
  payload : List UInt8
  qos : ℕ
  retain : ℕ
  /-- `connection_cb` had been invoked with `MQTT_CONNECT_ACCEPTED`. -/
  accepted : Bool
  /-- What `lis3dsh_get_xyz` had read in the same iteration. -/
  sample : Option Xyz

structure ConnState (Tilt : Type) where
  pc : ConnPc Tilt
  connSuccessful : Option Semaphore
  /-- `mqtt_client_connect` has been handed `connection_cb`. -/
  registered : Bool
  /-- `connection_cb` has been invoked with `MQTT_CONNECT_ACCEPTED`. -/
  accepted : Bool
  /-- Topics and qualities of service of the calls of `mqtt_subscribe`. -/
  subscribed : List (String × ℕ)
  published : List Publish
  console : List ConsoleLine

/-- How the next statement of the thread ends. -/
inductive ThreadEvent (Tilt : Type) where
  | semaphoreCreate (created : Option Semaphore)
  | mqttClientNew (allocated : Bool)
  | mqttClientConnect (err : ℤ)
  | semaphoreWait (waitEnd : WaitEnd)
  | getTilt (hal : HalSpi) (buf data : ℕ) (stack : Ram) (uninitialised : Tilt)
  | publish (err : ℤ)
  | wake

inductive ConnEvent (Tilt : Type) where
  | thread (event : ThreadEvent Tilt)
  | connectionCb (status : ℕ)

def ConnState.stop (state : ConnState Tilt) (line : ConsoleLine) : ConnState Tilt :=
  { state with
    pc := .stopped
    console := state.console ++ [line, .warn "mqtt_server_connection thread terminated"] }

def connectionCb (state : ConnState Tilt) (status : ℕ) : ConnState Tilt :=
  if status = mqttConnectAccepted then
    { state with
      accepted := true
      subscribed := state.subscribed ++ [("$SYS/broker/version", 1)]
      connSuccessful := state.connSuccessful.map fun sem => (osalSemaphoreRelease sem).1 }
  else state

/-- The size of the buffer that the payload is formatted into. -/
def bufSize : ℕ := 64

/-- What `snprintf` leaves in `buf`, up to its terminating zero. -/
def telemetryPayload (format : Tilt → List UInt8) (value : Tilt) : List UInt8 :=
  (format value).take (bufSize - 1)

variable (tilt : Xyz → Tilt) (format : Tilt → List UInt8)

def ConnState.call (state : ConnState Tilt) (iteration : Iteration Tilt) : Publish where
  topic := "telemetry/tilt"
  payload := telemetryPayload format iteration.tilt
  qos := 1
  retain := 0
  accepted := state.accepted
  sample := iteration.sample

def threadStep (state : ConnState Tilt) (event : ThreadEvent Tilt) : Option (ConnState Tilt) :=
  match state.pc, event with
  | .semaphoreCreate, .semaphoreCreate created =>
      match osalSemaphoreCreate created with
      | none => some (state.stop (.error "Can't create sem"))
      | some sem => some { state with pc := .mqttClientNew, connSuccessful := some sem }
  | .mqttClientNew, .mqttClientNew allocated =>
      if allocated then some { state with pc := .mqttClientConnect }
      else some (state.stop (.log "Can't alloc mqtt client struct"))
  | .mqttClientConnect, .mqttClientConnect _ =>
      -- The error is not looked at.
      some { state with pc := .semaphoreWait, registered := true }
  | .semaphoreWait, .semaphoreWait waitEnd =>
      state.connSuccessful.bind fun sem =>
        (osalSemaphoreWait sem waitEnd).map fun (after, ret) =>
          if ret ≠ 0 then
            { state with connSuccessful := some after }.stop
              (.error "Can't connect to mqtt server: timeout reached")
          else { state with pc := .getTilt, connSuccessful := some after }
  | .getTilt, .getTilt hal buf data stack uninitialised =>
      (acceleroGetTilt tilt (initialised (spiExchangePolling hal)) buf data stack
        uninitialised).map fun done =>
          -- Nor is what this call returns.
          { state with pc := .publish ⟨hal, done.out, done.sample⟩ }
  | .publish iteration, .publish err =>
      let state := { state with published := state.published ++ [state.call format iteration] }
      if err ≠ 0 then some (state.stop (.error s!"mqtt_publish err: {err}"))
      else some { state with pc := .sleep }
  | .sleep, .wake => some { state with pc := .getTilt }
  | _, _ => none

def connStep (state : ConnState Tilt) : ConnEvent Tilt → Option (ConnState Tilt)
  | .thread event => threadStep tilt format state event
  | .connectionCb status => if state.registered then some (connectionCb state status) else none

def connSystem : System (ConnState Tilt) (ConnEvent Tilt) where
  init := ⟨.semaphoreCreate, none, false, false, [], [], []⟩
  step := connStep tilt format

/-! ## Integrity -/

/-- The broker had accepted, and the payload is the tilt of a sample read in the same iteration. -/
def Publish.Integral (call : Publish) : Prop :=
  call.accepted ∧ ∃ sample, call.sample = some sample ∧ call.payload = telemetryPayload format (tilt sample)

def ConnState.Integral (state : ConnState Tilt) : Prop :=
  ∀ call ∈ state.published, call.Integral tilt format

/-- Whatever is published in an iteration, the read of that iteration has succeeded on the bus. -/
def PublishesRead (state : ConnState Tilt) (event : ConnEvent Tilt) : Prop :=
  ∀ iteration err, state.pc = .publish iteration → event = .thread (.publish err) →
    iteration.hal.ReadsAxes

/-! ## Invariant -/

/-- The statements of the endless loop. -/
def ConnPc.InLoop : ConnPc Tilt → Prop
  | .getTilt | .publish _ | .sleep => True
  | _ => False

/-- The sample of an iteration is there exactly if its read succeeded, and is what `tilt` is of. -/
structure Iteration.Consistent (iteration : Iteration Tilt) : Prop where
  read : iteration.hal.ReadsAxes →
    ∃ sample, iteration.sample = some sample ∧ iteration.tilt = tilt sample
  failed : ¬iteration.hal.ReadsAxes → iteration.sample = none

structure ConnInv (state : ConnState Tilt) : Prop where
  token : state.connSuccessful = some ⟨true⟩ → state.accepted
  inLoop : state.pc.InLoop → state.accepted
  iteration : ∀ iteration, state.pc = .publish iteration → iteration.Consistent tilt

variable {tilt format} {state next : ConnState Tilt}

theorem ConnInv.init : ConnInv tilt (connSystem tilt format).init := by
  constructor
  · intro token
    cases token
  · intro inLoop
    cases inLoop
  · intro iteration atPublish
    cases atPublish

theorem ConnInv.stop (inv : ConnInv tilt state) (line : ConsoleLine) :
    ConnInv tilt (state.stop line) := by
  constructor
  · exact inv.token
  · intro inLoop
    cases inLoop
  · intro iteration atPublish
    cases atPublish

theorem ConnInv.connectionCb (inv : ConnInv tilt state) (status : ℕ) :
    ConnInv tilt (connectionCb state status) := by
  unfold App.connectionCb
  split
  · exact ⟨fun _ => rfl, fun _ => rfl, inv.iteration⟩
  · exact inv

theorem acceleroGetTilt_consistent {hal : HalSpi} {buf data : ℕ} {stack : Ram}
    {uninitialised : Tilt} {done : TiltDone Tilt}
    (returned : acceleroGetTilt tilt (initialised (spiExchangePolling hal)) buf data stack
      uninitialised = some done) :
    Iteration.Consistent tilt ⟨hal, done.out, done.sample⟩ := by
  by_cases reads : hal.ReadsAxes
  · have succeeds : ∃ sample, acceleroGetTilt tilt (initialised (spiExchangePolling hal)) buf data
        stack uninitialised = some ⟨0, tilt sample, some sample⟩ := acceleroGetTilt_ok reads
    rcases succeeds with ⟨sample, ok⟩
    rw [ok] at returned
    cases returned
    exact ⟨fun _ => ⟨sample, rfl, rfl⟩, fun fails => absurd reads fails⟩
  · rw [acceleroGetTilt_failed reads] at returned
    cases returned
    exact ⟨fun succeeds => absurd succeeds reads, fun _ => rfl⟩

theorem ConnInv.thread_step {event : ThreadEvent Tilt} (inv : ConnInv tilt state)
    (stepped : threadStep tilt format state event = some next) : ConnInv tilt next := by
  unfold threadStep at stepped
  split at stepped
  next created _ =>
    split at stepped
    · cases stepped
      exact inv.stop _
    next sem created =>
      cases stepped
      have empty := osalSemaphoreCreate_eq created
      subst empty
      exact ⟨by simp, fun inLoop => inLoop.elim, by simp⟩
  next allocated _ =>
    split at stepped
    · cases stepped
      exact ⟨inv.token, fun inLoop => inLoop.elim, by simp⟩
    · cases stepped
      exact inv.stop _
  next =>
    cases stepped
    exact ⟨inv.token, fun inLoop => inLoop.elim, by simp⟩
  next waitEnd _ =>
    simp only [Option.bind_eq_some_iff, Option.map_eq_some_iff, Prod.exists] at stepped
    rcases stepped with ⟨sem, exists_sem, after, ret, waited, rfl⟩
    by_cases failed : ret ≠ 0
    · rcases osalSemaphoreWait_ne_zero waited failed with ⟨-, rfl, -⟩
      rw [if_pos failed]
      exact ⟨by simp [ConnState.stop], fun inLoop => inLoop.elim, by simp [ConnState.stop]⟩
    · rw [if_neg failed]
      simp only [ne_eq, not_not] at failed
      subst failed
      rcases osalSemaphoreWait_eq_zero waited with ⟨rfl, rfl, -⟩
      have accepted := inv.token exists_sem
      exact ⟨fun _ => accepted, fun _ => accepted, by simp⟩
  next atGetTilt =>
    have accepted := inv.inLoop (by rw [atGetTilt]; trivial)
    simp only [Option.map_eq_some_iff] at stepped
    rcases stepped with ⟨done, returned, rfl⟩
    refine ⟨fun _ => accepted, fun _ => accepted, ?_⟩
    rintro iteration ⟨⟩
    exact acceleroGetTilt_consistent returned
  next iteration err atPublish =>
    have accepted := inv.inLoop (by rw [atPublish]; trivial)
    split at stepped
    · cases stepped
      exact ⟨fun _ => accepted, fun inLoop => inLoop.elim, by simp [ConnState.stop]⟩
    · cases stepped
      exact ⟨fun _ => accepted, fun _ => accepted, by simp⟩
  next atSleep =>
    cases stepped
    have accepted := inv.inLoop (by rw [atSleep]; trivial)
    exact ⟨fun _ => accepted, fun _ => accepted, by simp⟩
  next => cases stepped

theorem connStep_connectionCb {status : ℕ}
    (stepped : connStep tilt format state (.connectionCb status) = some next) :
    next = connectionCb state status := by
  simp only [connStep, Option.ite_none_right_eq_some, Option.some.injEq] at stepped
  exact stepped.2.symm

@[simp]
theorem connectionCb_published (status : ℕ) :
    (connectionCb state status).published = state.published := by
  unfold connectionCb
  split
  · rfl
  · rfl

theorem ConnInv.step {event : ConnEvent Tilt} (inv : ConnInv tilt state)
    (stepped : connStep tilt format state event = some next) : ConnInv tilt next := by
  cases event with
  | thread event => exact inv.thread_step stepped
  | connectionCb status =>
      rw [connStep_connectionCb stepped]
      exact inv.connectionCb status

/-- Only `mqtt_publish` publishes. -/
theorem threadStep_published {event : ThreadEvent Tilt}
    (stepped : threadStep tilt format state event = some next) :
    (∃ iteration err, state.pc = .publish iteration ∧ event = .publish err ∧
      next.published = state.published ++ [state.call format iteration]) ∨
    (next.published = state.published ∧
      ∀ iteration err, state.pc = .publish iteration → event ≠ .publish err) := by
  unfold threadStep at stepped
  split at stepped
  next atCreate =>
    right
    split at stepped
    · cases stepped
      exact ⟨rfl, by simp [atCreate]⟩
    · cases stepped
      exact ⟨rfl, by simp [atCreate]⟩
  next atNew =>
    right
    split at stepped
    · cases stepped
      exact ⟨rfl, by simp [atNew]⟩
    · cases stepped
      exact ⟨rfl, by simp [atNew]⟩
  next atConnect =>
    right
    cases stepped
    exact ⟨rfl, by simp [atConnect]⟩
  next atWait =>
    right
    simp only [Option.bind_eq_some_iff, Option.map_eq_some_iff, Prod.exists] at stepped
    rcases stepped with ⟨sem, -, after, ret, -, rfl⟩
    refine ⟨?_, by simp [atWait]⟩
    split
    · rfl
    · rfl
  next atGetTilt =>
    right
    simp only [Option.map_eq_some_iff] at stepped
    rcases stepped with ⟨done, -, rfl⟩
    exact ⟨rfl, by simp [atGetTilt]⟩
  next iteration err atPublish =>
    left
    refine ⟨iteration, err, atPublish, rfl, ?_⟩
    split at stepped
    · cases stepped
      rfl
    · cases stepped
      rfl
  next atSleep =>
    right
    cases stepped
    exact ⟨rfl, by simp [atSleep]⟩
  next => cases stepped

theorem call_integral_iff {iteration : Iteration Tilt} (inv : ConnInv tilt state)
    (atPublish : state.pc = .publish iteration) :
    (state.call format iteration).Integral tilt format ↔ iteration.hal.ReadsAxes := by
  have consistent := inv.iteration iteration atPublish
  have accepted := inv.inLoop (by rw [atPublish]; trivial)
  constructor
  · rintro ⟨-, sample, read, -⟩
    by_contra fails
    have noSample : (state.call format iteration).sample = none := consistent.failed fails
    rw [noSample] at read
    cases read
  · intro reads
    rcases consistent.read reads with ⟨sample, read, value⟩
    refine ⟨accepted, sample, read, ?_⟩
    rw [← value]
    rfl

theorem ConnState.Integral.thread_step {event : ThreadEvent Tilt} (inv : ConnInv tilt state)
    (stepped : threadStep tilt format state event = some next) :
    next.Integral tilt format ↔
      state.Integral tilt format ∧ PublishesRead state (.thread event) := by
  rcases threadStep_published stepped with
    ⟨iteration, err, atPublish, rfl, published⟩ | ⟨published, quiet⟩
  · have reads_iff : PublishesRead state (.thread (.publish err)) ↔ iteration.hal.ReadsAxes := by
      constructor
      · intro reads
        exact reads iteration err atPublish rfl
      · intro reads other _ atOther _
        rw [atPublish] at atOther
        cases atOther
        exact reads
    have published_iff : (state.call format iteration).Integral tilt format ↔
        iteration.hal.ReadsAxes := call_integral_iff inv atPublish
    rw [reads_iff, ← published_iff]
    simp [Integral, published, or_imp, forall_and]
  · have reads : PublishesRead state (.thread event) := by
      intro iteration err atPublish isPublish
      cases isPublish
      exact absurd rfl (quiet iteration err atPublish)
    simp [Integral, published, reads]

theorem ConnState.Integral.step {event : ConnEvent Tilt} (inv : ConnInv tilt state)
    (stepped : connStep tilt format state event = some next) :
    next.Integral tilt format ↔ state.Integral tilt format ∧ PublishesRead state event := by
  cases event with
  | thread event => exact ConnState.Integral.thread_step inv stepped
  | connectionCb status =>
      have reads : PublishesRead state (.connectionCb status) := by
        intro iteration err _ isPublish
        cases isPublish
      rw [connStep_connectionCb stepped]
      simp [Integral, reads]

/-- What the thread publishes is accepted and fresh exactly in the runs in which it publishes
nothing in an iteration whose read has failed. -/
theorem telemetry_integral_iff {events : List (ConnEvent Tilt)} {final : ConnState Tilt}
    (ran : (connSystem tilt format).run events = some final) :
    final.Integral tilt format ↔
      (connSystem tilt format).Along PublishesRead (connSystem tilt format).init events := by
  have integral_iff := System.good_iff_along PublishesRead (ConnInv tilt)
    (ConnState.Integral tilt format) (fun _ _ _ inv stepped => inv.step stepped)
    (fun _ _ _ inv stepped => ConnState.Integral.step inv stepped) ConnInv.init ran
  have integralAtStart : (connSystem tilt format).init.Integral tilt format := by
    intro call published
    cases published
  rw [integral_iff]
  exact and_iff_right integralAtStart

/-- Nothing is published before `connection_cb` has been invoked with `MQTT_CONNECT_ACCEPTED`,
however the reads of the sensor end. -/
theorem published_accepted {events : List (ConnEvent Tilt)} {final : ConnState Tilt}
    (ran : (connSystem tilt format).run events = some final) :
    ∀ call ∈ final.published, call.accepted := by
  have holds := System.invariant
    (fun state => ConnInv tilt state ∧ ∀ call ∈ state.published, call.accepted) ?_
    ⟨ConnInv.init, fun call isCall => by cases isCall⟩ ran
  · exact holds.2
  · rintro current event next ⟨inv, accepted⟩ stepped
    refine ⟨inv.step stepped, ?_⟩
    cases event with
    | thread event =>
        rcases threadStep_published stepped with ⟨iteration, -, atPublish, -, published⟩ | ⟨same, -⟩
        · intro call isCall
          rw [published, List.mem_append, List.mem_singleton] at isCall
          rcases isCall with earlier | rfl
          · exact accepted call earlier
          · exact inv.inLoop (by rw [atPublish]; trivial)
        · rwa [same]
    | connectionCb status =>
        have invoked : connStep tilt format current (.connectionCb status) = some next := stepped
        rwa [connStep_connectionCb invoked, connectionCb_published]

end

/-! ## Two runs

The board lies level, and what the parameters compute matters for a level board only. -/

/-- Pitch and roll. -/
abbrev PitchRoll := ℚ × ℚ

def tiltOfLevel (_ : Xyz) : PitchRoll := (0, 0)

def formatLevel (_ : PitchRoll) : List UInt8 :=
  "-0.000000;0.000000".toUTF8.toList

/-- The sensor answers 0, 0 and 1000. -/
def answersLevel : (outData : List UInt8) → (inSize : ℕ) → Reply inSize := fun _ inSize =>
  ⟨0, List.take inSize ([0, 0, 0, 0, 0xe8, 0x03] ++ List.replicate (inSize - 6) 0), by simp,
    fun _ => by simp; omega⟩

def sensorAnswers : HalSpi := ⟨fun _ => 0, answersLevel⟩

/-- `HAL_SPI_Transmit` returns `HAL_TIMEOUT`. -/
def sensorSilent : HalSpi := ⟨fun _ => 3, answersLevel⟩

/-- The events up to the first publication; the read in front of it ends as `hal` says. -/
def firstPublication (hal : HalSpi) : List (ConnEvent PitchRoll) :=
  [.thread (.semaphoreCreate (some ⟨false⟩)), .thread (.mqttClientNew true),
    .thread (.mqttClientConnect 0), .connectionCb mqttConnectAccepted,
    .thread (.semaphoreWait .taken), .thread (.getTilt hal 0 0 blank (7, 7)),
    .thread (.publish 0)]

abbrev levelSystem : System (ConnState PitchRoll) (ConnEvent PitchRoll) :=
  connSystem tiltOfLevel formatLevel

theorem firstPublication_enabled :
    (levelSystem.run (firstPublication sensorAnswers)).isSome ∧
      (levelSystem.run (firstPublication sensorSilent)).isSome := by
  decide +kernel

theorem telemetry_integral_first_publication :
    (levelSystem.final _ firstPublication_enabled.1).Integral tiltOfLevel formatLevel ↔
      levelSystem.Along PublishesRead levelSystem.init (firstPublication sensorAnswers) :=
  telemetry_integral_iff (System.run_final firstPublication_enabled.1)

/-- The sensor does not answer, and what happens to be in `tilt` is published. -/
theorem telemetry_integral_violated :
    ¬(levelSystem.final _ firstPublication_enabled.2).Integral tiltOfLevel formatLevel := by
  intro integral
  have published : ∃ call ∈ (levelSystem.final _ firstPublication_enabled.2).published,
      call.sample = none :=
    ⟨_, List.mem_singleton_self _, rfl⟩
  rcases published with ⟨call, isCall, noSample⟩
  rcases (integral call isCall).2 with ⟨sample, read, -⟩
  rw [noSample] at read
  cases read

end MqttAccelero.App
