import MqttAccelero.Mqtt.Lifecycle

/-!
# Runs of the client

What holds after any run: what TCP has got of the messages, which connection and
timer there are, that no item of a request is lost, and that a server which has
fallen silent is given up.
-/

namespace MqttAccelero.Mqtt

section

variable {tcp : ℕ → TcpAnswers} {events : List ClientEvent} {client : MqttClient}

theorem sound_run (ran : (clientSystem tcp).run events = some client) :
    Sound ((clientSystem tcp).Along Proper mqttClientNew events) True 0 client := by
  have preserved : ∀ past current event next,
      (clientSystem tcp).runFrom mqttClientNew past = some current →
      Sound ((clientSystem tcp).Along Proper mqttClientNew past) True 0 current → True →
      (clientSystem tcp).step current event = some next →
      Sound ((clientSystem tcp).Along Proper mqttClientNew (past ++ [event])) True 0 next := by
    intro past current event next ranPast sound _ stepped
    apply (sound.step stepped).weaken
    intro along
    rcases (System.along_append ranPast).mp along with ⟨before, here⟩
    exact ⟨before, here.1⟩
  have start : Sound ((clientSystem tcp).Along Proper mqttClientNew []) True 0 mqttClientNew :=
    Sound.init
  exact System.history_invariant_along preserved start ran (System.along_true _ _ _)

/-! ## Messages for the server -/

/-- Nothing that has been written is lost exactly if each message has left a byte of the ring
free. A whole one that does not is longer than 16 bits can say, or fills the ring to its end. -/
theorem stream_exact_iff (ran : (clientSystem tcp).run events = some client) :
    (client.stream ++ client.output.contents = writtenBytes client.written ↔
      ∀ one ∈ client.written, one.Fits) ∧
    ∀ one ∈ client.written, one.message.Whole → ¬one.Fits →
      one.waiting + one.message.bytes.length = mqttOutputRingbufSize ∨
        65536 ≤ one.message.bytes.length := by
  have traffic := (sound_run ran).traffic
  refine ⟨traffic.exact_iff, ?_⟩
  intro one member whole full
  have checked := traffic.checked one member
  have length : one.message.bytes.length = totalLength one.message.remainingLength := by
    rw [Message.Whole] at whole
    simp only [Message.bytes, totalLength, List.length_append, List.length_cons, whole]
    omega
  rw [Written.Fits, mqttOutputRingbufSize] at full
  rw [mqttOutputRingbufSize] at checked ⊢
  omega

/-- The client information of the application: `id_1`, `dev_board`, no password and no will. -/
def mqttClientInfo : MqttConnectClientInfo where
  clientId := [0x69, 0x64, 0x5F, 0x31]
  clientUser := some [0x64, 0x65, 0x76, 0x5F, 0x62, 0x6F, 0x61, 0x72, 0x64]
  clientPass := none
  keepAlive := 100
  willTopic := none
  willMsg := none
  willQos := 0
  willRetain := 0

/-- A reading of the sensor, published to `telemetry/tilt` as `1;2`. -/
def telemetryTilt : PublishArgs where
  topic := [0x74, 0x65, 0x6C, 0x65, 0x6D, 0x65, 0x74, 0x72, 0x79, 0x2F, 0x74, 0x69, 0x6C, 0x74]
  payload := some fun place => [0x31, 0x3B, 0x32].getD place 0
  payloadLength := 3
  qos := 1
  retain := 0
  cb := some 0

/-- TCP takes whatever it is given. -/
def tcpTakes : ℕ → TcpAnswers := fun _ => ⟨1072, true, 1072, true⟩

def connackAccepted : PbufChain := ⟨[[0x20, 0x02, 0x00, 0x00]], by decide⟩

/-- The client connects, subscribes once it is accepted, and publishes a reading. -/
def telemetrySession : List ClientEvent :=
  [.connect mqttClientInfo ⟨true, 0, 0⟩, .tcpConnected 0, .tcpRecv (some connackAccepted) 0,
    .publish telemetryTilt, .tcpPoll]

theorem telemetrySession_enabled :
    ((clientSystem tcpTakes).run telemetrySession).isSome := by decide +kernel

theorem stream_exact_iff_telemetry :
    let client := (clientSystem tcpTakes).final telemetrySession telemetrySession_enabled
    (client.stream ++ client.output.contents = writtenBytes client.written ↔
      ∀ one ∈ client.written, one.Fits) ∧
    ∀ one ∈ client.written, one.message.Whole → ¬one.Fits →
      one.waiting + one.message.bytes.length = mqttOutputRingbufSize ∨
        65536 ≤ one.message.bytes.length :=
  stream_exact_iff (System.run_final telemetrySession_enabled)

/-- The server reads the messages in order, each as it was written. -/
theorem server_reads_written (ran : (clientSystem tcp).run events = some client)
    (proper : (clientSystem tcp).Along Proper mqttClientNew events)
    (fits : ∀ one ∈ client.written, one.Fits) :
    (Packet.readAll client.stream).map Packet.encode <+:
      client.written.map fun one => one.message.bytes := by
  have sound := sound_run ran
  have whole := sound.obeyed.whole proper
  let packets := client.written.pmap (fun one => one.message.packet) whole
  have encodings : packets.map Packet.encode = client.written.map fun one => one.message.bytes := by
    simp only [packets, List.map_pmap, Message.encode_packet, List.pmap_eq_map]
  have sent : client.stream <+: Packet.encodeAll packets := by
    have all : Packet.encodeAll packets = writtenBytes client.written := by
      rw [Packet.encodeAll, writtenBytes, List.flatMap, List.flatMap, encodings]
    rw [all, ← sound.traffic.exact fits]
    exact List.prefix_append _ _
  rw [← encodings]
  exact (Packet.readAll_initial sent).map _

theorem telemetrySession_proper :
    (clientSystem tcpTakes).Along Proper mqttClientNew telemetrySession := by decide +kernel

theorem server_reads_written_telemetry :
    let client := (clientSystem tcpTakes).final telemetrySession telemetrySession_enabled
    (Packet.readAll client.stream).map Packet.encode <+:
      client.written.map fun one => one.message.bytes :=
  server_reads_written (System.run_final telemetrySession_enabled) telemetrySession_proper
    (by decide +kernel)

/-! ## The connection -/

/-- The connection and the timer are those of the state. No request waits without a connection,
and no item is lost with one. -/
theorem client_wired (ran : (clientSystem tcp).run events = some client) :
    client.conn = connOf client.connState ∧ client.timers = timersOf client.connState ∧
      (client.connState = .tcpDisconnected → client.requests.queue = []) ∧
      (client.connState ≠ .tcpDisconnected → client.requests.Exact) := by
  have sound := sound_run ran
  refine ⟨sound.wired.conn_eq, sound.wired.timers_eq, ?_, sound.queued.exact trivial⟩
  intro idle
  exact (Requests.Wf.empty (sound.queued.idle idle)).2.1

theorem client_wired_telemetry :
    let client := (clientSystem tcpTakes).final telemetrySession telemetrySession_enabled
    client.conn = connOf client.connState ∧ client.timers = timersOf client.connState ∧
      (client.connState = .tcpDisconnected → client.requests.queue = []) ∧
      (client.connState ≠ .tcpDisconnected → client.requests.Exact) :=
  client_wired (System.run_final telemetrySession_enabled)

/-- There is no sign of the server, and no new connection. -/
def ClientEvent.isQuiet : ClientEvent → Bool
  | .connect _ _ => false
  | .tcpConnected _ => false
  | .tcpRecv _ _ => false
  | .tcpSent => false
  | _ => true

def ClientEvent.isTick : ClientEvent → Bool
  | .cyclicTimer => true
  | _ => false

/-- How often the timer has fired since the server has been heard. -/
def MqttClient.waited (client : MqttClient) : ℕ :=
  if client.connState = .mqttConnecting then client.cyclicTick.toNat
  else client.serverWatchdog.toNat

/-- How long the client waits for the server, in seconds. -/
def MqttClient.patience (client : MqttClient) : ℕ :=
  if client.connState = .mqttConnecting then mqttConnectTimout - 1
  else client.keepAlive.toNat + client.keepAlive.toNat / 2

/-- The client waits on, and the timer has fired `ticks` times. -/
structure Waits (ticks : ℕ) (client next : MqttClient) : Prop where
  connState : next.connState = client.connState
  keepAlive : next.keepAlive = client.keepAlive
  waited : next.waited = client.waited + ticks

theorem SameLink.waits {next : MqttClient} (same : SameLink client next) : Waits 0 client next := by
  refine ⟨same.connState, same.keepAlive, ?_⟩
  simp only [MqttClient.waited, same.connState, same.cyclicTick, same.serverWatchdog, Nat.add_zero]

theorem Waits.trans {middle next : MqttClient} {first second : ℕ}
    (waits : Waits first client middle) (waitsOn : Waits second middle next) :
    Waits (first + second) client next := by
  refine ⟨waitsOn.connState.trans waits.connState, waitsOn.keepAlive.trans waits.keepAlive, ?_⟩
  rw [waitsOn.waited, waits.waited, Nat.add_assoc]

theorem Sound.patient {ok usable : Prop} {fired : ℕ} (sound : Sound ok usable fired client)
    (established : Established client) :
    client.waited * mqttCyclicTimerInterval ≤ client.patience := by
  rw [MqttClient.waited, MqttClient.patience]
  split
  · rename_i connecting
    exact Nat.le_pred_of_lt (sound.timely.connecting connecting)
  · exact sound.timely.watched established.live

theorem connState_sendKeepAlive (client : MqttClient) :
    (sendKeepAlive client).connState = client.connState ∧
      (sendKeepAlive client).keepAlive = client.keepAlive ∧
      (sendKeepAlive client).serverWatchdog = client.serverWatchdog := by
  simp only [sendKeepAlive]
  split
  · split <;> exact ⟨rfl, rfl, rfl⟩
  · exact ⟨rfl, rfl, rfl⟩

/-- The timer gives the connection up or counts. -/
theorem cyclicElapsed_waits {ok : Prop} {fired : ℕ} (sound : Sound ok True fired client)
    (established : Established client) (alive : 0 < client.keepAlive) :
    (cyclicElapsed tcp client).1.connState = .tcpDisconnected ∨
      Waits 1 client (cyclicElapsed tcp client).1 := by
  have patient := sound.patient established
  by_cases connecting : client.connState = .mqttConnecting
  · have early := sound.timely.connecting connecting
    have next : (client.cyclicTick + 1).toNat = client.cyclicTick.toNat + 1 := by
      rw [mqttCyclicTimerInterval, mqttConnectTimout] at early
      rw [UInt16.toNat_add, UInt16.toNat_one]
      omega
    simp only [cyclicElapsed, if_pos connecting, next]
    split
    · exact Or.inl (connState_mqttClose _ _)
    · refine Or.inr ⟨rfl, rfl, ?_⟩
      simp only [MqttClient.waited, connecting, if_true, next]
  · have connected : client.connState = .mqttConnected := established.resolve_left connecting
    have watched := sound.timely.watched established.live
    have next : (client.serverWatchdog + 1).toNat = client.serverWatchdog.toNat + 1 := by
      have bound := client.keepAlive.toNat_lt
      rw [mqttCyclicTimerInterval] at watched
      rw [UInt16.toNat_add, UInt16.toNat_one]
      omega
    have used : 0 < (requestsElapsed client 5).keepAlive := alive
    simp only [cyclicElapsed, if_neg connecting, if_pos connected, if_pos used, keepAliveElapsed]
    split
    · refine Or.inl ((connState_sendKeepAlive _).1.trans (connState_mqttClose _ _))
    · rcases connState_sendKeepAlive { requestsElapsed client 5 with
        serverWatchdog := (requestsElapsed client 5).serverWatchdog + 1 } with ⟨state, kept, counted⟩
      refine Or.inr ⟨state, kept, ?_⟩
      have stateAfter := state.trans connected
      simp only [MqttClient.waited, stateAfter, connected, reduceCtorEq, if_false, counted]
      exact next

theorem quiet_step {ok : Prop} {next : MqttClient} {event : ClientEvent}
    (sound : Sound ok True 0 client) (established : Established client)
    (alive : 0 < client.keepAlive) (quiet : event.isQuiet = true)
    (stepped : clientStep tcp client event = some next) :
    next.connState = .tcpDisconnected ∨ Waits (if event.isTick then 1 else 0) client next := by
  cases event with
  | connect info answers => cases quiet
  | tcpConnected err => cases quiet
  | tcpRecv p err => cases quiet
  | tcpSent => cases quiet
  | disconnect =>
      cases stepped
      left
      rw [mqttDisconnect, if_pos established.live]
      exact connState_mqttClose _ _
  | publish args =>
      cases stepped
      exact Or.inr (SameLink.mqttPublish client args).waits
  | subUnsub args =>
      cases stepped
      exact Or.inr (SameLink.mqttSubUnsub client args).waits
  | cyclicTimer =>
      rw [clientStep] at stepped
      split at stepped
      · rename_i armed
        cases stepped
        have elapsed := @cyclicElapsed_waits tcp _ ok 1 (sound.fire armed) established alive
        rw [mqttCyclicTimer]
        generalize cyclicElapsed tcp { client with timers := client.timers - 1 } = pair at elapsed ⊢
        rcases pair with ⟨after, restartTimer⟩
        rcases elapsed with closed | waits
        · left
          cases restartTimer <;> exact closed
        · right
          cases restartTimer <;> exact ⟨waits.connState, waits.keepAlive, waits.waited⟩
      · cases stepped
  | tcpPoll =>
      rw [clientStep] at stepped
      split at stepped
      · cases stepped
        exact Or.inr (SameLink.mqttTcpPollCb client).waits
      · cases stepped
  | tcpErr =>
      rw [clientStep] at stepped
      split at stepped
      · cases stepped
        exact Or.inl (connState_mqttClose _ _)
      · cases stepped

/-- Without a new connection, a client that is disconnected stays so. -/
theorem disconnected_step {ok : Prop} {next : MqttClient} {event : ClientEvent}
    (sound : Sound ok True 0 client) (dead : client.connState = .tcpDisconnected)
    (quiet : event.isQuiet = true) (stepped : clientStep tcp client event = some next) :
    next.connState = .tcpDisconnected := by
  have conn := sound.wired.conn_eq
  have timers := sound.wired.timers_eq
  rw [dead] at conn timers
  cases event with
  | connect info answers => cases quiet
  | tcpConnected err => cases quiet
  | tcpRecv p err => cases quiet
  | tcpSent => cases quiet
  | disconnect =>
      cases stepped
      rw [mqttDisconnect, if_neg (not_not_intro dead)]
      exact dead
  | publish args =>
      cases stepped
      exact (SameLink.mqttPublish client args).connState.trans dead
  | subUnsub args =>
      cases stepped
      exact (SameLink.mqttSubUnsub client args).connState.trans dead
  | cyclicTimer =>
      have unarmed : ¬0 < client.timers := by
        rw [timersOf] at timers
        omega
      rw [clientStep, if_neg unarmed] at stepped
      cases stepped
  | tcpPoll =>
      rw [clientStep, conn] at stepped
      cases stepped
  | tcpErr =>
      rw [clientStep, conn] at stepped
      cases stepped

theorem stays_disconnected {ok : Prop} {quiet : List ClientEvent} {final : MqttClient}
    (sound : Sound ok True 0 client) (dead : client.connState = .tcpDisconnected)
    (silent : ∀ event ∈ quiet, event.isQuiet = true)
    (ran : (clientSystem tcp).runFrom client quiet = some final) :
    final.connState = .tcpDisconnected := by
  induction quiet generalizing client ok with
  | nil =>
      cases ran
      exact dead
  | cons event rest ih =>
      rcases System.runFrom_cons.mp ran with ⟨next, stepped, ranRest⟩
      have deadNext := disconnected_step sound dead (silent event List.mem_cons_self) stepped
      exact ih (sound.step stepped) deadNext
        (fun other member => silent other (List.mem_cons_of_mem _ member)) ranRest

/-- A silent run gives the connection up, or only counts. -/
theorem quiet_run {ok : Prop} {quiet : List ClientEvent} {final : MqttClient}
    (sound : Sound ok True 0 client) (established : Established client)
    (alive : 0 < client.keepAlive) (silent : ∀ event ∈ quiet, event.isQuiet = true)
    (ran : (clientSystem tcp).runFrom client quiet = some final) :
    final.connState = .tcpDisconnected ∨
      (quiet.countP ClientEvent.isTick + client.waited) * mqttCyclicTimerInterval ≤
        client.patience := by
  induction quiet generalizing client ok with
  | nil =>
      right
      rw [List.countP_nil, Nat.zero_add]
      exact sound.patient established
  | cons event rest ih =>
      rcases System.runFrom_cons.mp ran with ⟨next, stepped, ranRest⟩
      have quiet := silent event List.mem_cons_self
      have silentRest : ∀ other ∈ rest, other.isQuiet = true :=
        fun other member => silent other (List.mem_cons_of_mem _ member)
      have soundNext := sound.step stepped
      rcases quiet_step sound established alive quiet stepped with dead | waits
      · exact Or.inl (stays_disconnected soundNext dead silentRest ranRest)
      · have establishedNext : Established next := by
          rw [Established, waits.connState]
          exact established
        have samePatience : next.patience = client.patience := by
          rw [MqttClient.patience, MqttClient.patience, waits.connState, waits.keepAlive]
        have outcome := ih soundNext establishedNext (waits.keepAlive ▸ alive) silentRest ranRest
        rw [samePatience, waits.waited] at outcome
        rw [List.countP_cons]
        convert outcome using 3
        omega

/-- A server that is silent for longer than the client waits is given up. -/
theorem silent_server_given_up {quiet : List ClientEvent} {final : MqttClient}
    (ran : (clientSystem tcp).run events = some client)
    (established : Established client) (alive : 0 < client.keepAlive)
    (silent : ∀ event ∈ quiet, event.isQuiet = true)
    (long : client.patience < quiet.countP ClientEvent.isTick * mqttCyclicTimerInterval)
    (continued : (clientSystem tcp).run (events ++ quiet) = some final) :
    final.connState = .tcpDisconnected := by
  rcases System.runFrom_append.mp continued with ⟨middle, ranPast, ranQuiet⟩
  have same : some middle = some client := ranPast.symm.trans ran
  cases same
  rcases quiet_run (sound_run ran) established alive silent ranQuiet with dead | patient
  · exact dead
  · rw [Nat.add_mul] at patient
    omega

/-- The timer fires until more than one and a half times the keep alive time has passed. -/
def telemetrySilence : List ClientEvent := List.replicate 31 .cyclicTimer

theorem telemetrySilence_enabled :
    ((clientSystem tcpTakes).run (telemetrySession ++ telemetrySilence)).isSome := by decide +kernel

theorem silent_server_given_up_telemetry :
    ((clientSystem tcpTakes).final (telemetrySession ++ telemetrySilence)
      telemetrySilence_enabled).connState = .tcpDisconnected :=
  silent_server_given_up (System.run_final telemetrySession_enabled) (Or.inr (by decide +kernel))
    (by decide +kernel) (by decide) (by decide +kernel) (System.run_final telemetrySilence_enabled)

end

end MqttAccelero.Mqtt
