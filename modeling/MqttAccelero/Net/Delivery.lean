import Mathlib.Order.Nat
import MqttAccelero.Net.FrameFit
import MqttAccelero.Net.LinkState

/-!
# Frames delivered in one session

A host that sends Ethernet frames of 1 to 1514 bytes, cut into 64-byte packets,
finds each of them given to `netif->input` once, in order and unchanged, or
dropped because `pbuf_alloc` failed for it. Whatever the host sends, nothing is
stored behind `UserRxBuffer`.
-/

namespace MqttAccelero.Net

open Usb UsbDevice Framing

/-- What the loop may do with a frame that fits one pool buffer. -/
inductive Delivered (frame : List UInt8) : List LoopAct → Prop where
  /-- `pbuf_alloc` fails, and reception starts again. -/
  | dropped :
      Delivered frame [.pbufAlloc frame.length false, .prepareReceive 0 cdcEcmDataFsMaxPacketSize]
  | accepted :
      Delivered frame [.pbufAlloc frame.length true, .input frame 0,
        .prepareReceive 0 cdcEcmDataFsMaxPacketSize]
  /-- lwIP refuses the pbuf, and the loop frees it. -/
  | refused {err : ℤ} (failed : err ≠ 0) :
      Delivered frame [.pbufAlloc frame.length true, .input frame err, .pbufFree frame,
        .prepareReceive 0 cdcEcmDataFsMaxPacketSize]

theorem Episode.delivered {frame : List UInt8} {acts : List LoopAct} (episode : Episode frame acts)
    (nonempty : 1 ≤ frame.length) (fits : frame.length ≤ pbufPoolBufsize) :
    Delivered frame acts := by
  cases episode with
  | empty isEmpty =>
      rw [isEmpty] at nonempty
      cases nonempty
  | dropped => exact .dropped
  | accepted _ junk =>
      rw [chainBytes_inputChain junk fits]
      exact .accepted
  | refused _ junk failed =>
      rw [chainBytes_inputChain junk fits]
      exact .refused failed

theorem forall₂_delivered {frames : List (List UInt8)} {episodes : List (List LoopAct)}
    (done : List.Forall₂ Episode frames episodes)
    (lengths : ∀ frame ∈ frames, 1 ≤ frame.length ∧ frame.length ≤ pbufPoolBufsize) :
    List.Forall₂ Delivered frames episodes := by
  induction done with
  | nil => exact .nil
  | cons episode _ ih =>
      have head := lengths _ List.mem_cons_self
      refine .cons (episode.delivered head.1 head.2) (ih ?_)
      intro frame member
      exact lengths frame (List.mem_cons_of_mem _ member)

/-- The loop waits and no frame is waiting for it. -/
def Quiet (net : NetState) : Prop :=
  net.loop.pc = .notifyWait ∧ net.usb.pending.newPacket = false

/-! ## Any session -/

theorem HandlesAt.completes {side : ReceiveSide} {frame : List UInt8} {acts : List LoopAct}
    {pc : LoopPc} (doing : HandlesAt side frame acts pc) :
    ∃ full, Episode frame full ∧ acts <+: full := by
  have fresh : ∃ full, Episode frame full ∧ [] <+: full := by
    by_cases isEmpty : frame = []
    · exact ⟨_, .empty isEmpty, List.nil_prefix⟩
    · exact ⟨_, .dropped isEmpty, List.nil_prefix⟩
  cases pc with
  | notifyWait | clearHcdc flags | fault => cases doing
  | setLinkUp flags | loadHcdc flags | setLinkDown flags | newPacket flags | llInput
  | testRxLength hcdc =>
      rcases doing with ⟨-, rfl⟩
      exact fresh
  | testRxState hcdc | pbufAlloc hcdc =>
      rcases doing with ⟨-, rfl, -⟩
      exact fresh
  | copyFrame hcdc p | setLen hcdc p | input p =>
      rcases doing with ⟨-, rfl, nonempty, junk, -⟩
      exact ⟨_, .accepted nonempty junk, List.prefix_append [_] _⟩
  | pbufFree p =>
      rcases doing with ⟨-, nonempty, junk, err, failed, rfl, rfl⟩
      exact ⟨_, .refused nonempty junk failed, List.prefix_append [_, _] _⟩
  | unlockCore | resetRxLength | resetRxState | prepareReceive =>
      exact ⟨_, doing.2, List.prefix_append _ _⟩

/-- The trace is the start of one episode for each frame handed over, and all of them in quiet. -/
theorem Phase.episodes {net : NetState} {handled : List (List LoopAct)}
    {frames : List (List UInt8)} {pending : List UInt8}
    (phase : Phase net handled frames pending) :
    ∃ episodes, List.Forall₂ Episode frames episodes ∧ frameTrace net <+: episodes.flatten ∧
      (Quiet net → frameTrace net = episodes.flatten) := by
  cases phase with
  | unconfigured _ _ _ _ trace =>
      exact ⟨[], .nil, trace ▸ List.nil_prefix, fun _ => trace⟩
  | receiving _ _ _ _ _ _ trace done =>
      exact ⟨_, done, trace ▸ List.prefix_rfl, fun _ => trace⟩
  | complete holds told idle trace done =>
      rename_i frames last
      have next : HandlesAt net.usb.receiveSide last [] .llInput := ⟨holds, rfl⟩
      rcases next.completes with ⟨full, episode, -⟩
      refine ⟨handled ++ [full], List.rel_append done (.cons episode .nil), ?_, fun quiet => ?_⟩
      · rw [trace, List.flatten_append]
        exact List.prefix_append _ _
      · rw [quiet.2] at told
        cases told
  | handling handles doing trace done =>
      rcases doing.completes with ⟨full, episode, begun⟩
      refine ⟨handled ++ [full], List.rel_append done (.cons episode .nil), ?_, fun quiet => ?_⟩
      · rw [trace, List.flatten_append, List.flatten_singleton]
        exact (List.prefix_append_right_inj _).mpr begun
      · rw [quiet.1] at handles
        cases handles

theorem Phase.rearmed {net : NetState} {handled : List (List LoopAct)}
    {frames : List (List UInt8)} {pending : List UInt8}
    (phase : Phase net handled frames pending) (quiet : Quiet net)
    (configured : net.usb.installed ≠ none) :
    net.usb.outEp = some ⟨pending.length, cdcEcmDataFsMaxPacketSize⟩ := by
  cases phase with
  | unconfigured missing => exact absurd (installed_eq_none_iff.mpr missing) configured
  | receiving _ armed => exact armed
  | complete _ told =>
      rw [quiet.2] at told
      cases told
  | handling handles =>
      rw [quiet.1] at handles
      cases handles

/-! ## Progress -/

/-- How many statements are left before the loop waits again. -/
def LoopPc.stepsLeft : LoopPc → ℕ
  | .notifyWait | .fault => 0
  | .prepareReceive => 1
  | .resetRxState => 2
  | .resetRxLength => 3
  | .unlockCore => 4
  | .pbufFree _ => 5
  | .input _ => 6
  | .setLen _ _ => 7
  | .copyFrame _ _ => 8
  | .pbufAlloc _ => 9
  | .testRxState _ => 10
  | .testRxLength _ => 11
  | .llInput => 12
  | .newPacket _ => 13
  | .clearHcdc _ => 14
  | .setLinkDown _ => 15
  | .loadHcdc _ => 16
  | .setLinkUp _ => 17

theorem stepsLeft_withHandle {net : NetState} {pointer : Option HandleId}
    {next : ClassHandle → NetState → NetState} {bound : ℕ} (positive : 0 < bound)
    (fewer : ∀ hcdc seen, (next hcdc seen).loop.pc.stepsLeft < bound) :
    (net.withHandle pointer next).loop.pc.stepsLeft < bound := by
  rcases net.withHandle_cases pointer next with ⟨hcdc, -, -, through⟩ | ⟨-, faulted⟩
  · rw [through]
    exact fewer _ _
  · rw [faulted]
    exact positive

theorem loopStep_stepsLeft {net next : NetState} {results : CallResults}
    (stepped : loopStep results net = some next) (busy : net.loop.pc ≠ .notifyWait) :
    next.loop.pc.stepsLeft < net.loop.pc.stepsLeft := by
  cases pc : net.loop.pc with
  | notifyWait => exact absurd pc busy
  | setLinkUp flags | setLinkDown flags | newPacket flags | input p =>
      simp only [loopStep, pc] at stepped
      split at stepped
      · cases stepped
        simp [LoopPc.stepsLeft]
      · cases stepped
        simp [LoopPc.stepsLeft]
  | loadHcdc flags | clearHcdc flags | llInput | pbufFree p | unlockCore =>
      simp only [loopStep, pc, Option.some.injEq] at stepped
      subst stepped
      simp [LoopPc.stepsLeft]
  | testRxLength pointer | testRxState pointer | pbufAlloc pointer =>
      simp only [loopStep, pc, Option.some.injEq] at stepped
      subst stepped
      apply stepsLeft_withHandle (by simp [LoopPc.stepsLeft])
      intro hcdc seen
      split
      · simp [LoopPc.stepsLeft]
      · simp [LoopPc.stepsLeft]
  | copyFrame pointer p | setLen pointer p | resetRxLength | resetRxState | prepareReceive =>
      simp only [loopStep, pc, Option.some.injEq] at stepped
      subst stepped
      apply stepsLeft_withHandle (by simp [LoopPc.stepsLeft])
      intro hcdc seen
      simp [LoopPc.stepsLeft]
  | fault => simp [loopStep, pc] at stepped

/-- The loop is only ever blocked in its wait. -/
theorem loopStep_isSome {net : NetState} (results : CallResults)
    (running : net.loop.pc ≠ .fault) (busy : net.loop.pc ≠ .notifyWait) :
    (loopStep results net).isSome := by
  cases pc : net.loop.pc with
  | notifyWait => exact absurd pc busy
  | fault => exact absurd pc running
  | setLinkUp flags | setLinkDown flags | newPacket flags | input p =>
      simp only [loopStep, pc]
      split
      · rfl
      · rfl
  | _ => simp [loopStep, pc]

def ownSteps (results : ℕ → CallResults) (count : ℕ) : List NetEvent :=
  (List.range count).map fun index => .loop (results index)

theorem ownSteps_add (results : ℕ → CallResults) (first second : ℕ) :
    ownSteps results (first + second) =
      ownSteps results first ++ ownSteps (fun index => results (first + index)) second := by
  simp [ownSteps, List.range_add, Function.comp_def]

theorem LoopPc.stepsLeft_le (pc : LoopPc) : pc.stepsLeft ≤ 17 := by
  cases pc <;> simp [LoopPc.stepsLeft]

/-- Left to itself, the loop comes back to its wait, and has not looked at the events. -/
theorem InSession.returns {past : List NetEvent} {net : NetState} (session : InSession past net)
    (results : ℕ → CallResults) :
    ∃ count ≤ net.loop.pc.stepsLeft, ∃ final,
      netSystem.runFrom net (ownSteps results count) = some final ∧
        final.loop.pc = .notifyWait ∧ final.usb.pending = net.usb.pending ∧
        InSession (past ++ ownSteps results count) final := by
  generalize bound : net.loop.pc.stepsLeft = left
  induction left using Nat.strong_induction_on generalizing past net results with
  | _ left ih =>
      by_cases waiting : net.loop.pc = .notifyWait
      · refine ⟨0, Nat.zero_le _, net, rfl, waiting, rfl, ?_⟩
        simpa [ownSteps] using session
      · have running : net.loop.pc ≠ .fault := by
          intro faulted
          have owns := session.ownership.owns
          rw [faulted] at owns
          exact owns
        rcases Option.isSome_iff_exists.mp (loopStep_isSome (results 0) running waiting) with
          ⟨next, stepped⟩
        have fewer := loopStep_stepsLeft stepped waiting
        have after : InSession (past ++ [.loop (results 0)]) next := session.step trivial stepped
        rcases ih _ (bound ▸ fewer) after (fun index => results (index + 1)) rfl with
          ⟨count, few, final, ran, done, pending, last⟩
        have shape : ownSteps results (count + 1) =
            .loop (results 0) :: ownSteps (fun index => results (index + 1)) count := by
          rw [Nat.add_comm, ownSteps_add]
          simp [ownSteps, Nat.add_comm]
        refine ⟨count + 1, by omega, final, ?_, done, ?_, ?_⟩
        · rw [shape]
          exact System.runFrom_cons.mpr ⟨next, stepped, ran⟩
        · exact pending.trans (loopStep_pending stepped waiting)
        · rw [shape]
          simpa using last

/-- Left to itself, the loop deals with every frame handed over. -/
theorem InSession.quiets {past : List NetEvent} {net : NetState} (session : InSession past net)
    (results : ℕ → CallResults) :
    ∃ count ≤ 35, ∃ final,
      netSystem.runFrom net (ownSteps results count) = some final ∧ Quiet final := by
  rcases session.returns results with ⟨count, few, middle, ran, waiting, -, after⟩
  have bound := net.loop.pc.stepsLeft_le
  by_cases told : middle.usb.pending.newPacket = true
  · -- a frame is waiting: one more round
    have woken : loopStep (results count) middle =
        some { usb := { middle.usb with pending := .none }
               loop := middle.loop.goto (.setLinkUp middle.usb.pending) } := by
      simp [loopStep, waiting, NetEvents.any, told]
    have next : InSession (past ++ ownSteps results count ++ [.loop (results count)]) _ :=
      after.step trivial woken
    rcases next.returns (fun index => results (count + (1 + index))) with
      ⟨more, few', final, ran', done, pending, -⟩
    have round : more ≤ 17 := few'.trans (LoopPc.stepsLeft_le _)
    refine ⟨count + (1 + more), by omega, final, ?_, done, ?_⟩
    · rw [ownSteps_add, ownSteps_add]
      refine System.runFrom_append.mpr ⟨middle, ran, ?_⟩
      exact System.runFrom_cons.mpr ⟨_, woken, ran'⟩
    · rw [pending]
      rfl
  · exact ⟨count, by omega, middle, ran, waiting, by simpa using told⟩

/-! ## The end of the receive buffer -/

/-- The endpoint is armed inside `UserRxBuffer`, and what lies behind it is as at start-up. -/
structure RxInside (side : ReceiveSide) : Prop where
  armed : ∀ transfer ∈ side.outEp, transfer.offset < cdcEcmEthMaxSegsze ∧
    transfer.size ≤ cdcEcmDataFsMaxPacketSize
  size : ∀ hcdc ∈ side.handle, hcdc.maxPcktLen = cdcEcmDataFsMaxPacketSize
  behind : ∀ address, userBufferSize ≤ address →
    side.buffer address = netInit.usb.userRxBuffer address

theorem RxInside.store {side : ReceiveSide} (inside : RxInside side) {transfer : OutTransfer}
    (armed : side.outEp = some transfer) {bytes : List UInt8}
    (fits : bytes.length ≤ transfer.size) {address : ℕ} (past : userBufferSize ≤ address) :
    Memory.store side.buffer transfer.offset bytes address =
      netInit.usb.userRxBuffer address := by
  rcases inside.armed transfer armed with ⟨offset, size⟩
  rw [Memory.store_of_outside]
  · exact inside.behind address past
  · right
    simp only [userBufferSize, cdcEcmEthMaxSegsze, cdcEcmDataFsMaxPacketSize] at *
    omega

theorem RxInside.usb_step {usb next : UsbDevice} {event : UsbEvent}
    (inside : RxInside usb.receiveSide) (stepped : usbStep usb event = some next) :
    RxInside next.receiveSide := by
  cases event with
  | classInit allocated =>
      cases allocated with
      | true =>
          rw [(usbStep_classInit stepped).2]
          refine ⟨?_, ?_, inside.behind⟩
          · intro transfer armed
            cases armed
            exact ⟨by decide, le_rfl⟩
          · intro hcdc present
            cases present
            rfl
      | false =>
          rw [usbStep_classInit_failed stepped]
          exact inside
  | classDeInit =>
      rw [(usbStep_classDeInit stepped).2]
      refine ⟨?_, ?_, inside.behind⟩
      · intro transfer armed
        cases armed
      · intro hcdc present
        cases present
  | inPacket =>
      rw [usbStep_inPacket_receiveSide stepped]
      exact inside
  | dataIn =>
      rw [usbStep_dataIn_receiveSide stepped]
      exact inside
  | outPacket bytes =>
      cases handle : usb.receiveSide.handle with
      | none =>
          rcases usbStep_outPacket_dropped stepped handle with ⟨transfer, armed, fits, shape⟩
          rw [shape]
          refine ⟨?_, ?_, fun _ past => inside.store armed fits past⟩
          · intro transfer armed
            cases armed
          · intro hcdc present
            cases present
      | some hcdc =>
          have size := inside.size hcdc handle
          by_cases last : hcdc.EndsFrame bytes.length
          · rcases usbStep_outPacket_last stepped handle last with ⟨transfer, armed, fits, shape⟩
            rw [shape]
            refine ⟨?_, ?_, fun _ past => inside.store armed fits past⟩
            · intro transfer armed
              cases armed
            · intro hcdc present
              cases present
              exact size
          · rcases usbStep_outPacket_more stepped handle last with ⟨transfer, armed, fits, shape⟩
            rw [shape]
            refine ⟨?_, ?_, fun _ past => inside.store armed fits past⟩
            · intro transfer armed
              cases armed
              exact ⟨Nat.lt_of_not_le (not_or.mp last).2, size.le⟩
            · intro hcdc present
              cases present
              exact size

theorem RxInside.reset {net : NetState} (inside : RxInside net.usb.receiveSide)
    (seen : ReceiveHandle → ReceiveHandle) {update : ClassHandle → ClassHandle}
    {pointer : Option HandleId} {next : ClassHandle → NetState → NetState}
    (reset : ∀ hcdc seen, (next hcdc seen).usb = net.usb.updateHandle update)
    (same : ∀ full, (update full).receive = seen full.receive)
    (sameSize : ∀ hcdc, (seen hcdc).maxPcktLen = hcdc.maxPcktLen) :
    RxInside (net.withHandle pointer next).usb.receiveSide := by
  rcases net.withHandle_cases pointer next with ⟨hcdc, present, -, through⟩ | ⟨-, faulted⟩
  · have handle : net.usb.receiveSide.handle = some hcdc.receive := by
      simp [receiveSide, present]
    rw [through, reset]
    refine ⟨inside.armed, ?_, inside.behind⟩
    intro other found
    rw [handle_updateHandle seen handle same] at found
    cases found
    rw [sameSize]
    exact inside.size _ handle
  · rw [faulted]
    exact inside

theorem RxInside.loop_step {net next : NetState} {results : CallResults}
    (inside : RxInside net.usb.receiveSide) (stepped : loopStep results net = some next) :
    RxInside next.usb.receiveSide := by
  cases pc : net.loop.pc with
  | notifyWait =>
      simp only [loopStep, pc] at stepped
      split at stepped
      · cases stepped
        exact ⟨inside.armed, inside.size, inside.behind⟩
      · cases stepped
  | setLinkUp flags | setLinkDown flags | newPacket flags | input p =>
      simp only [loopStep, pc] at stepped
      split at stepped
      · cases stepped
        exact inside
      · cases stepped
        exact inside
  | loadHcdc flags | clearHcdc flags | llInput | pbufFree p | unlockCore =>
      simp only [loopStep, pc] at stepped
      cases stepped
      exact inside
  | testRxLength pointer | testRxState pointer | pbufAlloc pointer =>
      simp only [loopStep, pc, Option.some.injEq] at stepped
      subst stepped
      rcases net.withHandle_cases pointer _ with ⟨hcdc, -, -, through⟩ | ⟨-, faulted⟩
      · rw [through]
        split
        · exact inside
        · exact inside
      · rw [faulted]
        exact inside
  | copyFrame pointer p | setLen pointer p =>
      simp only [loopStep, pc, Option.some.injEq] at stepped
      subst stepped
      rcases net.withHandle_cases pointer _ with ⟨hcdc, -, -, through⟩ | ⟨-, faulted⟩
      · rw [through]
        exact inside
      · rw [faulted]
        exact inside
  | resetRxLength =>
      simp only [loopStep, pc, Option.some.injEq] at stepped
      subst stepped
      apply inside.reset (fun hcdc => { hcdc with rxLength := 0 })
      · intro _ _
        rfl
      · intro _
        rfl
      · intro _
        rfl
  | resetRxState =>
      simp only [loopStep, pc, Option.some.injEq] at stepped
      subst stepped
      apply inside.reset (fun hcdc => { hcdc with rxState := 0 })
      · intro _ _
        rfl
      · intro _
        rfl
      · intro _
        rfl
  | prepareReceive =>
      simp only [loopStep, pc, Option.some.injEq] at stepped
      subst stepped
      rcases net.withHandle_cases net.loop.hcdc _ with ⟨hcdc, present, -, through⟩ | ⟨-, faulted⟩
      · have handle : net.usb.receiveSide.handle = some hcdc.receive := by
          simp [receiveSide, present]
        rw [through]
        have start : 0 < cdcEcmEthMaxSegsze := by decide
        refine ⟨?_, inside.size, inside.behind⟩
        intro transfer armed
        cases armed
        exact ⟨start, Nat.le_of_eq (inside.size _ handle)⟩
      · rw [faulted]
        exact inside
  | fault => simp [loopStep, pc] at stepped

theorem RxInside.of_run {events : List NetEvent} {net : NetState}
    (ran : netSystem.run events = some net) : RxInside net.usb.receiveSide := by
  refine System.invariant (fun net => RxInside net.usb.receiveSide) ?_ ?_ ran
  · intro current event next inside stepped
    rcases netStep_cases stepped with ⟨usbEvent, usb, rfl, steppedUsb, rfl⟩ | ⟨_, rfl, looped⟩
    · exact inside.usb_step steppedUsb
    · exact inside.loop_step looped
  · refine ⟨?_, ?_, fun _ _ => rfl⟩
    · intro transfer armed
      cases armed
    · intro hcdc present
      cases present

/-! ## The frames of a host -/

/-- The host cuts `sent` into packets, and this is what becomes of them. -/
structure DeliversExactly (sent : List (List UInt8)) (events : List NetEvent)
    (net : NetState) : Prop where
  /-- The frames handed over are the frames sent, in order. -/
  inOrder : (received events).1 <+: sent
  /-- A frame whose packets have all arrived has been handed over. -/
  whole : ∀ first, first <+: sent →
    first.flatMap (packetize cdcEcmDataFsMaxPacketSize) <+: outPackets events →
    first <+: (received events).1
  /-- The loop deals with them one by one, and with all of them before it waits again. -/
  dealtWith : ∃ episodes, List.Forall₂ Delivered (received events).1 episodes ∧
    frameTrace net <+: episodes.flatten ∧ (Quiet net → frameTrace net = episodes.flatten)
  /-- Between frames the endpoint is armed at the start of the buffer. -/
  rearmed : Quiet net → net.usb.installed ≠ none →
    outPackets events = sent.flatMap (packetize cdcEcmDataFsMaxPacketSize) →
    net.usb.outEp = some ⟨0, cdcEcmDataFsMaxPacketSize⟩
  /-- The loop left to itself gets there in a bounded number of steps. -/
  finishes : ∀ results, ∃ count ≤ 35, ∃ final,
    netSystem.runFrom net (ownSteps results count) = some final ∧ Quiet final

theorem reassemble_sent {sent : List (List UInt8)}
    (lengths : ∀ frame ∈ sent, 1 ≤ frame.length ∧ frame.length ≤ cdcEcmEthMaxSegsze) :
    reassemble (endsAtShortOr cdcEcmDataFsMaxPacketSize cdcEcmEthMaxSegsze) []
      (sent.flatMap (packetize cdcEcmDataFsMaxPacketSize)) = (sent, []) := by
  apply reassemble_flatMap_packetize (by decide)
  · intro total length short
    exact endsAtShortOr_of_lt short
  · intro frame member index inside
    have bound := (lengths frame member).2
    apply endsAtShortOr_full
    simp only [cdcEcmEthMaxSegsze, cdcEcmDataFsMaxPacketSize] at *
    -- 1514 is no multiple of 64
    omega

theorem deliversExactly_of_session {events : List NetEvent} {net : NetState}
    {sent : List (List UInt8)} (ran : netSystem.run events = some net)
    (session : ∀ event ∈ events, Stays event)
    (lengths : ∀ frame ∈ sent, 1 ≤ frame.length ∧ frame.length ≤ cdcEcmEthMaxSegsze)
    (packets : outPackets events <+: sent.flatMap (packetize cdcEcmDataFsMaxPacketSize)) :
    DeliversExactly sent events net := by
  have state := InSession.of_run ran session
  rcases state.phase with ⟨handled, phase⟩
  have inOrder : (received events).1 <+: sent := by
    have initial := reassemble_initial (endsAtShortOr cdcEcmDataFsMaxPacketSize cdcEcmEthMaxSegsze)
      [] packets
    rw [reassemble_sent lengths] at initial
    exact initial
  refine ⟨inOrder, ?_, ?_, ?_, ?_⟩
  · intro first initial arrived
    have handedOver := reassemble_initial
      (endsAtShortOr cdcEcmDataFsMaxPacketSize cdcEcmEthMaxSegsze) [] arrived
    rw [reassemble_sent fun frame member => lengths frame (initial.subset member)] at handedOver
    exact handedOver
  · rcases phase.episodes with ⟨episodes, done, begun, all⟩
    refine ⟨episodes, forall₂_delivered done ?_, begun, all⟩
    intro frame member
    have bound := lengths frame (inOrder.subset member)
    exact ⟨bound.1, bound.2.trans (by decide)⟩
  · intro quiet configured complete
    have none : (received events).2 = [] := by
      rw [received, complete, reassemble_sent lengths]
    rw [phase.rearmed quiet configured, none]
    rfl
  · exact state.quiets

end MqttAccelero.Net
