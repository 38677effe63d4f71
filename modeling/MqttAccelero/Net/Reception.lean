import Mathlib.Data.List.Forall2
import MqttAccelero.Lib.Framing
import MqttAccelero.Net.Session

/-!
# The bytes of a frame on their way to lwIP

Within a session reception is always in one of four phases: not configured,
receiving packets into an armed endpoint, a complete frame waiting for the loop,
and the loop handling it. This file follows the bytes through these phases, for
any packets the host may send.
-/

namespace MqttAccelero.Net

open Usb UsbDevice Framing

def outPackets (events : List NetEvent) : List (List UInt8) :=
  events.filterMap fun
    | .usb (.outPacket bytes) => some bytes
    | _ => none

/-- The frames which DataOut has handed over, and the bytes of the frame it is collecting. -/
def received (events : List NetEvent) : List (List UInt8) × List UInt8 :=
  reassemble (endsAtShortOr cdcEcmDataFsMaxPacketSize cdcEcmEthMaxSegsze) [] (outPackets events)

/-- The acts by which a frame reaches lwIP or is dropped. -/
def LoopAct.onFrame : LoopAct → Bool
  | .pbufAlloc _ _ | .input _ _ | .pbufFree _ | .prepareReceive _ _ => true
  | .access _ _ | .rearm _ | .lock | .unlock => false

/-- What the loop may do with one frame. -/
inductive Episode (frame : List UInt8) : List LoopAct → Prop where
  | empty (isEmpty : frame = []) :
      Episode frame [.prepareReceive 0 cdcEcmDataFsMaxPacketSize]
  | dropped (nonempty : frame ≠ []) :
      Episode frame [.pbufAlloc frame.length false, .prepareReceive 0 cdcEcmDataFsMaxPacketSize]
  | accepted (nonempty : frame ≠ []) (junk : ℕ → ℕ → UInt8) :
      Episode frame [.pbufAlloc frame.length true, .input (chainBytes (inputChain junk frame)) 0,
        .prepareReceive 0 cdcEcmDataFsMaxPacketSize]
  | refused (nonempty : frame ≠ []) (junk : ℕ → ℕ → UInt8) {err : ℤ} (failed : err ≠ 0) :
      Episode frame [.pbufAlloc frame.length true, .input (chainBytes (inputChain junk frame)) err,
        .pbufFree (chainBytes (inputChain junk frame)),
        .prepareReceive 0 cdcEcmDataFsMaxPacketSize]

/-- A complete frame lies in the receive buffer. -/
def HoldsFrame (side : ReceiveSide) (frame : List UInt8) : Prop :=
  ∃ id, side.handle = some ⟨id, frame.length, 1, cdcEcmDataFsMaxPacketSize⟩ ∧
    Memory.load side.buffer 0 frame.length = frame ∧
    frame.length < cdcEcmEthMaxSegsze + cdcEcmDataFsMaxPacketSize

/-- The rest of the loop's work on a frame after `acts`: only the re-arming is left. -/
def OnlyRearm (frame : List UInt8) (acts : List LoopAct) : Prop :=
  Episode frame (acts ++ [.prepareReceive 0 cdcEcmDataFsMaxPacketSize])

/-- The loop handles `frame`, has done `acts` with it, and is about to execute `pc`. -/
def HandlesAt (side : ReceiveSide) (frame : List UInt8) (acts : List LoopAct) : LoopPc → Prop
  | .notifyWait | .clearHcdc _ | .fault => False
  | .setLinkUp _ | .loadHcdc _ | .setLinkDown _ | .newPacket _ | .llInput | .testRxLength _ =>
      HoldsFrame side frame ∧ acts = []
  | .testRxState _ | .pbufAlloc _ => HoldsFrame side frame ∧ acts = [] ∧ frame ≠ []
  | .copyFrame _ p => HoldsFrame side frame ∧ acts = [.pbufAlloc frame.length true] ∧
      frame ≠ [] ∧ ∃ junk, p = poolChain junk frame.length frame.length
  | .setLen _ p => HoldsFrame side frame ∧ acts = [.pbufAlloc frame.length true] ∧
      frame ≠ [] ∧ ∃ junk,
        p = updateHead (·.memcpy frame) (poolChain junk frame.length frame.length)
  | .input p => HoldsFrame side frame ∧ acts = [.pbufAlloc frame.length true] ∧
      frame ≠ [] ∧ ∃ junk, p = inputChain junk frame
  | .pbufFree p => HoldsFrame side frame ∧ frame ≠ [] ∧ ∃ junk err, err ≠ 0 ∧
      p = inputChain junk frame ∧ acts = [.pbufAlloc frame.length true, .input (chainBytes p) err]
  | .unlockCore | .resetRxLength => HoldsFrame side frame ∧ OnlyRearm frame acts
  | .resetRxState =>
      (∃ id, side.handle = some ⟨id, 0, 1, cdcEcmDataFsMaxPacketSize⟩) ∧ OnlyRearm frame acts
  | .prepareReceive =>
      (∃ id, side.handle = some ⟨id, 0, 0, cdcEcmDataFsMaxPacketSize⟩) ∧ OnlyRearm frame acts

def frameTrace (net : NetState) : List LoopAct :=
  net.loop.trace.filter LoopAct.onFrame

/--
The phases of reception, after DataOut has handed over `frames` and collected
`pending` of the next one. `episodes` is what the loop did with the frames it is
done with.
-/
inductive Phase (net : NetState) :
    (episodes : List (List LoopAct)) → (frames : List (List UInt8)) → List UInt8 → Prop where
  | unconfigured (missing : net.usb.receiveSide.handle = none) (unarmed : net.usb.outEp = none)
      (untold : net.usb.pending.newPacket = false) (idle : ¬net.loop.pc.HandlesPacket)
      (trace : frameTrace net = []) : Phase net [] [] []
  | receiving {episodes : List (List LoopAct)} {frames : List (List UInt8)} {pending : List UInt8}
      (handle : ∃ id, net.usb.receiveSide.handle =
        some ⟨id, pending.length, 0, cdcEcmDataFsMaxPacketSize⟩)
      (armed : net.usb.outEp = some ⟨pending.length, cdcEcmDataFsMaxPacketSize⟩)
      (stored : Memory.load net.usb.userRxBuffer 0 pending.length = pending)
      (short : pending.length < cdcEcmEthMaxSegsze)
      (untold : net.usb.pending.newPacket = false) (idle : ¬net.loop.pc.HandlesPacket)
      (trace : frameTrace net = episodes.flatten) (done : List.Forall₂ Episode frames episodes) :
      Phase net episodes frames pending
  | complete {episodes : List (List LoopAct)} {frames : List (List UInt8)} {last : List UInt8}
      (holds : HoldsFrame net.usb.receiveSide last)
      (told : net.usb.pending.newPacket = true) (idle : ¬net.loop.pc.HandlesPacket)
      (trace : frameTrace net = episodes.flatten) (done : List.Forall₂ Episode frames episodes) :
      Phase net episodes (frames ++ [last]) []
  | handling {episodes : List (List LoopAct)} {frames : List (List UInt8)} {last : List UInt8}
      {acts : List LoopAct} (handles : net.loop.pc.HandlesPacket)
      (doing : HandlesAt net.usb.receiveSide last acts net.loop.pc)
      (trace : frameTrace net = episodes.flatten ++ acts)
      (done : List.Forall₂ Episode frames episodes) : Phase net episodes (frames ++ [last]) []

/-! ## The USB side -/

/-- What one event adds to the frames. -/
def collect (got : List (List UInt8) × List UInt8) :
    NetEvent → List (List UInt8) × List UInt8
  | .usb (.outPacket bytes) =>
      if endsAtShortOr cdcEcmDataFsMaxPacketSize cdcEcmEthMaxSegsze (got.2 ++ bytes).length
          bytes.length then
        (got.1 ++ [got.2 ++ bytes], [])
      else (got.1, got.2 ++ bytes)
  | _ => got

theorem received_concat (past : List NetEvent) (event : NetEvent) :
    received (past ++ [event]) = collect (received past) event := by
  have split : outPackets (past ++ [event]) = outPackets past ++ outPackets [event] :=
    List.filterMap_append
  cases event with
  | loop results => simp [received, collect, outPackets]
  | usb usbEvent =>
      cases usbEvent with
      | outPacket bytes =>
          have single : outPackets [.usb (.outPacket bytes)] = [bytes] := rfl
          rw [received, split, single]
          simp only [collect]
          split
          · rename_i ends
            exact reassemble_concat_ends rfl ends
          · rename_i more
            exact reassemble_concat_open rfl (by simpa using more)
      | _ => simp [received, collect, outPackets]

theorem endsFrame_iff {id rxState : ℕ} {pending bytes : List UInt8} :
    (ReceiveHandle.mk id pending.length rxState cdcEcmDataFsMaxPacketSize).EndsFrame
        bytes.length ↔
      endsAtShortOr cdcEcmDataFsMaxPacketSize cdcEcmEthMaxSegsze (pending ++ bytes).length
        bytes.length = true := by
  simp [ReceiveHandle.EndsFrame, endsAtShortOr]

theorem Phase.congr {net : NetState} {usb : UsbDevice} {episodes : List (List LoopAct)}
    {frames : List (List UInt8)} {pending : List UInt8}
    (phase : Phase net episodes frames pending)
    (same : usb.receiveSide = net.usb.receiveSide) :
    Phase { net with usb } episodes frames pending := by
  have outEp : usb.outEp = net.usb.outEp := congrArg ReceiveSide.outEp same
  have buffer : usb.userRxBuffer = net.usb.userRxBuffer := congrArg ReceiveSide.buffer same
  have told : usb.pending = net.usb.pending := congrArg ReceiveSide.pending same
  cases phase with
  | unconfigured missing unarmed untold idle trace =>
      exact .unconfigured (same ▸ missing) (outEp ▸ unarmed) (told ▸ untold) idle trace
  | receiving handle armed stored short untold idle trace done =>
      exact .receiving (same ▸ handle) (outEp ▸ armed) (buffer ▸ stored) short (told ▸ untold)
        idle trace done
  | complete holds told' idle trace done =>
      exact .complete (same ▸ holds) (told ▸ told') idle trace done
  | handling handles doing trace done =>
      exact .handling handles (same ▸ doing) trace done

theorem Phase.classInit_step {net : NetState} {usb : UsbDevice} {episodes : List (List LoopAct)}
    {frames : List (List UInt8)} {pending : List UInt8}
    (phase : Phase net episodes frames pending) (inv : Ownership net)
    (stepped : usbStep net.usb (.classInit true) = some usb) :
    Phase { net with usb } episodes frames pending := by
  rcases usbStep_classInit stepped with ⟨free, shape⟩
  cases phase with
  | unconfigured missing unarmed untold idle trace =>
      have handle : usb.receiveSide.handle = some (.fresh net.usb.nextId) := by rw [shape]
      have armed : usb.outEp = some ⟨0, cdcEcmDataFsMaxPacketSize⟩ :=
        congrArg ReceiveSide.outEp shape
      have told : usb.pending = { net.usb.pending with linkUp := true } :=
        congrArg ReceiveSide.pending shape
      refine .receiving ⟨_, handle⟩ armed rfl (by decide) ?_ idle trace .nil
      rw [told]
      exact untold
  | receiving handle armed stored short untold idle trace done =>
      rcases handle with ⟨id, handle⟩
      rw [free] at handle
      cases handle
  | complete holds told idle trace done =>
      rcases holds with ⟨id, handle, -⟩
      rw [free] at handle
      cases handle
  | handling handles doing trace done =>
      exact absurd (installed_eq_none_iff.mpr free) (inv.owns.loopOwns handles).installed

/-- A packet arrives while a frame is being collected: the frame grows, or it is complete. -/
theorem Phase.store_step {net : NetState} {usb : UsbDevice} {episodes : List (List LoopAct)}
    {frames : List (List UInt8)} {pending bytes : List UInt8} {id : ℕ}
    (handle : net.usb.receiveSide.handle = some ⟨id, pending.length, 0, cdcEcmDataFsMaxPacketSize⟩)
    (armed : net.usb.outEp = some ⟨pending.length, cdcEcmDataFsMaxPacketSize⟩)
    (stored : Memory.load net.usb.userRxBuffer 0 pending.length = pending)
    (short : pending.length < cdcEcmEthMaxSegsze) (untold : net.usb.pending.newPacket = false)
    (idle : ¬net.loop.pc.HandlesPacket) (trace : frameTrace net = episodes.flatten)
    (done : List.Forall₂ Episode frames episodes)
    (stepped : usbStep net.usb (.outPacket bytes) = some usb) :
    Phase { net with usb } episodes (collect (frames, pending) (.usb (.outPacket bytes))).1
      (collect (frames, pending) (.usb (.outPacket bytes))).2 := by
  have extended : Memory.load (Memory.store net.usb.userRxBuffer pending.length bytes) 0
      (pending ++ bytes).length = pending ++ bytes := by
    have appended := Memory.load_store_append net.usb.userRxBuffer 0 pending.length bytes
    rw [Nat.zero_add] at appended
    rw [List.length_append, appended]
    exact congrArg (· ++ bytes) stored
  by_cases last : (ReceiveHandle.mk id pending.length 0
      cdcEcmDataFsMaxPacketSize).EndsFrame bytes.length
  · rcases usbStep_outPacket_last stepped handle last with ⟨transfer, armed', fits, shape⟩
    rw [armed] at armed'
    cases armed'
    have room : bytes.length ≤ cdcEcmDataFsMaxPacketSize := fits
    have told : usb.pending = { net.usb.pending with newPacket := true } :=
      congrArg ReceiveSide.pending shape
    simp only [collect, endsFrame_iff.mp last, if_true]
    refine .complete ⟨id, ?_, ?_, ?_⟩ ?_ idle trace done
    · rw [shape, List.length_append]
    · rw [shape]
      exact extended
    · rw [List.length_append]
      omega
    · rw [told]
  · rcases usbStep_outPacket_more stepped handle last with ⟨transfer, armed', -, shape⟩
    rw [armed] at armed'
    cases armed'
    have told : usb.pending = net.usb.pending := congrArg ReceiveSide.pending shape
    have outEp : usb.outEp = some ⟨pending.length + bytes.length, _⟩ :=
      congrArg ReceiveSide.outEp shape
    have buffer : usb.userRxBuffer = _ := congrArg ReceiveSide.buffer shape
    have unclosed := mt endsFrame_iff.mpr last
    simp only [collect, unclosed, Bool.false_eq_true, if_false]
    refine .receiving ⟨id, ?_⟩ ?_ ?_ ?_ ?_ idle trace done
    · rw [shape, List.length_append]
    · rw [List.length_append]
      exact outEp
    · change Memory.load usb.userRxBuffer _ _ = _
      rw [buffer]
      exact extended
    · rw [List.length_append]
      simp only [ReceiveHandle.EndsFrame] at last
      omega
    · rw [told]
      exact untold

theorem Phase.usb_step {net : NetState} {usb : UsbDevice} {event : UsbEvent}
    {episodes : List (List LoopAct)} {got : List (List UInt8) × List UInt8}
    (phase : Phase net episodes got.1 got.2) (inv : Ownership net) (linked : Linked net)
    (stays : Stays (.usb event)) (stepped : usbStep net.usb event = some usb) :
    Phase { net with usb } episodes (collect got (.usb event)).1
      (collect got (.usb event)).2 := by
  cases event with
  | classInit allocated =>
      cases allocated with
      | true => exact phase.classInit_step inv stepped
      | false =>
          have same := usbStep_classInit_failed stepped
          subst same
          exact phase
  | classDeInit => cases stays
  | inPacket => exact phase.congr (usbStep_inPacket_receiveSide stepped)
  | dataIn => exact phase.congr (usbStep_dataIn_receiveSide stepped)
  | outPacket bytes =>
      rcases usbStep_outPacket_armed stepped with ⟨transfer, armed, -, -⟩
      rcases got with ⟨frames, pending⟩
      cases phase with
      | unconfigured missing unarmed untold idle trace =>
          rw [unarmed] at armed
          cases armed
      | receiving handle armed stored short untold idle trace done =>
          rcases handle with ⟨id, handle⟩
          exact Phase.store_step handle armed stored short untold idle trace done stepped
      | complete holds told idle trace done =>
          rw [(inv.packetUnarmed told linked.noDown).2] at armed
          cases armed
      | handling handles doing trace done =>
          rw [(inv.owns.loopOwns handles).unarmed] at armed
          cases armed

/-! ## The loop -/

theorem loopStep_idle {net next : NetState} {results : CallResults}
    (stepped : loopStep results net = some next) (idle : ¬net.loop.pc.HandlesPacket)
    (busy : net.loop.pc ≠ .notifyWait) :
    next.usb = net.usb ∧ next.loop.trace = net.loop.trace ∧ ¬next.loop.pc.HandlesPacket := by
  cases pc : net.loop.pc with
  | notifyWait => exact absurd pc busy
  | setLinkUp flags | setLinkDown flags =>
      rw [pc] at idle
      simp only [loopStep, pc] at stepped
      split at stepped
      · cases stepped
        exact ⟨rfl, rfl, idle⟩
      · cases stepped
        exact ⟨rfl, rfl, idle⟩
  | loadHcdc flags | clearHcdc flags =>
      rw [pc] at idle
      simp only [loopStep, pc] at stepped
      cases stepped
      exact ⟨rfl, rfl, idle⟩
  | newPacket flags =>
      rw [pc] at idle
      simp only [loopStep, pc] at stepped
      split at stepped
      · rename_i set
        exact absurd set idle
      · cases stepped
        exact ⟨rfl, rfl, id⟩
  | fault => simp [loopStep, pc] at stepped
  | _ =>
      rw [pc] at idle
      exact absurd trivial idle

theorem Phase.of_idle {net next : NetState} {episodes : List (List LoopAct)}
    {frames : List (List UInt8)} {pending : List UInt8}
    (phase : Phase net episodes frames pending) (idle : ¬net.loop.pc.HandlesPacket)
    (usb : next.usb = net.usb) (traced : next.loop.trace = net.loop.trace)
    (stillIdle : ¬next.loop.pc.HandlesPacket) : Phase next episodes frames pending := by
  have sameTrace : frameTrace next = frameTrace net := by rw [frameTrace, traced, frameTrace]
  cases phase with
  | unconfigured missing unarmed untold _ trace =>
      exact .unconfigured (usb ▸ missing) (usb ▸ unarmed) (usb ▸ untold) stillIdle
        (sameTrace.trans trace)
  | receiving handle armed stored short untold _ trace done =>
      exact .receiving (usb ▸ handle) (usb ▸ armed) (usb ▸ stored) short (usb ▸ untold) stillIdle
        (sameTrace.trans trace) done
  | complete holds told _ trace done =>
      exact .complete (usb ▸ holds) (usb ▸ told) stillIdle (sameTrace.trans trace) done
  | handling handles => exact absurd handles idle

/-- A wake-up: a complete frame is taken on, anything else changes no phase. -/
theorem Phase.wake {net : NetState} {episodes : List (List LoopAct)}
    {frames : List (List UInt8)} {pending : List UInt8}
    (phase : Phase net episodes frames pending) (idle : ¬net.loop.pc.HandlesPacket) :
    Phase
      { usb := { net.usb with pending := .none }
        loop := net.loop.goto (.setLinkUp net.usb.pending) }
      episodes frames pending := by
  cases phase with
  | unconfigured missing unarmed untold _ trace =>
      refine .unconfigured missing unarmed rfl ?_ trace
      simpa [LoopPc.HandlesPacket, LoopThread.goto] using untold
  | receiving handle armed stored short untold _ trace done =>
      refine .receiving handle armed stored short rfl ?_ trace done
      simpa [LoopPc.HandlesPacket, LoopThread.goto] using untold
  | complete holds told _ trace done =>
      refine .handling told ⟨holds, rfl⟩ ?_ done
      rw [List.append_nil]
      exact trace
  | handling handles => exact absurd handles idle

theorem filter_onFrame_skip (trace : List LoopAct) {act : LoopAct} (skip : act.onFrame = false) :
    (trace ++ [act]).filter LoopAct.onFrame = trace.filter LoopAct.onFrame := by
  simp [skip]

theorem filter_onFrame_keep (trace : List LoopAct) {act : LoopAct} (keep : act.onFrame = true) :
    (trace ++ [act]).filter LoopAct.onFrame = trace.filter LoopAct.onFrame ++ [act] := by
  simp [keep]

theorem HoldsFrame.fields {usb : UsbDevice} {frame : List UInt8} {hcdc : ClassHandle}
    (holds : HoldsFrame usb.receiveSide frame) (present : usb.pClassData = some hcdc) :
    toU16 hcdc.rxLength = frame.length ∧ hcdc.rxLength = frame.length ∧ hcdc.rxState = 1 := by
  rcases holds with ⟨id, handle, -, bound⟩
  simp only [receiveSide, present, Option.map_some, Option.some.injEq] at handle
  have length : hcdc.rxLength = frame.length := congrArg ReceiveHandle.rxLength handle
  refine ⟨?_, length, congrArg ReceiveHandle.rxState handle⟩
  have small : frame.length < 65536 := by
    simp only [cdcEcmEthMaxSegsze, cdcEcmDataFsMaxPacketSize] at bound
    omega
  rw [length, toU16, Nat.mod_eq_of_lt small]

theorem handle_updateHandle {usb : UsbDevice} {hcdc : ReceiveHandle}
    {update : ClassHandle → ClassHandle} (seen : ReceiveHandle → ReceiveHandle)
    (handle : usb.receiveSide.handle = some hcdc)
    (same : ∀ full, (update full).receive = seen full.receive) :
    (usb.updateHandle update).receiveSide.handle = some (seen hcdc) := by
  simp only [receiveSide, Option.map_eq_some_iff] at handle
  rcases handle with ⟨full, present, rfl⟩
  simp [receiveSide, updateHandle, present, same]

section Handling

variable {net next : NetState} {results : CallResults} {episodes : List (List LoopAct)}
  {frames : List (List UInt8)} {last : List UInt8} {acts : List LoopAct}

theorem Phase.testRxLength_step (inv : Ownership net) {pointer : Option HandleId}
    (pc : net.loop.pc = .testRxLength pointer) (holds : HoldsFrame net.usb.receiveSide last)
    (trace : frameTrace net = episodes.flatten ++ []) (done : List.Forall₂ Episode frames episodes)
    (stepped : loopStep results net = some next) : Phase next episodes (frames ++ [last]) [] := by
  have owns := inv.owns
  rw [pc] at owns
  simp only [loopStep, pc, Option.some.injEq] at stepped
  rcases owns with ⟨held, -, loaded⟩
  rcases net.withHandle_of_installed held.installed loaded _ with ⟨hcdc, present, -, through⟩
  rw [through, (holds.fields present).2.1] at stepped
  have skipped : frameTrace next = frameTrace net := by
    subst stepped
    split <;> exact filter_onFrame_skip _ rfl
  split at stepped
  · rename_i nonempty
    subst stepped
    refine .handling trivial ⟨holds, rfl, ?_⟩ (skipped.trans trace) done
    exact List.ne_nil_of_length_pos nonempty
  · rename_i isEmpty
    subst stepped
    refine .handling trivial ⟨holds, ?_⟩ (skipped.trans trace) done
    exact .empty (List.length_eq_zero_iff.mp (Nat.eq_zero_of_not_pos isEmpty))

theorem Phase.pbufAlloc_step (inv : Ownership net) {pointer : Option HandleId}
    (pc : net.loop.pc = .pbufAlloc pointer) (holds : HoldsFrame net.usb.receiveSide last)
    (nonempty : last ≠ []) (trace : frameTrace net = episodes.flatten)
    (done : List.Forall₂ Episode frames episodes) (stepped : loopStep results net = some next) :
    Phase next episodes (frames ++ [last]) [] := by
  have owns := inv.owns
  rw [pc] at owns
  simp only [loopStep, pc, Option.some.injEq] at stepped
  rcases owns with ⟨held, -, loaded⟩
  rcases net.withHandle_of_installed held.installed loaded _ with ⟨hcdc, present, -, through⟩
  rw [through, (holds.fields present).1] at stepped
  have seen : frameTrace (net.record (.access pointer (some hcdc.id))) = episodes.flatten :=
    (filter_onFrame_skip _ rfl).trans trace
  cases pool : results.pool with
  | none =>
      simp only [Net.pbufAlloc, pool, Option.map_none] at stepped
      have rearm : OnlyRearm last [.pbufAlloc last.length false] := .dropped nonempty
      subst stepped
      refine .handling trivial ⟨holds, rearm⟩ ?_ done
      exact (filter_onFrame_keep _ rfl).trans (congrArg (· ++ _) seen)
  | some junk =>
      simp only [Net.pbufAlloc, pool, Option.map_some] at stepped
      subst stepped
      refine .handling trivial ⟨holds, rfl, nonempty, junk, rfl⟩ ?_ done
      exact (filter_onFrame_keep _ rfl).trans (congrArg (· ++ _) seen)

theorem Phase.input_step {junk : ℕ → ℕ → UInt8} (pc : net.loop.pc = .input (inputChain junk last))
    (holds : HoldsFrame net.usb.receiveSide last) (nonempty : last ≠ [])
    (trace : frameTrace net = episodes.flatten ++ [.pbufAlloc last.length true])
    (done : List.Forall₂ Episode frames episodes) (stepped : loopStep results net = some next) :
    Phase next episodes (frames ++ [last]) [] := by
  simp only [loopStep, pc] at stepped
  have given : frameTrace (net.record (.input (chainBytes (inputChain junk last))
      results.inputErr)) = episodes.flatten ++ [.pbufAlloc last.length true,
        .input (chainBytes (inputChain junk last)) results.inputErr] := by
    refine (filter_onFrame_keep _ rfl).trans ?_
    rw [show net.loop.trace.filter LoopAct.onFrame = _ from trace, List.append_assoc]
    rfl
  split at stepped
  · rename_i accepted
    rw [accepted] at stepped given
    cases stepped
    have rearm : OnlyRearm last [.pbufAlloc last.length true,
        .input (chainBytes (inputChain junk last)) 0] := .accepted nonempty junk
    exact .handling trivial ⟨holds, rearm⟩ given done
  · rename_i failed
    cases stepped
    exact .handling trivial ⟨holds, nonempty, junk, _, failed, rfl, rfl⟩ given done

theorem Phase.pbufFree_step {junk : ℕ → ℕ → UInt8} {err : ℤ}
    (pc : net.loop.pc = .pbufFree (inputChain junk last))
    (holds : HoldsFrame net.usb.receiveSide last) (nonempty : last ≠ []) (failed : err ≠ 0)
    (trace : frameTrace net = episodes.flatten ++ [.pbufAlloc last.length true,
      .input (chainBytes (inputChain junk last)) err])
    (done : List.Forall₂ Episode frames episodes) (stepped : loopStep results net = some next) :
    Phase next episodes (frames ++ [last]) [] := by
  simp only [loopStep, pc] at stepped
  cases stepped
  have rearm : OnlyRearm last ([.pbufAlloc last.length true,
      .input (chainBytes (inputChain junk last)) err] ++
        [.pbufFree (chainBytes (inputChain junk last))]) := .refused nonempty junk failed
  refine .handling trivial ⟨holds, rearm⟩ ?_ done
  refine (filter_onFrame_keep _ rfl).trans ?_
  rw [show net.loop.trace.filter LoopAct.onFrame = _ from trace, List.append_assoc]

theorem Phase.prepareReceive_step (inv : Ownership net) (pc : net.loop.pc = .prepareReceive)
    (handle : ∃ id, net.usb.receiveSide.handle = some ⟨id, 0, 0, cdcEcmDataFsMaxPacketSize⟩)
    (rearm : OnlyRearm last acts) (trace : frameTrace net = episodes.flatten ++ acts)
    (done : List.Forall₂ Episode frames episodes) (stepped : loopStep results net = some next) :
    Phase next (episodes ++ [acts ++ [.prepareReceive 0 cdcEcmDataFsMaxPacketSize]])
      (frames ++ [last]) [] := by
  have owns := inv.owns
  rw [pc] at owns
  simp only [loopStep, pc, Option.some.injEq] at stepped
  rcases net.withHandle_of_installed owns.1.installed owns.2 _ with ⟨hcdc, present, -, through⟩
  rw [through] at stepped
  rcases handle with ⟨id, handle⟩
  have fields : hcdc.receive = ⟨id, 0, 0, cdcEcmDataFsMaxPacketSize⟩ := by
    simpa [receiveSide, present] using handle
  have size : hcdc.maxPcktLen = cdcEcmDataFsMaxPacketSize :=
    congrArg ReceiveHandle.maxPcktLen fields
  rw [size] at stepped
  subst stepped
  have handled : List.Forall₂ Episode (frames ++ [last])
      (episodes ++ [acts ++ [.prepareReceive 0 cdcEcmDataFsMaxPacketSize]]) :=
    List.rel_append done (.cons rearm .nil)
  refine .receiving ⟨id, handle⟩ rfl rfl (by decide) owns.1.taken not_false ?_ handled
  have before : (net.loop.trace ++ [LoopAct.access net.loop.hcdc (some hcdc.id)] ++
      [LoopAct.rearm net.usb.outEp.isSome]).filter LoopAct.onFrame = episodes.flatten ++ acts :=
    (filter_onFrame_skip _ rfl).trans ((filter_onFrame_skip _ rfl).trans trace)
  refine (filter_onFrame_keep _ rfl).trans ((congrArg (· ++ _) before).trans ?_)
  simp

/-- One statement of the loop on a frame. -/
theorem Phase.handle_step (inv : Ownership net) (handles : net.loop.pc.HandlesPacket)
    (doing : HandlesAt net.usb.receiveSide last acts net.loop.pc)
    (trace : frameTrace net = episodes.flatten ++ acts)
    (done : List.Forall₂ Episode frames episodes)
    (stepped : loopStep results net = some next) :
    ∃ after, Phase next after (frames ++ [last]) [] := by
  have owns := inv.owns
  cases pc : net.loop.pc with
  | notifyWait | fault =>
      rw [pc] at handles
      cases handles
  | clearHcdc flags =>
      rw [pc] at doing
      cases doing
  | setLinkUp flags =>
      rw [pc] at doing handles
      simp only [loopStep, pc] at stepped
      split at stepped
      · cases stepped
        exact ⟨episodes, .handling handles doing trace done⟩
      · cases stepped
        exact ⟨episodes, .handling handles doing trace done⟩
  | loadHcdc flags =>
      rw [pc] at doing handles
      simp only [loopStep, pc] at stepped
      cases stepped
      exact ⟨episodes, .handling handles doing trace done⟩
  | setLinkDown flags =>
      rw [pc] at doing handles owns
      simp only [loopStep, pc, (owns handles).2.1, Bool.false_eq_true, if_false] at stepped
      cases stepped
      exact ⟨episodes, .handling handles doing trace done⟩
  | newPacket flags =>
      rw [pc] at doing handles
      have set : flags.newPacket = true := handles
      simp only [loopStep, pc, set, if_true] at stepped
      cases stepped
      refine ⟨episodes, .handling trivial doing ?_ done⟩
      exact (filter_onFrame_skip _ rfl).trans trace
  | llInput =>
      rw [pc] at doing
      simp only [loopStep, pc] at stepped
      cases stepped
      exact ⟨episodes, .handling trivial doing trace done⟩
  | testRxLength pointer =>
      rw [pc] at doing
      rcases doing with ⟨holds, rfl⟩
      exact ⟨episodes, Phase.testRxLength_step inv pc holds trace done stepped⟩
  | testRxState pointer =>
      rw [pc] at doing owns
      simp only [loopStep, pc, Option.some.injEq] at stepped
      rcases owns with ⟨held, -, loaded⟩
      rcases net.withHandle_of_installed held.installed loaded _ with
        ⟨hcdc, present, -, through⟩
      rw [through, if_pos (doing.1.fields present).2.2] at stepped
      subst stepped
      refine ⟨episodes, .handling trivial doing ?_ done⟩
      exact (filter_onFrame_skip _ rfl).trans trace
  | pbufAlloc pointer =>
      rw [pc] at doing
      rcases doing with ⟨holds, rfl, nonempty⟩
      rw [List.append_nil] at trace
      exact ⟨episodes, Phase.pbufAlloc_step inv pc holds nonempty trace done stepped⟩
  | copyFrame pointer p =>
      rw [pc] at doing owns
      simp only [loopStep, pc, Option.some.injEq] at stepped
      rcases owns with ⟨held, -, loaded⟩
      rcases net.withHandle_of_installed held.installed loaded _ with
        ⟨hcdc, present, -, through⟩
      rw [through, (doing.1.fields present).1] at stepped
      rcases doing with ⟨holds, rfl, nonempty, junk, rfl⟩
      have copied : Memory.load net.usb.userRxBuffer 0 last.length = last := by
        rcases holds with ⟨id, -, stored, -⟩
        exact stored
      simp only [copied] at stepped
      subst stepped
      refine ⟨episodes, .handling trivial ⟨holds, rfl, nonempty, junk, rfl⟩ ?_ done⟩
      exact (filter_onFrame_skip _ rfl).trans trace
  | setLen pointer p =>
      rw [pc] at doing owns
      simp only [loopStep, pc, Option.some.injEq] at stepped
      rcases owns with ⟨held, -, loaded⟩
      rcases net.withHandle_of_installed held.installed loaded _ with
        ⟨hcdc, present, -, through⟩
      rw [through, (doing.1.fields present).1] at stepped
      rcases doing with ⟨holds, rfl, nonempty, junk, rfl⟩
      subst stepped
      refine ⟨episodes, .handling trivial ⟨holds, rfl, nonempty, junk, rfl⟩ ?_ done⟩
      exact (filter_onFrame_skip _ rfl).trans trace
  | input p =>
      rw [pc] at doing
      rcases doing with ⟨holds, rfl, nonempty, junk, rfl⟩
      exact ⟨episodes, Phase.input_step pc holds nonempty trace done stepped⟩
  | pbufFree p =>
      rw [pc] at doing
      rcases doing with ⟨holds, nonempty, junk, err, failed, rfl, rfl⟩
      exact ⟨episodes, Phase.pbufFree_step pc holds nonempty failed trace done stepped⟩
  | unlockCore =>
      rw [pc] at doing
      simp only [loopStep, pc] at stepped
      cases stepped
      refine ⟨episodes, .handling trivial doing ?_ done⟩
      exact (filter_onFrame_skip _ rfl).trans trace
  | resetRxLength =>
      rw [pc] at doing owns
      simp only [loopStep, pc, Option.some.injEq] at stepped
      rcases net.withHandle_of_installed owns.1.installed owns.2 _ with
        ⟨hcdc, present, -, through⟩
      rw [through] at stepped
      rcases doing with ⟨⟨id, handle, -, -⟩, rearm⟩
      have reset : ((net.usb.updateHandle fun hcdc =>
          { hcdc with rxLength := 0 }).receiveSide).handle =
            some ⟨id, 0, 1, cdcEcmDataFsMaxPacketSize⟩ := by
        apply handle_updateHandle (fun hcdc => { hcdc with rxLength := 0 }) handle
        intro _
        rfl
      subst stepped
      refine ⟨episodes, .handling trivial ⟨⟨id, reset⟩, rearm⟩ ?_ done⟩
      exact (filter_onFrame_skip _ rfl).trans ((filter_onFrame_skip _ rfl).trans trace)
  | resetRxState =>
      rw [pc] at doing owns
      simp only [loopStep, pc, Option.some.injEq] at stepped
      rcases net.withHandle_of_installed owns.1.installed owns.2 _ with
        ⟨hcdc, present, -, through⟩
      rw [through] at stepped
      rcases doing with ⟨⟨id, handle⟩, rearm⟩
      have reset : ((net.usb.updateHandle fun hcdc =>
          { hcdc with rxState := 0 }).receiveSide).handle =
            some ⟨id, 0, 0, cdcEcmDataFsMaxPacketSize⟩ := by
        apply handle_updateHandle (fun hcdc => { hcdc with rxState := 0 }) handle
        intro _
        rfl
      subst stepped
      refine ⟨episodes, .handling trivial ⟨⟨id, reset⟩, rearm⟩ ?_ done⟩
      exact (filter_onFrame_skip _ rfl).trans ((filter_onFrame_skip _ rfl).trans trace)
  | prepareReceive =>
      rw [pc] at doing
      exact ⟨_, Phase.prepareReceive_step inv pc doing.1 doing.2 trace done stepped⟩

end Handling

theorem Phase.loop_step {net next : NetState} {results : CallResults}
    {episodes : List (List LoopAct)} {frames : List (List UInt8)} {pending : List UInt8}
    (phase : Phase net episodes frames pending) (inv : Ownership net)
    (stepped : loopStep results net = some next) : ∃ after, Phase next after frames pending := by
  by_cases handles : net.loop.pc.HandlesPacket
  · cases phase with
    | unconfigured _ _ _ idle | receiving _ _ _ _ _ idle | complete _ _ idle =>
        exact absurd handles idle
    | handling _ doing trace done => exact Phase.handle_step inv handles doing trace done stepped
  · by_cases waiting : net.loop.pc = .notifyWait
    · simp only [loopStep, waiting] at stepped
      split at stepped
      · cases stepped
        exact ⟨episodes, phase.wake handles⟩
      · cases stepped
    · rcases loopStep_idle stepped handles waiting with ⟨usb, traced, stillIdle⟩
      exact ⟨episodes, phase.of_idle handles usb traced stillIdle⟩

/-! ## Runs -/

/-- What holds at the end of every run of a session. -/
structure InSession (past : List NetEvent) (net : NetState) : Prop where
  ownership : Ownership net
  linked : Linked net
  phase : ∃ episodes, Phase net episodes (received past).1 (received past).2

theorem InSession.init : InSession [] netInit :=
  ⟨Ownership.init, Linked.init, [], .unconfigured rfl rfl rfl id rfl⟩

theorem InSession.step {past : List NetEvent} {net next : NetState} {event : NetEvent}
    (session : InSession past net) (stays : Stays event) (stepped : netStep net event = some next) :
    InSession (past ++ [event]) next := by
  have owned := session.ownership.step (session.linked.keepsHandle stays) stepped
  rcases session.phase with ⟨episodes, phase⟩
  rcases netStep_cases stepped with ⟨usbEvent, usb, rfl, steppedUsb, rfl⟩ | ⟨results, rfl, looped⟩
  · refine ⟨owned, session.linked.usb_step stays steppedUsb, episodes, ?_⟩
    rw [received_concat]
    exact phase.usb_step session.ownership session.linked stays steppedUsb
  · refine ⟨owned, session.linked.loop_step looped, ?_⟩
    rw [received_concat]
    exact phase.loop_step session.ownership looped

theorem InSession.of_run {events : List NetEvent} {net : NetState}
    (ran : netSystem.run events = some net) (stays : ∀ event ∈ events, Stays event) :
    InSession events net := by
  refine System.history_invariant_along ?_ InSession.init ran
    (System.along_of_forall netInit stays)
  intro past current event next _ session stays stepped
  exact session.step stays stepped

end MqttAccelero.Net
