import MqttAccelero.Net.EventLoop

/-!
# Who owns the class handle and the receive buffer

Between a NEW_PACKET wake-up and `USBD_LL_PrepareReceive` the loop works on the
class handle without asking whether it is still there. This file proves that
every access is valid in the runs whose steps meet `KeepsHandle`: no DeInit
interrupts the handling of a packet, and no packet is handled in a wake-up which
clears the loop's own pointer or leaves it behind.

Within such a run the handle and the receive buffer belong to the loop while it
handles a packet, and to the interrupt otherwise.
-/

namespace MqttAccelero.Net

open Usb UsbDevice

/-- The access goes through the installed handle; the reset does not hit an armed endpoint. -/
def LoopAct.Valid : LoopAct → Prop
  | .access pointer installed => pointer ≠ none ∧ pointer = installed
  | .rearm armed => armed = false
  | _ => True

instance : DecidablePred LoopAct.Valid
  | .access _ _ => inferInstanceAs (Decidable (_ ∧ _))
  | .rearm armed => inferInstanceAs (Decidable (armed = false))
  | .lock | .unlock | .pbufAlloc _ _ | .input _ _ | .pbufFree _ | .prepareReceive _ _ =>
      inferInstanceAs (Decidable True)

/-- The loop has returned from a wait with NEW_PACKET and has not re-armed the endpoint yet. -/
def LoopPc.HandlesPacket : LoopPc → Prop
  | .notifyWait | .fault => False
  | .setLinkUp flags | .loadHcdc flags | .setLinkDown flags | .clearHcdc flags
  | .newPacket flags => flags.newPacket = true
  | .llInput | .testRxLength _ | .testRxState _ | .pbufAlloc _ | .copyFrame _ _ | .setLen _ _
  | .input _ | .pbufFree _ | .unlockCore | .resetRxLength | .resetRxState
  | .prepareReceive => True

/--
What a step must meet for the handle to stay valid. A wake-up with NEW_PACKET
brings no LINK_DOWN, and either brings LINK_UP or finds the loop's pointer
current; DeInit does not fire while a packet is handled.
-/
def KeepsHandle (net : NetState) : NetEvent → Prop
  | .loop _ => net.loop.pc.waits = true → net.usb.pending.newPacket = true →
      net.usb.pending.linkDown = false ∧
        (net.usb.pending.linkUp = true ∨ net.loop.hcdc = net.usb.installed)
  | .usb .classDeInit => ¬net.loop.pc.HandlesPacket
  | .usb _ => True

instance : DecidablePred LoopPc.HandlesPacket
  | .notifyWait | .fault => inferInstanceAs (Decidable False)
  | .setLinkUp flags | .loadHcdc flags | .setLinkDown flags | .clearHcdc flags
  | .newPacket flags => inferInstanceAs (Decidable (flags.newPacket = true))
  | .llInput | .testRxLength _ | .testRxState _ | .pbufAlloc _ | .copyFrame _ _ | .setLen _ _
  | .input _ | .pbufFree _ | .unlockCore | .resetRxLength | .resetRxState
  | .prepareReceive => inferInstanceAs (Decidable True)

instance (net : NetState) : ∀ event, Decidable (KeepsHandle net event)
  | .loop _ => inferInstanceAs (Decidable (_ → _ → _))
  | .usb .classDeInit => inferInstanceAs (Decidable ¬_)
  | .usb (.classInit _) | .usb (.outPacket _) | .usb .inPacket | .usb .dataIn =>
      inferInstanceAs (Decidable True)

/-- The handle is installed, and neither DataOut nor another hand-over can happen. -/
structure LoopOwns (usb : UsbDevice) : Prop where
  installed : usb.installed ≠ none
  unarmed : usb.outEp = none
  taken : usb.pending.newPacket = false

/-- What holds at each statement of the loop. -/
def OwnsAt (net : NetState) : LoopPc → Prop
  | .notifyWait => True
  | .setLinkUp flags => flags.newPacket = true → LoopOwns net.usb ∧ flags.linkDown = false ∧
      (flags.linkUp = true ∨ net.loop.hcdc = net.usb.installed)
  | .loadHcdc flags => flags.newPacket = true → LoopOwns net.usb ∧ flags.linkDown = false
  | .setLinkDown flags => flags.newPacket = true → LoopOwns net.usb ∧ flags.linkDown = false ∧
      net.loop.hcdc = net.usb.installed
  | .clearHcdc flags => flags.newPacket = false
  | .newPacket flags => flags.newPacket = true → LoopOwns net.usb ∧
      net.loop.hcdc = net.usb.installed
  | .testRxLength hcdc | .testRxState hcdc | .pbufAlloc hcdc | .copyFrame hcdc _
  | .setLen hcdc _ => LoopOwns net.usb ∧ net.loop.hcdc = net.usb.installed ∧
      hcdc = net.usb.installed
  | .llInput | .input _ | .pbufFree _ | .unlockCore | .resetRxLength | .resetRxState
  | .prepareReceive => LoopOwns net.usb ∧ net.loop.hcdc = net.usb.installed
  | .fault => False

structure Ownership (net : NetState) : Prop where
  upInstalled : net.usb.pending.linkUp = true → net.usb.pending.linkDown = false →
    net.usb.installed ≠ none
  packetUnarmed : net.usb.pending.newPacket = true → net.usb.pending.linkDown = false →
    net.usb.installed ≠ none ∧ net.usb.outEp = none
  owns : OwnsAt net net.loop.pc
  valid : ∀ act ∈ net.loop.trace, act.Valid

theorem OwnsAt.loopOwns {net : NetState} {pc : LoopPc} (owns : OwnsAt net pc)
    (handles : pc.HandlesPacket) : LoopOwns net.usb := by
  cases pc with
  | notifyWait | fault => cases handles
  | setLinkUp flags | loadHcdc flags | setLinkDown flags | newPacket flags =>
      exact (owns handles).1
  | clearHcdc flags =>
      have plain : flags.newPacket = false := owns
      simp [LoopPc.HandlesPacket, plain] at handles
  | _ => exact owns.1

/-- Away from packets, what the loop does is independent of the USB side. -/
theorem OwnsAt.of_not_handles {net next : NetState} {pc : LoopPc} (owns : OwnsAt net pc)
    (idle : ¬pc.HandlesPacket) : OwnsAt next pc := by
  cases pc with
  | notifyWait => trivial
  | fault => cases owns
  | setLinkUp flags | loadHcdc flags | setLinkDown flags | newPacket flags =>
      exact fun set => absurd set idle
  | clearHcdc flags => simpa [LoopPc.HandlesPacket, OwnsAt] using idle
  | _ => exact absurd trivial idle

/-! ## The USB side -/

theorem LoopOwns.congr {usb next : UsbDevice} (owns : LoopOwns usb)
    (same : next.receiveSide = usb.receiveSide) : LoopOwns next := by
  have sameEp : next.outEp = usb.outEp := congrArg ReceiveSide.outEp same
  have samePending : next.pending = usb.pending := congrArg ReceiveSide.pending same
  refine ⟨?_, sameEp ▸ owns.unarmed, samePending ▸ owns.taken⟩
  rw [installed_eq_receiveSide, same, ← installed_eq_receiveSide]
  exact owns.installed

/-- While the loop owns the buffer, only DeInit changes the receive side. -/
theorem LoopOwns.receiveSide_usbStep {usb next : UsbDevice} {event : UsbEvent}
    (owns : LoopOwns usb) (stepped : usbStep usb event = some next)
    (stays : event ≠ .classDeInit) : next.receiveSide = usb.receiveSide := by
  cases event with
  | classInit allocated =>
      cases allocated with
      | true =>
          have free := (usbStep_classInit stepped).1
          exact absurd (installed_eq_none_iff.mpr free) owns.installed
      | false => rw [usbStep_classInit_failed stepped]
  | classDeInit => exact absurd rfl stays
  | outPacket bytes =>
      rcases usbStep_outPacket_armed stepped with ⟨transfer, armed, -, -⟩
      rw [owns.unarmed] at armed
      cases armed
  | inPacket => exact usbStep_inPacket_receiveSide stepped
  | dataIn => exact usbStep_dataIn_receiveSide stepped

theorem OwnsAt.congr {net : NetState} {usb : UsbDevice} {pc : LoopPc} (owns : OwnsAt net pc)
    (same : usb.receiveSide = net.usb.receiveSide) : OwnsAt { net with usb } pc := by
  have sameHandle := installed_congr same
  cases pc with
  | notifyWait => trivial
  | fault => cases owns
  | setLinkUp flags | setLinkDown flags | newPacket flags =>
      intro set
      have held := owns set
      simp only [sameHandle]
      exact ⟨held.1.congr same, held.2⟩
  | loadHcdc flags => exact fun set => ⟨(owns set).1.congr same, (owns set).2⟩
  | clearHcdc flags => exact owns
  | _ =>
      simp only [OwnsAt, sameHandle] at owns ⊢
      exact ⟨owns.1.congr same, owns.2⟩

theorem Ownership.congr {net : NetState} {usb : UsbDevice} (inv : Ownership net)
    (same : usb.receiveSide = net.usb.receiveSide) : Ownership { net with usb } := by
  have sameHandle := installed_congr same
  have sameEp : usb.outEp = net.usb.outEp := congrArg ReceiveSide.outEp same
  have samePending : usb.pending = net.usb.pending := congrArg ReceiveSide.pending same
  refine ⟨?_, ?_, inv.owns.congr same, inv.valid⟩
  · simpa only [sameHandle, samePending] using inv.upInstalled
  · simpa only [sameHandle, sameEp, samePending] using inv.packetUnarmed

theorem Ownership.classInit_step {net : NetState} {usb : UsbDevice} (inv : Ownership net)
    (idle : ¬net.loop.pc.HandlesPacket) (stepped : usbStep net.usb (.classInit true) = some usb) :
    Ownership { net with usb } := by
  rcases usbStep_classInit stepped with ⟨free, shape⟩
  have present : usb.installed ≠ none := by
    rw [installed_eq_receiveSide, shape]
    simp
  have pendingAfter : usb.pending = { net.usb.pending with linkUp := true } :=
    congrArg ReceiveSide.pending shape
  refine ⟨fun _ _ => present, ?_, inv.owns.of_not_handles idle, inv.valid⟩
  intro set undropped
  simp only [pendingAfter] at set undropped
  exact absurd (installed_eq_none_iff.mpr free) (inv.packetUnarmed set undropped).1

/-- A packet arrives only where no hand-over is pending, LINK_DOWN apart. -/
theorem Ownership.outPacket_step {net : NetState} {usb : UsbDevice} {bytes : List UInt8}
    (inv : Ownership net) (idle : ¬net.loop.pc.HandlesPacket)
    (stepped : usbStep net.usb (.outPacket bytes) = some usb) : Ownership { net with usb } := by
  have ownsAfter : OwnsAt { net with usb } net.loop.pc := inv.owns.of_not_handles idle
  have unowned : ¬(net.usb.pending.newPacket = true ∧ net.usb.pending.linkDown = false) := by
    rintro ⟨set, undropped⟩
    rcases usbStep_outPacket_armed stepped with ⟨transfer, armed, -, -⟩
    rw [(inv.packetUnarmed set undropped).2] at armed
    cases armed
  cases handle : net.usb.receiveSide.handle with
  | none =>
      rcases usbStep_outPacket_dropped stepped handle with ⟨transfer, -, -, shape⟩
      have pendingAfter : usb.pending = net.usb.pending := congrArg ReceiveSide.pending shape
      refine ⟨fun set undropped => ?_, fun set undropped => ?_, ownsAfter, inv.valid⟩
      · simp only [pendingAfter] at set undropped
        exact absurd (installed_eq_none_iff.mpr handle) (inv.upInstalled set undropped)
      · simp only [pendingAfter] at set undropped
        exact absurd ⟨set, undropped⟩ unowned
  | some hcdc =>
      by_cases last : hcdc.EndsFrame bytes.length
      · rcases usbStep_outPacket_last stepped handle last with ⟨transfer, -, -, shape⟩
        have present : usb.installed ≠ none := by
          rw [installed_eq_receiveSide, shape]
          simp
        have unarmed : usb.outEp = none := congrArg ReceiveSide.outEp shape
        exact ⟨fun _ _ => present, fun _ _ => ⟨present, unarmed⟩, ownsAfter, inv.valid⟩
      · rcases usbStep_outPacket_more stepped handle last with ⟨transfer, -, -, shape⟩
        have present : usb.installed ≠ none := by
          rw [installed_eq_receiveSide, shape]
          simp
        have pendingAfter : usb.pending = net.usb.pending := congrArg ReceiveSide.pending shape
        refine ⟨fun _ _ => present, fun set undropped => ?_, ownsAfter, inv.valid⟩
        simp only [pendingAfter] at set undropped
        exact absurd ⟨set, undropped⟩ unowned

theorem Ownership.usb_step {net : NetState} {usb : UsbDevice} {event : UsbEvent}
    (inv : Ownership net) (keeps : KeepsHandle net (.usb event))
    (stepped : usbStep net.usb event = some usb) : Ownership { net with usb } := by
  by_cases handles : net.loop.pc.HandlesPacket
  · have stays : event ≠ .classDeInit := by
      rintro rfl
      exact keeps handles
    exact inv.congr ((inv.owns.loopOwns handles).receiveSide_usbStep stepped stays)
  · cases event with
    | classInit allocated =>
        cases allocated with
        | true => exact inv.classInit_step handles stepped
        | false =>
            have same := usbStep_classInit_failed stepped
            subst same
            exact inv
    | classDeInit =>
        have shape := (usbStep_classDeInit stepped).2
        have dropped : usb.pending.linkDown = true := by
          have pendingAfter := congrArg ReceiveSide.pending shape
          simp only [receiveSide] at pendingAfter
          rw [pendingAfter]
        refine ⟨fun _ undropped => ?_, fun _ undropped => ?_,
          inv.owns.of_not_handles handles, inv.valid⟩
        · simp [dropped] at undropped
        · simp [dropped] at undropped
    | outPacket bytes => exact inv.outPacket_step handles stepped
    | inPacket => exact inv.congr (usbStep_inPacket_receiveSide stepped)
    | dataIn => exact inv.congr (usbStep_dataIn_receiveSide stepped)

/-! ## The loop -/

theorem Ownership.withLoop {net : NetState} (inv : Ownership net) {loop : LoopThread}
    (owns : OwnsAt { net with loop } loop.pc) (valid : ∀ act ∈ loop.trace, act.Valid) :
    Ownership { net with loop } :=
  ⟨inv.upInstalled, inv.packetUnarmed, owns, valid⟩

theorem valid_concat {trace : List LoopAct} (before : ∀ act ∈ trace, act.Valid) {new : LoopAct}
    (valid : new.Valid) : ∀ act ∈ trace ++ [new], act.Valid := by
  intro act member
  rcases List.mem_append.mp member with old | recent
  · exact before act old
  · rw [List.mem_singleton.mp recent]
    exact valid

theorem valid_access {pointer : Option HandleId} {hcdc : ClassHandle}
    (same : pointer = some hcdc.id) : (LoopAct.access pointer (some hcdc.id)).Valid := by
  refine ⟨?_, same⟩
  rw [same]
  exact Option.some_ne_none _

theorem LoopOwns.valid_rearm {usb : UsbDevice} (owns : LoopOwns usb) :
    (LoopAct.rearm usb.outEp.isSome).Valid := by
  change usb.outEp.isSome = false
  rw [owns.unarmed]
  rfl

theorem Ownership.release {net : NetState} (owns : LoopOwns net.usb)
    {usb : UsbDevice} {loop : LoopThread} (handle : usb.installed = net.usb.installed)
    (pending : usb.pending = net.usb.pending) (waiting : loop.pc = .notifyWait)
    (valid : ∀ act ∈ loop.trace, act.Valid) : Ownership ⟨usb, loop⟩ := by
  refine ⟨?_, ?_, ?_, valid⟩
  · intro _ _
    exact handle ▸ owns.installed
  · intro set _
    have untaken : net.usb.pending.newPacket = true := pending ▸ set
    rw [owns.taken] at untaken
    cases untaken
  · change OwnsAt _ loop.pc
    rw [waiting]
    trivial

theorem Ownership.reset {net : NetState} (inv : Ownership net) (owns : LoopOwns net.usb)
    (current : net.loop.hcdc = net.usb.installed) {update : ClassHandle → ClassHandle}
    (sameId : ∀ hcdc, (update hcdc).id = hcdc.id) {pc : LoopPc}
    (next : pc = .resetRxState ∨ pc = .prepareReceive) {hcdc : ClassHandle}
    (same : net.loop.hcdc = some hcdc.id) :
    Ownership
      ({ (net.record (.access net.loop.hcdc (some hcdc.id))).recordRearm with
        usb := net.usb.updateHandle update }.goto pc) := by
  have sameHandle := installed_updateHandle net.usb sameId
  have after : LoopOwns (net.usb.updateHandle update) :=
    ⟨sameHandle ▸ owns.installed, owns.unarmed, owns.taken⟩
  refine ⟨fun _ _ => after.installed, fun _ _ => ⟨after.installed, after.unarmed⟩, ?_,
    valid_concat (valid_concat inv.valid (valid_access same)) owns.valid_rearm⟩
  rcases next with rfl | rfl
  · exact ⟨after, current.trans sameHandle.symm⟩
  · exact ⟨after, current.trans sameHandle.symm⟩

/-- Through a current pointer a statement goes on as written, having made a valid access. -/
theorem Ownership.access {net : NetState} (inv : Ownership net) (held : LoopOwns net.usb)
    {pointer : Option HandleId} (current : pointer = net.usb.installed)
    {body : ClassHandle → NetState → NetState}
    (goesOn : ∀ hcdc, pointer = some hcdc.id →
      (∀ act ∈ net.loop.trace ++ [.access pointer (some hcdc.id)], act.Valid) →
      Ownership (body hcdc (net.record (.access pointer (some hcdc.id))))) :
    Ownership (net.withHandle pointer body) := by
  rcases net.withHandle_of_installed held.installed current body with ⟨hcdc, -, same, through⟩
  rw [through]
  exact goesOn hcdc same (valid_concat inv.valid (valid_access same))

theorem Ownership.wake {net : NetState} (inv : Ownership net) {results : CallResults}
    (keeps : KeepsHandle net (.loop results)) (waiting : net.loop.pc.waits = true) :
    Ownership
      { usb := { net.usb with pending := .none }
        loop := net.loop.goto (.setLinkUp net.usb.pending) } := by
  refine ⟨?_, ?_, ?_, inv.valid⟩
  · intro set
    cases set
  · intro set
    cases set
  · intro set
    rcases keeps waiting set with ⟨undropped, current⟩
    rcases inv.packetUnarmed set undropped with ⟨present, unarmed⟩
    exact ⟨⟨present, unarmed, rfl⟩, undropped, current⟩

/-- The loop keeps the invariant; the handling of a packet starts with a current pointer. -/
theorem Ownership.loop_step {net next : NetState} {results : CallResults} (inv : Ownership net)
    (keeps : KeepsHandle net (.loop results)) (stepped : loopStep results net = some next) :
    Ownership next := by
  have owns := inv.owns
  cases pc : net.loop.pc with
  | notifyWait =>
      simp only [loopStep, pc] at stepped
      split at stepped
      · cases stepped
        have waiting : net.loop.pc.waits = true := by rw [pc]; rfl
        exact inv.wake keeps waiting
      · cases stepped
  | setLinkUp flags =>
      simp only [loopStep, pc] at stepped
      rw [pc] at owns
      split at stepped
      · cases stepped
        exact inv.withLoop (fun set => ⟨(owns set).1, (owns set).2.1⟩) inv.valid
      · rename_i noUp
        cases stepped
        refine inv.withLoop (fun set => ?_) inv.valid
        rcases owns set with ⟨held, undropped, up | current⟩
        · exact absurd up noUp
        · exact ⟨held, undropped, current⟩
  | loadHcdc flags =>
      simp only [loopStep, pc] at stepped
      rw [pc] at owns
      cases stepped
      exact inv.withLoop (fun set => ⟨(owns set).1, (owns set).2, rfl⟩) inv.valid
  | setLinkDown flags =>
      simp only [loopStep, pc] at stepped
      rw [pc] at owns
      split at stepped
      · rename_i down
        cases stepped
        refine inv.withLoop ?_ inv.valid
        change flags.newPacket = false
        by_contra set
        have undropped := (owns (by simpa using set)).2.1
        rw [down] at undropped
        cases undropped
      · cases stepped
        exact inv.withLoop (fun set => ⟨(owns set).1, (owns set).2.2⟩) inv.valid
  | clearHcdc flags =>
      simp only [loopStep, pc] at stepped
      rw [pc] at owns
      cases stepped
      refine inv.withLoop (fun set => ?_) inv.valid
      have plain : flags.newPacket = false := owns
      rw [plain] at set
      cases set
  | newPacket flags =>
      simp only [loopStep, pc] at stepped
      rw [pc] at owns
      split at stepped
      · rename_i set
        cases stepped
        exact inv.withLoop (owns set) (valid_concat inv.valid trivial)
      · cases stepped
        exact inv.withLoop trivial inv.valid
  | llInput =>
      simp only [loopStep, pc] at stepped
      rw [pc] at owns
      cases stepped
      exact inv.withLoop ⟨owns.1, owns.2, rfl⟩ inv.valid
  | testRxLength pointer | testRxState pointer =>
      simp only [loopStep, pc, Option.some.injEq] at stepped
      rw [pc] at owns
      subst stepped
      rcases owns with ⟨held, current, loaded⟩
      apply inv.access held loaded
      intro hcdc _ valid
      split
      · exact inv.withLoop ⟨held, current, loaded⟩ valid
      · exact inv.withLoop ⟨held, current⟩ valid
  | pbufAlloc pointer =>
      simp only [loopStep, pc, Option.some.injEq] at stepped
      rw [pc] at owns
      subst stepped
      rcases owns with ⟨held, current, loaded⟩
      apply inv.access held loaded
      intro hcdc _ valid
      split
      · exact inv.withLoop ⟨held, current⟩ (valid_concat valid trivial)
      · exact inv.withLoop ⟨held, current, loaded⟩ (valid_concat valid trivial)
  | copyFrame pointer p =>
      simp only [loopStep, pc, Option.some.injEq] at stepped
      rw [pc] at owns
      subst stepped
      rcases owns with ⟨held, current, loaded⟩
      apply inv.access held loaded
      intro hcdc _ valid
      exact inv.withLoop ⟨held, current, loaded⟩ valid
  | setLen pointer p =>
      simp only [loopStep, pc, Option.some.injEq] at stepped
      rw [pc] at owns
      subst stepped
      rcases owns with ⟨held, current, loaded⟩
      apply inv.access held loaded
      intro hcdc _ valid
      exact inv.withLoop ⟨held, current⟩ valid
  | input p =>
      simp only [loopStep, pc] at stepped
      rw [pc] at owns
      split at stepped
      · cases stepped
        exact inv.withLoop owns (valid_concat inv.valid trivial)
      · cases stepped
        exact inv.withLoop owns (valid_concat inv.valid trivial)
  | pbufFree p | unlockCore =>
      simp only [loopStep, pc] at stepped
      rw [pc] at owns
      cases stepped
      exact inv.withLoop owns (valid_concat inv.valid trivial)
  | resetRxLength | resetRxState =>
      simp only [loopStep, pc, Option.some.injEq] at stepped
      rw [pc] at owns
      subst stepped
      rcases owns with ⟨held, current⟩
      apply inv.access held current
      intro hcdc same _
      apply inv.reset held current _ _ same
      · intro _
        rfl
      · simp
  | prepareReceive =>
      simp only [loopStep, pc, Option.some.injEq] at stepped
      rw [pc] at owns
      subst stepped
      rcases owns with ⟨held, current⟩
      apply inv.access held current
      intro hcdc _ valid
      apply Ownership.release held
      · rfl
      · rfl
      · rfl
      · exact valid_concat (valid_concat valid held.valid_rearm) trivial
  | fault =>
      rw [pc] at owns
      cases owns

theorem Ownership.init : Ownership netInit := by
  refine ⟨?_, ?_, trivial, ?_⟩
  · intro set
    cases set
  · intro set
    cases set
  · intro act member
    cases member

theorem Ownership.step {net next : NetState} {event : NetEvent} (inv : Ownership net)
    (keeps : KeepsHandle net event) (stepped : netStep net event = some next) :
    Ownership next := by
  rcases netStep_cases stepped with ⟨usbEvent, usb, rfl, steppedUsb, rfl⟩ | ⟨results, rfl, looped⟩
  · exact inv.usb_step keeps steppedUsb
  · exact inv.loop_step keeps looped

theorem Ownership.of_run {events : List NetEvent} {net : NetState}
    (ran : netSystem.run events = some net)
    (keeps : netSystem.Along KeepsHandle netInit events) : Ownership net := by
  refine System.invariant_along Ownership ?_ Ownership.init ran keeps
  intro current event next inv kept stepped
  exact inv.step kept stepped

/--
In every run whose steps keep the handle, each access of the loop goes through
the handle installed at that moment, and no reset or re-arm hits an armed
endpoint.
-/
theorem loop_accesses_valid {events : List NetEvent} {net : NetState}
    (ran : netSystem.run events = some net)
    (keeps : netSystem.Along KeepsHandle netInit events) :
    ∀ act ∈ net.loop.trace, act.Valid :=
  (Ownership.of_run ran keeps).valid

/-- A one-byte frame is received; DeInit fires while the loop holds the core lock. -/
def deInitUnderLock : List NetEvent :=
  [.usb (.classInit true), .usb (.outPacket [0])] ++ loopSteps 5 ++ [.usb .classDeInit] ++
    loopSteps 2

theorem loop_accesses_valid_violated :
    ¬∀ events net, netSystem.run events = some net → ∀ act ∈ net.loop.trace, act.Valid := by
  intro valid
  have ran : ((netSystem.run deInitUnderLock).map fun net => net.loop.trace) =
      some [.lock, .access none none] := by decide
  rcases Option.map_eq_some_iff.mp ran with ⟨net, reached, trace⟩
  have invalid := valid _ _ reached (.access none none) (by simp [trace])
  exact invalid.1 rfl

theorem loop_accesses_valid_first_frame :
    netSystem.Along KeepsHandle netInit firstFrame ∧
      ∀ act ∈ (netSystem.final firstFrame (by decide)).loop.trace, act.Valid :=
  ⟨by decide, loop_accesses_valid (System.run_final (by decide)) (by decide)⟩

end MqttAccelero.Net
