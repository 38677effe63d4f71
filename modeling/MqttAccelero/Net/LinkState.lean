import MqttAccelero.Net.EventLoop

/-!
# The link state after the last link event

The loop handles LINK_UP before LINK_DOWN whatever order the bits were raised
in. A class Init raised while LINK_DOWN is still pending is therefore undone by
the older DeInit, in the same wake-up. This file proves that the loop settles on
the last link event in every other case.
-/

namespace MqttAccelero.Net

open Usb UsbDevice

def NetEvent.changesLink : NetEvent → Bool
  | .usb event => event.changesLink
  | .loop _ => false

/-- The link flag and the loop's pointer say what the link event says. -/
def Agrees (net : NetState) : UsbEvent → Prop
  | .classInit _ => net.loop.linkUp = true ∧ net.loop.hcdc = net.usb.installed
  | .classDeInit => net.loop.linkUp = false ∧ net.loop.hcdc = none
  | _ => True

def Settled (up : Bool) (net : NetState) : Prop :=
  net.loop.linkUp = up ∧ net.loop.hcdc = if up then net.usb.installed else none

/-- The link bits are taken, and the rest of the wake-up settles the link. -/
def SettlesAt (up : Bool) (net : NetState) : LoopPc → Prop
  | .setLinkUp flags => (flags.linkDown = !up ∧ (up = true → flags.linkUp = true)) ∨
      (flags.linkUp = false ∧ flags.linkDown = false ∧ Settled up net)
  | .loadHcdc flags => flags.linkDown = !up ∧ (up = true → net.loop.linkUp = true)
  | .setLinkDown flags => (flags.linkDown = true ∧ up = false) ∨
      (flags.linkDown = false ∧ Settled up net)
  | .clearHcdc _ => up = false ∧ net.loop.linkUp = false
  | .fault => True
  | _ => Settled up net

/-- The link event is still pending, or the wake-up which took it settles the link. -/
def Settling (up : Bool) (net : NetState) : Prop :=
  (net.usb.pending.linkDown = !up ∧ (up = true → net.usb.pending.linkUp = true)) ∨
    (net.usb.pending.linkUp = false ∧ net.usb.pending.linkDown = false ∧
      SettlesAt up net net.loop.pc)

theorem SettlesAt.of_onPacket {up : Bool} {net : NetState} {pc : LoopPc}
    (settled : Settled up net) (onPacket : pc.onPacket = true) : SettlesAt up net pc := by
  cases pc with
  | notifyWait | setLinkUp flags | loadHcdc flags | setLinkDown flags | clearHcdc flags
  | newPacket flags | fault => cases onPacket
  | _ => exact settled

theorem SettlesAt.settled {up : Bool} {net : NetState} {pc : LoopPc}
    (settles : SettlesAt up net pc) (onPacket : pc.onPacket = true) : Settled up net := by
  cases pc with
  | notifyWait | setLinkUp flags | loadHcdc flags | setLinkDown flags | clearHcdc flags
  | newPacket flags | fault => cases onPacket
  | _ => exact settles

theorem SettlesAt.congr {up : Bool} {net next : NetState} {pc : LoopPc}
    (settles : SettlesAt up net pc) (installed : next.usb.installed = net.usb.installed)
    (linkUp : next.loop.linkUp = net.loop.linkUp) (hcdc : next.loop.hcdc = net.loop.hcdc) :
    SettlesAt up next pc := by
  have settled : Settled up next ↔ Settled up net := by
    unfold Settled
    rw [installed, linkUp, hcdc]
  cases pc <;> simp only [SettlesAt, settled, linkUp] at settles ⊢ <;> exact settles

theorem Settling.usb_step {up : Bool} {net : NetState} {usb : UsbDevice} {event : UsbEvent}
    (settling : Settling up net) (stepped : usbStep net.usb event = some usb)
    (plain : event.changesLink = false) : Settling up { net with usb } := by
  rcases usbStep_keepsLink stepped plain with ⟨installed, linkUp, linkDown⟩
  rcases settling with ⟨down, raised⟩ | ⟨noUp, noDown, settles⟩
  · left
    refine ⟨linkDown.trans down, fun isUp => ?_⟩
    exact linkUp.trans (raised isUp)
  · right
    exact ⟨linkUp.trans noUp, linkDown.trans noDown, settles.congr installed rfl rfl⟩

theorem loopStep_pending {net next : NetState} {results : CallResults}
    (stepped : loopStep results net = some next) (busy : net.loop.pc ≠ .notifyWait) :
    next.usb.pending = net.usb.pending := by
  by_cases onPacket : net.loop.pc.onPacket = true
  · exact (loopStep_onPacket stepped onPacket).pending
  · cases pc : net.loop.pc with
    | notifyWait => exact absurd pc busy
    | setLinkUp flags | setLinkDown flags | newPacket flags =>
        simp only [loopStep, pc] at stepped
        split at stepped
        · cases stepped
          rfl
        · cases stepped
          rfl
    | loadHcdc flags | clearHcdc flags =>
        simp only [loopStep, pc] at stepped
        cases stepped
        rfl
    | fault => simp [loopStep, pc] at stepped
    | _ =>
        rw [pc] at onPacket
        exact absurd rfl onPacket

theorem SettlesAt.link_step {up : Bool} {net next : NetState} {results : CallResults}
    (settles : SettlesAt up net net.loop.pc) (linkPart : net.loop.pc.onPacket = false)
    (busy : net.loop.pc ≠ .notifyWait) (stepped : loopStep results net = some next) :
    SettlesAt up next next.loop.pc := by
  cases pc : net.loop.pc with
  | notifyWait => exact absurd pc busy
  | setLinkUp flags =>
      rw [pc] at settles
      simp only [loopStep, pc] at stepped
      split at stepped
      · rename_i isUp
        cases stepped
        rcases settles with ⟨down, -⟩ | ⟨noUp, -⟩
        · exact ⟨down, fun _ => rfl⟩
        · rw [isUp] at noUp
          cases noUp
      · rename_i noUp
        cases stepped
        rcases settles with ⟨down, raised⟩ | ⟨-, noDown, settled⟩
        · left
          cases up with
          | true => exact absurd (raised rfl) noUp
          | false => exact ⟨down, rfl⟩
        · exact Or.inr ⟨noDown, settled⟩
  | loadHcdc flags =>
      rw [pc] at settles
      simp only [loopStep, pc] at stepped
      cases stepped
      rcases settles with ⟨down, raised⟩
      cases up with
      | true => exact Or.inr ⟨down, raised rfl, rfl⟩
      | false => exact Or.inl ⟨down, rfl⟩
  | setLinkDown flags =>
      rw [pc] at settles
      simp only [loopStep, pc] at stepped
      split at stepped
      · rename_i isDown
        cases stepped
        rcases settles with ⟨-, isLast⟩ | ⟨noDown, -⟩
        · exact ⟨isLast, rfl⟩
        · rw [isDown] at noDown
          cases noDown
      · rename_i noDown
        cases stepped
        rcases settles with ⟨isDown, -⟩ | ⟨-, settled⟩
        · exact absurd isDown noDown
        · exact settled
  | clearHcdc flags =>
      rw [pc] at settles
      simp only [loopStep, pc] at stepped
      cases stepped
      rcases settles with ⟨rfl, down⟩
      exact ⟨down, rfl⟩
  | newPacket flags =>
      rw [pc] at settles
      simp only [loopStep, pc] at stepped
      split at stepped
      · cases stepped
        exact settles
      · cases stepped
        exact settles
  | fault => simp [loopStep, pc] at stepped
  | _ =>
      rw [pc] at linkPart
      cases linkPart

theorem Settling.loop_step {up : Bool} {net next : NetState} {results : CallResults}
    (settling : Settling up net) (stepped : loopStep results net = some next) :
    Settling up next := by
  by_cases waiting : net.loop.pc = .notifyWait
  · simp only [loopStep, waiting] at stepped
    split at stepped
    · cases stepped
      right
      refine ⟨rfl, rfl, ?_⟩
      rcases settling with taken | ⟨noUp, noDown, settles⟩
      · exact Or.inl taken
      · rw [waiting] at settles
        exact Or.inr ⟨noUp, noDown, settles⟩
    · cases stepped
  · have pending := loopStep_pending stepped waiting
    rcases settling with ⟨down, raised⟩ | ⟨noUp, noDown, settles⟩
    · left
      rw [pending]
      exact ⟨down, raised⟩
    · right
      rw [pending]
      refine ⟨noUp, noDown, ?_⟩
      by_cases onPacket : net.loop.pc.onPacket = true
      · have keeps := loopStep_onPacket stepped onPacket
        have settled : Settled up net := settles.settled onPacket
        have after : Settled up next := by
          unfold Settled
          rw [keeps.installed, keeps.linkUp, keeps.hcdc]
          exact settled
        rcases keeps.pc with still | done | faulted
        · exact SettlesAt.of_onPacket after still
        · rw [done]
          exact after
        · rw [faulted]
          trivial
      · exact settles.link_step (by simpa using onPacket) waiting stepped

theorem Settling.of_runFrom {up : Bool} {events : List NetEvent} {net final : NetState}
    (settling : Settling up net) (ran : netSystem.runFrom net events = some final)
    (plain : ∀ event ∈ events, event.changesLink = false) : Settling up final := by
  induction events generalizing net with
  | nil =>
      cases ran
      exact settling
  | cons event rest ih =>
      rcases System.runFrom_cons.mp ran with ⟨next, stepped, ranRest⟩
      refine ih ?_ ranRest fun other member => plain other (List.mem_cons_of_mem _ member)
      rcases netStep_cases stepped with ⟨usbEvent, usb, rfl, steppedUsb, rfl⟩ | ⟨_, rfl, looped⟩
      · exact settling.usb_step steppedUsb (plain _ List.mem_cons_self)
      · exact settling.loop_step looped

theorem Settling.settled {up : Bool} {net : NetState} (settling : Settling up net)
    (waiting : net.loop.pc = .notifyWait) (nothing : net.usb.pending.any = false) :
    Settled up net := by
  simp only [NetEvents.any, Bool.or_eq_false_iff] at nothing
  rcases settling with ⟨down, raised⟩ | ⟨-, -, settles⟩
  · cases up with
    | true =>
        have stillUp := raised rfl
        rw [nothing.1.1] at stillUp
        cases stillUp
    | false =>
        rw [nothing.1.2] at down
        cases down
  · rw [waiting] at settles
    exact settles

theorem settling_of_changesLink {net : NetState} {usb : UsbDevice} {event : UsbEvent}
    (stepped : usbStep net.usb event = some usb) (last : event.changesLink = true) :
    Settling (decide (event ≠ .classDeInit ∧ net.usb.pending.linkDown = false))
      { net with usb } := by
  left
  cases event with
  | classInit allocated =>
      cases allocated with
      | true =>
          have pending : usb.pending = { net.usb.pending with linkUp := true } :=
            congrArg ReceiveSide.pending (usbStep_classInit stepped).2
          simp [pending]
      | false => cases last
  | classDeInit =>
      have pending : usb.pending = { net.usb.pending with linkDown := true } :=
        congrArg ReceiveSide.pending (usbStep_classDeInit stepped).2
      simp [pending]
  | outPacket _ | inPacket | dataIn => cases last

/--
When the loop waits again with nothing pending, the link agrees with the last
link event if and only if that event is not a class Init raised while the
LINK_DOWN of an earlier DeInit was still pending.
-/
theorem link_agrees_iff {before after : List NetEvent} {event : UsbEvent}
    {current final : NetState} (ranBefore : netSystem.run before = some current)
    (ran : netSystem.run (before ++ .usb event :: after) = some final)
    (last : event.changesLink = true)
    (plain : ∀ other ∈ after, other.changesLink = false)
    (waiting : final.loop.pc = .notifyWait) (nothing : final.usb.pending.any = false) :
    Agrees final event ↔ (event = .classInit true → current.usb.pending.linkDown = false) := by
  rcases System.runFrom_append.mp ran with ⟨middle, ranMiddle, ranRest⟩
  have same : middle = current := Option.some.inj (ranMiddle.symm.trans ranBefore)
  subst same
  rcases System.runFrom_cons.mp ranRest with ⟨next, stepped, ranAfter⟩
  rcases Option.map_eq_some_iff.mp stepped with ⟨usb, steppedUsb, rfl⟩
  have settling := (settling_of_changesLink steppedUsb last).of_runFrom ranAfter plain
  have settled := settling.settled waiting nothing
  cases event with
  | classInit allocated =>
      cases allocated with
      | true =>
          cases down : middle.usb.pending.linkDown with
          | true =>
              simp only [down] at settled
              simp [Agrees, settled.1]
          | false =>
              simp only [down] at settled
              simp [Agrees, settled.1, settled.2]
      | false => cases last
  | classDeInit => simpa [Agrees, Settled] using settled
  | outPacket _ | inPacket | dataIn => cases last

/-- One connection, and the loop has handled LINK_UP. -/
theorem link_agrees_first_init :
    Agrees (netSystem.final ([] ++ .usb (.classInit true) :: loopSteps 5) (by decide))
        (.classInit true) ↔
      (UsbEvent.classInit true = .classInit true → netInit.usb.pending.linkDown = false) :=
  link_agrees_iff rfl (System.run_final (by decide)) rfl (by decide) (LoopPc.eq_notifyWait (by decide))
    (by decide)

/-- The host disconnects before the loop has run again; the next Init is a quick reconnect. -/
def disconnected : List NetEvent :=
  [.usb (.classInit true)] ++ loopSteps 5 ++ [.usb .classDeInit]

theorem link_agrees_violated :
    ¬∀ before event after final, netSystem.run (before ++ .usb event :: after) = some final →
      event.changesLink = true → (∀ other ∈ after, other.changesLink = false) →
      final.loop.pc = .notifyWait → final.usb.pending.any = false → Agrees final event := by
  intro agrees
  have ran : ((netSystem.run (disconnected ++ .usb (.classInit true) :: loopSteps 6)).map
      fun net => (net.loop.pc.waits, net.usb.pending.any, net.loop.linkUp)) =
        some (true, false, false) := by decide
  rcases Option.map_eq_some_iff.mp ran with ⟨net, reached, seen⟩
  have waiting := LoopPc.eq_notifyWait (congrArg Prod.fst seen)
  have nothing : net.usb.pending.any = false := congrArg (·.2.1) seen
  have down : net.loop.linkUp = false := congrArg (·.2.2) seen
  have up := (agrees _ _ _ net reached rfl (by decide) waiting nothing).1
  rw [down] at up
  cases up

end MqttAccelero.Net
