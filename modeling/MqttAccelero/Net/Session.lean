import MqttAccelero.Net.Ownership

/-!
# One configured session

Runs without a class DeInit. LINK_DOWN is never raised in them, so the loop
learns of the one handle before it handles a packet, and every access of the
loop is valid.
-/

namespace MqttAccelero.Net

open Usb UsbDevice

/-- No reset or disconnect happens. -/
def Stays : NetEvent → Prop
  | .usb .classDeInit => False
  | _ => True

instance : DecidablePred Stays
  | .usb .classDeInit => inferInstanceAs (Decidable False)
  | .usb (.classInit _) | .usb (.outPacket _) | .usb .inPacket | .usb .dataIn | .loop _ =>
      inferInstanceAs (Decidable True)

/-! ## The loop's pointer -/

/-- The loop has taken LINK_UP and has not loaded the new handle yet. -/
def LoopPc.takesLinkUp : LoopPc → Bool
  | .setLinkUp flags => flags.linkUp
  | .loadHcdc _ => true
  | _ => false

def LoopPc.noLinkDown : LoopPc → Bool
  | .setLinkUp flags | .loadHcdc flags | .setLinkDown flags => !flags.linkDown
  | .clearHcdc _ => false
  | _ => true

/-- The loop knows the installed handle, or LINK_UP is on its way. -/
structure Linked (net : NetState) : Prop where
  noDown : net.usb.pending.linkDown = false
  noDownTaken : net.loop.pc.noLinkDown = true
  known : net.loop.hcdc = net.usb.installed ∨ net.usb.pending.linkUp = true ∨
    net.loop.pc.takesLinkUp = true

theorem LoopPc.of_onPacket {pc : LoopPc} (onPacket : pc.onPacket = true) :
    pc.noLinkDown = true ∧ pc.takesLinkUp = false := by
  cases pc with
  | notifyWait | setLinkUp flags | loadHcdc flags | setLinkDown flags | clearHcdc flags
  | newPacket flags | fault => cases onPacket
  | _ => exact ⟨rfl, rfl⟩

theorem Linked.usb_step {net : NetState} {usb : UsbDevice} {event : UsbEvent}
    (linked : Linked net) (stays : Stays (.usb event))
    (stepped : usbStep net.usb event = some usb) : Linked { net with usb } := by
  by_cases plain : event.changesLink = true
  · cases event with
    | classInit allocated =>
        cases allocated with
        | true =>
            have pending : usb.pending = { net.usb.pending with linkUp := true } :=
              congrArg ReceiveSide.pending (usbStep_classInit stepped).2
            refine ⟨?_, linked.noDownTaken, Or.inr (Or.inl ?_)⟩
            · rw [pending]
              exact linked.noDown
            · rw [pending]
        | false => cases plain
    | classDeInit => cases stays
    | outPacket _ | inPacket | dataIn => cases plain
  · rcases usbStep_keepsLink stepped (by simpa using plain) with ⟨installed, linkUp, linkDown⟩
    refine ⟨linkDown.trans linked.noDown, linked.noDownTaken, ?_⟩
    change net.loop.hcdc = usb.installed ∨ usb.pending.linkUp = true ∨ _
    rw [installed, linkUp]
    exact linked.known

theorem Linked.loop_step {net next : NetState} {results : CallResults} (linked : Linked net)
    (stepped : loopStep results net = some next) : Linked next := by
  by_cases onPacket : net.loop.pc.onPacket = true
  · have keeps := loopStep_onPacket stepped onPacket
    have known : net.loop.hcdc = net.usb.installed ∨ net.usb.pending.linkUp = true := by
      simpa [(LoopPc.of_onPacket onPacket).2] using linked.known
    refine ⟨keeps.pending ▸ linked.noDown, ?_, ?_⟩
    · rcases keeps.pc with still | done | faulted
      · exact (LoopPc.of_onPacket still).1
      · rw [done]
        rfl
      · rw [faulted]
        rfl
    · rw [keeps.hcdc, keeps.installed, keeps.pending, ← or_assoc]
      exact Or.inl known
  · have known := linked.known
    have taken := linked.noDownTaken
    cases pc : net.loop.pc with
    | notifyWait =>
        rw [pc] at known
        simp only [loopStep, pc] at stepped
        split at stepped
        · cases stepped
          refine ⟨rfl, ?_, ?_⟩
          · change (!net.usb.pending.linkDown) = true
            rw [linked.noDown]
            rfl
          · rcases known with same | raised | impossible
            · exact Or.inl same
            · exact Or.inr (Or.inr raised)
            · cases impossible
        · cases stepped
    | setLinkUp flags =>
        rw [pc] at known taken
        simp only [loopStep, pc] at stepped
        split at stepped
        · cases stepped
          exact ⟨linked.noDown, taken, Or.inr (Or.inr rfl)⟩
        · rename_i noUp
          cases stepped
          refine ⟨linked.noDown, taken, ?_⟩
          rcases known with same | raised | isUp
          · exact Or.inl same
          · exact Or.inr (Or.inl raised)
          · exact absurd isUp noUp
    | loadHcdc flags =>
        rw [pc] at taken
        simp only [loopStep, pc] at stepped
        cases stepped
        exact ⟨linked.noDown, taken, Or.inl rfl⟩
    | setLinkDown flags =>
        rw [pc] at known taken
        simp only [loopStep, pc] at stepped
        split at stepped
        · rename_i isDown
          simp [LoopPc.noLinkDown, isDown] at taken
        · cases stepped
          refine ⟨linked.noDown, rfl, ?_⟩
          rcases known with same | raised | impossible
          · exact Or.inl same
          · exact Or.inr (Or.inl raised)
          · cases impossible
    | clearHcdc flags =>
        rw [pc] at taken
        cases taken
    | newPacket flags =>
        rw [pc] at known
        have kept : net.loop.hcdc = net.usb.installed ∨ net.usb.pending.linkUp = true := by
          simpa [LoopPc.takesLinkUp] using known
        simp only [loopStep, pc] at stepped
        split at stepped
        · cases stepped
          exact ⟨linked.noDown, rfl, or_assoc.mp (Or.inl kept)⟩
        · cases stepped
          exact ⟨linked.noDown, rfl, or_assoc.mp (Or.inl kept)⟩
    | fault => simp [loopStep, pc] at stepped
    | _ =>
        rw [pc] at onPacket
        exact absurd rfl onPacket

theorem Linked.keepsHandle {net : NetState} {event : NetEvent} (linked : Linked net)
    (stays : Stays event) : KeepsHandle net event := by
  cases event with
  | usb usbEvent =>
      cases usbEvent with
      | classDeInit => cases stays
      | _ => trivial
  | loop results =>
      intro waiting _
      refine ⟨linked.noDown, ?_⟩
      rcases linked.known with same | raised | impossible
      · exact Or.inr same
      · exact Or.inl raised
      · rw [LoopPc.eq_notifyWait waiting] at impossible
        cases impossible

theorem Linked.init : Linked netInit :=
  ⟨rfl, rfl, Or.inl rfl⟩

theorem keepsHandle_of_stays {events : List NetEvent} (session : ∀ event ∈ events, Stays event) :
    netSystem.Along KeepsHandle netInit events := by
  refine System.along_of_invariant ?_ ?_ Linked.init (System.along_of_forall netInit session)
  · intro current event next linked stays stepped
    rcases netStep_cases stepped with ⟨usbEvent, usb, rfl, steppedUsb, rfl⟩ | ⟨_, rfl, looped⟩
    · exact linked.usb_step stays steppedUsb
    · exact linked.loop_step looped
  · intro current event linked stays
    exact linked.keepsHandle stays

end MqttAccelero.Net
