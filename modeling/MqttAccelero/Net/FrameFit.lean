import MqttAccelero.Net.Reception

/-!
# Frames against pool buffers

DataOut collects packets until a short one or until 1514 bytes are reached, which
in 64-byte steps can be 1536 bytes. `pbuf_alloc` spreads more than 1524 bytes
over two pool buffers; `ll_input` copies all of them into the first.
-/

namespace MqttAccelero.Net

open Usb

/-- The chain is well formed, carries the frame, and nothing was written past a buffer. -/
structure CarriesFrame (chain : List Pbuf) (frame : List UInt8) : Prop where
  writtenInside : ∀ p ∈ chain, p.written ≤ p.capacity
  lenInside : ∀ p ∈ chain, p.len ≤ p.capacity
  totLen : ∀ p ∈ chain.head?, p.totLen = chainLen chain
  payload : chainBytes chain = frame

theorem inputChain_of_le (junk : ℕ → ℕ → UInt8) {frame : List UInt8}
    (fits : frame.length ≤ pbufPoolBufsize) :
    inputChain junk frame =
      [{ (poolPbuf junk frame.length).memcpy frame with len := frame.length }] := by
  rw [inputChain, poolChain_of_le junk _ fits]
  rfl

theorem chainBytes_inputChain (junk : ℕ → ℕ → UInt8) {frame : List UInt8}
    (fits : frame.length ≤ pbufPoolBufsize) : chainBytes (inputChain junk frame) = frame := by
  rw [inputChain_of_le junk fits, chainBytes_cons]
  change Memory.load (Memory.store _ 0 frame) 0 frame.length ++ [] = frame
  rw [List.append_nil, Memory.load_store]

/-- `ll_input` writes the whole frame into the first buffer, however many it got. -/
theorem exists_mem_inputChain (junk : ℕ → ℕ → UInt8) (frame : List UInt8) :
    ∃ p ∈ inputChain junk frame, p.capacity = pbufPoolBufsize ∧ p.written = frame.length := by
  rcases poolChain_eq_cons junk frame.length frame.length with ⟨rest, shape⟩
  rw [inputChain, shape]
  refine ⟨_, List.mem_cons_self, rfl, ?_⟩
  exact Nat.zero_max _

theorem carriesFrame_inputChain_iff (junk : ℕ → ℕ → UInt8) (frame : List UInt8) :
    CarriesFrame (inputChain junk frame) frame ↔ frame.length ≤ pbufPoolBufsize := by
  constructor
  · intro carries
    rcases exists_mem_inputChain junk frame with ⟨p, member, capacity, written⟩
    have inside := carries.writtenInside p member
    rw [capacity, written] at inside
    exact inside
  · intro fits
    have payload := chainBytes_inputChain junk fits
    rw [inputChain_of_le junk fits] at payload ⊢
    refine ⟨?_, ?_, ?_, payload⟩
    · intro p member
      rw [List.mem_singleton.mp member]
      exact Nat.le_trans (Nat.le_of_eq (Nat.zero_max _)) fits
    · intro p member
      rw [List.mem_singleton.mp member]
      exact fits
    · intro p member
      cases member
      rfl

/--
When `ll_input` returns a chain, it carries the frame which DataOut handed over
last if and only if that frame fits one pool buffer.
-/
theorem input_carriesFrame_iff {events : List NetEvent} {net : NetState} {p : List Pbuf}
    (ran : netSystem.run events = some net) (session : ∀ event ∈ events, Stays event)
    (returned : net.loop.pc = .input p) :
    ∃ frame, (received events).1.getLast? = some frame ∧
      (CarriesFrame p frame ↔ frame.length ≤ pbufPoolBufsize) := by
  rcases (InSession.of_run ran session).phase with ⟨episodes, phase⟩
  generalize (received events).1 = frames at phase ⊢
  generalize (received events).2 = pending at phase
  have handles : net.loop.pc.HandlesPacket := by
    rw [returned]
    trivial
  cases phase with
  | unconfigured _ _ _ idle | receiving _ _ _ _ _ idle | complete _ _ idle =>
      exact absurd handles idle
  | handling _ doing =>
      rw [returned] at doing
      rcases doing with ⟨-, -, -, junk, rfl⟩
      exact ⟨_, List.getLast?_concat, carriesFrame_inputChain_iff junk _⟩

/-- The chain which `ll_input` has just returned. -/
def LoopPc.chain : LoopPc → List Pbuf
  | .input p => p
  | _ => []

/-- A one-byte frame, up to the return of `ll_input`. -/
def shortFrame : List NetEvent :=
  [.usb (.classInit true), .usb (.outPacket [0])] ++ loopSteps 11

theorem input_carriesFrame_short :
    ∃ frame, (received shortFrame).1.getLast? = some frame ∧
      (CarriesFrame (netSystem.final shortFrame (by decide)).loop.pc.chain frame ↔
        frame.length ≤ pbufPoolBufsize) :=
  input_carriesFrame_iff (System.run_final (by decide)) (by decide) rfl

/-- The host sends full packets only, until DataOut hands over 24 of them. -/
def longFrame : List NetEvent :=
  .usb (.classInit true) ::
    (List.replicate 24 (.usb (.outPacket (List.replicate 64 0))) ++ loopSteps 11)

theorem longFrame_enabled : (netSystem.run longFrame).isSome := by
  decide +kernel

theorem input_carriesFrame_violated :
    ¬∀ events net p, netSystem.run events = some net → (∀ event ∈ events, Stays event) →
      net.loop.pc = .input p →
      ∃ frame, (received events).1.getLast? = some frame ∧ CarriesFrame p frame := by
  intro carries
  have written : ∃ p ∈ (netSystem.final longFrame longFrame_enabled).loop.pc.chain,
      p.capacity < p.written := by decide +kernel
  rcases written with ⟨head, member, past⟩
  have returned : (netSystem.final longFrame longFrame_enabled).loop.pc =
      .input (netSystem.final longFrame longFrame_enabled).loop.pc.chain := by rfl
  rcases carries _ _ _ (System.run_final longFrame_enabled) (by decide) returned with
    ⟨frame, -, carried⟩
  have inside := carried.writtenInside head member
  omega

end MqttAccelero.Net
