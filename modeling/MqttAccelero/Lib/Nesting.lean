import Mathlib.Algebra.GroupWithZero.Nat
import Mathlib.Data.List.Nodup
import MqttAccelero.Lib.System

/-!
# Calls that interrupt one another

A routine runs in steps on a state that its calls share. A call may be
interrupted between two of its steps by another complete call of the same
routine, which may be interrupted in turn, so the calls in progress form a stack
of which only the top moves.

A `Discipline` says what holds of a running call, at which points it may be
interrupted, and what a finished call leaves behind. From it follow an invariant
of the whole stack and that the stack empties once no more calls come in.
-/

namespace MqttAccelero.Nesting

variable {Input Shared Frame Result Emit : Type}

/-- One step goes on with a new frame or returns a result, and may emit something. -/
structure Routine (Input Shared Frame Result Emit : Type) where
  accepts : Input → Bool
  start : Frame
  step : Input → Shared → Frame → Shared × Option Emit × (Frame ⊕ Result)

structure Activation (Input Frame : Type) where
  id : ℕ
  input : Input
  frame : Frame

structure Finished (Input Result : Type) where
  id : ℕ
  input : Input
  result : Result

structure NestState (Input Shared Frame Result Emit : Type) where
  shared : Shared
  /-- The running call, then those it interrupted. -/
  stack : List (Activation Input Frame)
  finished : List (Finished Input Result)
  emitted : List (ℕ × Emit)
  started : ℕ

inductive NestEvent (Input : Type) where
  | enter (input : Input)
  | step

namespace NestState

def emittedBy (state : NestState Input Shared Frame Result Emit) (id : ℕ) : List Emit :=
  (state.emitted.filter fun entry => entry.1 = id).map Prod.snd

def ids (state : NestState Input Shared Frame Result Emit) : List ℕ :=
  state.stack.map Activation.id ++ state.finished.map Finished.id

def advance (state : NestState Input Shared Frame Result Emit) (top : Activation Input Frame)
    (below : List (Activation Input Frame)) (after : Shared) (emit : Option Emit)
    (frame : Frame) : NestState Input Shared Frame Result Emit :=
  { state with
    shared := after
    stack := { top with frame } :: below
    emitted := state.emitted ++ emit.toList.map fun out => (top.id, out) }

/-- The running call returns, and the call it interrupted is on top again. -/
def finish (state : NestState Input Shared Frame Result Emit) (top : Activation Input Frame)
    (below : List (Activation Input Frame)) (after : Shared) (emit : Option Emit)
    (result : Result) : NestState Input Shared Frame Result Emit :=
  { state with
    shared := after
    stack := below
    finished := state.finished ++ [⟨top.id, top.input, result⟩]
    emitted := state.emitted ++ emit.toList.map fun out => (top.id, out) }

def enter (state : NestState Input Shared Frame Result Emit) (input : Input) (start : Frame) :
    NestState Input Shared Frame Result Emit :=
  { state with
    stack := ⟨state.started, input, start⟩ :: state.stack
    started := state.started + 1 }

end NestState

def nestStep (routine : Routine Input Shared Frame Result Emit)
    (state : NestState Input Shared Frame Result Emit) :
    NestEvent Input → Option (NestState Input Shared Frame Result Emit)
  | .enter input => if routine.accepts input then some (state.enter input routine.start) else none
  | .step =>
      match state.stack with
      | [] => none
      | top :: below =>
          match routine.step top.input state.shared top.frame with
          | (after, emit, .inl frame) => some (state.advance top below after emit frame)
          | (after, emit, .inr result) => some (state.finish top below after emit result)

def nestSystem (routine : Routine Input Shared Frame Result Emit) (shared : Shared) :
    System (NestState Input Shared Frame Result Emit) (NestEvent Input) where
  init := ⟨shared, [], [], [], 0⟩
  step := nestStep routine

/-- What the proofs about a routine rest on. -/
structure Discipline (routine : Routine Input Shared Frame Result Emit) where
  /-- A call is at a frame, having emitted these. -/
  Runs : Input → Shared → Frame → List Emit → Prop
  /-- A call that has returned leaves the shared state so. -/
  Rests : Shared → Prop
  Done : Input → Result → List Emit → Prop
  /-- Where a call may be interrupted. -/
  Safe : Input → Frame → Prop
  Fits : Input → Prop
  rank : Input → Frame → ℕ
  start_idle : ∀ {input shared}, Rests shared → routine.accepts input = true → Fits input →
    Runs input shared routine.start []
  start_nested : ∀ {outer shared frame out input}, Runs outer shared frame out →
    Safe outer frame → routine.accepts input = true → Fits input →
    Runs input shared routine.start []
  resume : ∀ {input shared frame out after}, Runs input shared frame out → Safe input frame →
    Rests after → Runs input after frame out
  advance : ∀ {input shared frame out after emit next}, Runs input shared frame out →
    routine.step input shared frame = (after, emit, .inl next) →
    Runs input after next (out ++ emit.toList) ∧ rank input next < rank input frame
  finish : ∀ {input shared frame out after emit result}, Runs input shared frame out →
    routine.step input shared frame = (after, emit, .inr result) →
    Rests after ∧ Done input result (out ++ emit.toList)

namespace Discipline

variable {routine : Routine Input Shared Frame Result Emit} (discipline : Discipline routine)

/-- A call comes in while no call runs, or while the running call is at a safe point. -/
def Admits (state : NestState Input Shared Frame Result Emit) : NestEvent Input → Prop
  | .enter input => discipline.Fits input ∧
      ∀ top ∈ state.stack.head?, discipline.Safe top.input top.frame
  | .step => True

/-- The running call is fine now, an interrupted one as soon as it is resumed. -/
def StackRuns (shared : Shared) (out : ℕ → List Emit) : List (Activation Input Frame) → Prop
  | [] => discipline.Rests shared
  | top :: below =>
      discipline.Runs top.input shared top.frame (out top.id) ∧
        ∀ act ∈ below, ∀ after, discipline.Rests after →
          discipline.Runs act.input after act.frame (out act.id)

structure Nested (state : NestState Input Shared Frame Result Emit) : Prop where
  runs : discipline.StackRuns state.shared state.emittedBy state.stack
  done : ∀ call ∈ state.finished, discipline.Done call.input call.result (state.emittedBy call.id)
  ids : state.ids.Perm (List.range state.started)
  emitters : ∀ entry ∈ state.emitted, entry.1 < state.started

end Discipline

/-! ## What the calls have emitted -/

variable {state next : NestState Input Shared Frame Result Emit}

theorem emittedBy_append (emitted : List (ℕ × Emit)) (id other : ℕ) (emit : Option Emit) :
    ((emitted ++ emit.toList.map fun out => (id, out)).filter fun entry => entry.1 = other).map
        Prod.snd =
      (emitted.filter fun entry => entry.1 = other).map Prod.snd ++
        if other = id then emit.toList else [] := by
  cases emit with
  | none => simp
  | some out =>
      by_cases same : other = id
      · simp [same]
      · simp [same, Ne.symm same]

theorem emittedBy_advance {top : Activation Input Frame} {below : List (Activation Input Frame)}
    {after : Shared} {emit : Option Emit} {frame : Frame} (other : ℕ) :
    (state.advance top below after emit frame).emittedBy other =
      state.emittedBy other ++ if other = top.id then emit.toList else [] :=
  emittedBy_append _ _ _ _

theorem emittedBy_finish {top : Activation Input Frame} {below : List (Activation Input Frame)}
    {after : Shared} {emit : Option Emit} {result : Result} (other : ℕ) :
    (state.finish top below after emit result).emittedBy other =
      state.emittedBy other ++ if other = top.id then emit.toList else [] :=
  emittedBy_append _ _ _ _

/-! ## The invariant -/

namespace Discipline.Nested

variable {routine : Routine Input Shared Frame Result Emit} {discipline : Discipline routine}

theorem nodup_ids (nested : discipline.Nested state) : state.ids.Nodup :=
  nested.ids.nodup_iff.mpr List.nodup_range

theorem init {shared : Shared} (rests : discipline.Rests shared) :
    discipline.Nested (nestSystem routine shared).init := by
  refine ⟨rests, ?_, ?_, ?_⟩
  · intro call member
    cases member
  · exact List.Perm.refl _
  · intro entry member
    cases member

theorem emittedBy_started (nested : discipline.Nested state) :
    state.emittedBy state.started = [] := by
  simp only [NestState.emittedBy, List.map_eq_nil_iff, List.filter_eq_nil_iff]
  intro entry member
  have earlier := nested.emitters entry member
  simp only [decide_eq_true_eq]
  omega

theorem enter (nested : discipline.Nested state) {input : Input}
    (accepted : routine.accepts input = true) (admits : discipline.Admits state (.enter input)) :
    discipline.Nested (state.enter input routine.start) := by
  rcases admits with ⟨fits, safe⟩
  have runs := nested.runs
  refine ⟨⟨?_, ?_⟩, nested.done, ?_, ?_⟩
  · change discipline.Runs input state.shared routine.start (state.emittedBy state.started)
    rw [nested.emittedBy_started]
    cases stack : state.stack with
    | nil =>
        rw [stack] at runs
        exact discipline.start_idle runs accepted fits
    | cons top below =>
        rw [stack] at runs safe
        exact discipline.start_nested runs.1 (safe top rfl) accepted fits
  · intro act member after rests
    cases stack : state.stack with
    | nil =>
        rw [stack] at member
        cases member
    | cons top below =>
        rw [stack] at runs safe member
        rcases List.mem_cons.mp member with rfl | deeper
        · exact discipline.resume runs.1 (safe act rfl) rests
        · exact runs.2 act deeper after rests
  · change (state.started :: state.ids).Perm (List.range (state.started + 1))
    rw [List.range_succ]
    exact (nested.ids.cons _).trans (List.perm_append_singleton _ _).symm
  · intro entry member
    exact Nat.lt_succ_of_lt (nested.emitters entry member)

section Top

variable {top : Activation Input Frame} {below : List (Activation Input Frame)} {after : Shared}
  {emit : Option Emit}

theorem ne_top_of_mem_below (nested : discipline.Nested state) (stack : state.stack = top :: below)
    {act : Activation Input Frame} (member : act ∈ below) : act.id ≠ top.id := by
  have distinct := nested.nodup_ids
  rw [NestState.ids, stack, List.map_cons, List.cons_append, List.nodup_cons] at distinct
  intro same
  apply distinct.1
  rw [← same]
  exact List.mem_append_left _ (List.mem_map_of_mem member)

theorem ne_top_of_mem_finished (nested : discipline.Nested state)
    (stack : state.stack = top :: below) {call : Finished Input Result}
    (member : call ∈ state.finished) : call.id ≠ top.id := by
  have distinct := nested.nodup_ids
  rw [NestState.ids, stack, List.map_cons, List.cons_append, List.nodup_cons] at distinct
  intro same
  apply distinct.1
  rw [← same]
  exact List.mem_append_right _ (List.mem_map_of_mem member)

theorem emitters_append (nested : discipline.Nested state) (stack : state.stack = top :: below) :
    ∀ entry ∈ state.emitted ++ emit.toList.map fun out => (top.id, out),
      entry.1 < state.started := by
  intro entry member
  rcases List.mem_append.mp member with before | now
  · exact nested.emitters entry before
  · rcases List.mem_map.mp now with ⟨out, -, rfl⟩
    have started : top.id ∈ state.ids := by
      rw [NestState.ids, stack]
      exact List.mem_append_left _ (List.mem_map_of_mem List.mem_cons_self)
    exact List.mem_range.mp (nested.ids.mem_iff.mp started)

theorem advance (nested : discipline.Nested state) (stack : state.stack = top :: below)
    {frame : Frame}
    (stepped : routine.step top.input state.shared top.frame = (after, emit, .inl frame)) :
    discipline.Nested (state.advance top below after emit frame) ∧
      discipline.rank top.input frame < discipline.rank top.input top.frame := by
  have runs := nested.runs
  rw [stack] at runs
  rcases discipline.advance runs.1 stepped with ⟨goesOn, less⟩
  refine ⟨⟨⟨?_, ?_⟩, ?_, ?_, nested.emitters_append stack⟩, less⟩
  · rw [emittedBy_advance, if_pos rfl]
    exact goesOn
  · intro act member now rests
    rw [emittedBy_advance, if_neg (nested.ne_top_of_mem_below stack member), List.append_nil]
    exact runs.2 act member now rests
  · intro call member
    rw [emittedBy_advance, if_neg (nested.ne_top_of_mem_finished stack member), List.append_nil]
    exact nested.done call member
  · have same : (state.advance top below after emit frame).ids = state.ids := by
      simp [NestState.ids, NestState.advance, stack]
    rw [same]
    exact nested.ids

theorem finish (nested : discipline.Nested state) (stack : state.stack = top :: below)
    {result : Result}
    (stepped : routine.step top.input state.shared top.frame = (after, emit, .inr result)) :
    discipline.Nested (state.finish top below after emit result) := by
  have runs := nested.runs
  rw [stack] at runs
  rcases discipline.finish runs.1 stepped with ⟨rests, done⟩
  have unchanged : ∀ act ∈ below,
      (state.finish top below after emit result).emittedBy act.id = state.emittedBy act.id := by
    intro act member
    rw [emittedBy_finish, if_neg (nested.ne_top_of_mem_below stack member), List.append_nil]
  refine ⟨?_, ?_, ?_, nested.emitters_append stack⟩
  · change discipline.StackRuns after _ below
    cases below with
    | nil => exact rests
    | cons resumed deeper =>
        constructor
        · rw [unchanged resumed List.mem_cons_self]
          exact runs.2 resumed List.mem_cons_self after rests
        · intro act member now restsNow
          rw [unchanged act (List.mem_cons_of_mem _ member)]
          exact runs.2 act (List.mem_cons_of_mem _ member) now restsNow
  · intro call member
    rcases List.mem_append.mp member with before | now
    · rw [emittedBy_finish, if_neg (nested.ne_top_of_mem_finished stack before), List.append_nil]
      exact nested.done call before
    · cases List.mem_singleton.mp now
      rw [emittedBy_finish, if_pos rfl]
      exact done
  · have moved : (state.finish top below after emit result).ids.Perm state.ids := by
      simp only [NestState.ids, NestState.finish, stack, List.map_append, List.map_cons,
        List.map_nil, ← List.append_assoc, List.cons_append]
      exact List.perm_append_singleton _ _
    exact moved.trans nested.ids

end Top

/-! ## Runs -/

theorem step {event : NestEvent Input} (nested : discipline.Nested state)
    (admits : discipline.Admits state event) (stepped : nestStep routine state event = some next) :
    discipline.Nested next := by
  cases event with
  | enter input =>
      simp only [nestStep] at stepped
      split at stepped
      · rename_i accepted
        cases stepped
        exact nested.enter accepted admits
      · cases stepped
  | step =>
      simp only [nestStep] at stepped
      split at stepped
      · cases stepped
      · rename_i top below stack
        split at stepped
        · rename_i moved
          cases stepped
          exact (nested.advance stack moved).1
        · rename_i moved
          cases stepped
          exact nested.finish stack moved

theorem of_run {shared : Shared} (rests : discipline.Rests shared)
    {events : List (NestEvent Input)} (ran : (nestSystem routine shared).run events = some state)
    (admits : (nestSystem routine shared).Along discipline.Admits
      (nestSystem routine shared).init events) : discipline.Nested state := by
  refine System.invariant_along discipline.Nested ?_ (init rests) ran admits
  intro current event next nested admitted stepped
  exact nested.step admitted stepped

def totalRank (discipline : Discipline routine)
    (stack : List (Activation Input Frame)) : ℕ :=
  (stack.map fun act => discipline.rank act.input act.frame + 1).sum

theorem step_of_ne_nil (nested : discipline.Nested state) (busy : state.stack ≠ []) :
    ∃ next, nestStep routine state .step = some next ∧ discipline.Nested next ∧
      next.started = state.started ∧
      totalRank discipline next.stack < totalRank discipline state.stack := by
  cases stack : state.stack with
  | nil => exact absurd stack busy
  | cons top below =>
      rcases moved : routine.step top.input state.shared top.frame with ⟨after, emit, frame | result⟩
      · rcases nested.advance stack moved with ⟨goesOn, less⟩
        refine ⟨state.advance top below after emit frame, ?_, goesOn, rfl, ?_⟩
        · simp [nestStep, stack, moved]
        · simp only [totalRank, NestState.advance, List.map_cons, List.sum_cons]
          omega
      · refine ⟨state.finish top below after emit result, ?_, nested.finish stack moved, rfl, ?_⟩
        · simp [nestStep, stack, moved]
        · simp only [totalRank, NestState.finish, List.map_cons, List.sum_cons]
          omega

/-- Without further calls the stack empties, and every call that was started has returned. -/
theorem drains {shared : Shared} (nested : discipline.Nested state) :
    ∃ count final, (nestSystem routine shared).runFrom state (List.replicate count .step) =
        some final ∧ discipline.Nested final ∧ final.stack = [] ∧
      final.started = state.started := by
  induction left : totalRank discipline state.stack using Nat.strongRecOn
    generalizing state with
  | _ rank ih =>
      by_cases busy : state.stack = []
      · exact ⟨0, state, rfl, nested, busy, rfl⟩
      · rcases nested.step_of_ne_nil busy with ⟨next, stepped, nestedNext, started, less⟩
        rcases ih _ (left ▸ less) nestedNext rfl with ⟨count, final, ran, atEnd, empty, startedEnd⟩
        refine ⟨count + 1, final, ?_, atEnd, empty, startedEnd.trans started⟩
        rw [List.replicate_succ]
        exact System.runFrom_cons.mpr ⟨next, stepped, ran⟩

end Discipline.Nested

end MqttAccelero.Nesting
