import Mathlib.Data.List.Induction

/-!
# Guarded transition systems

A system has an initial state and an executable step function which returns
`none` where an event is not enabled. Runs are lists of events, so a finite
scenario is evaluated by the same definition that the invariant rules speak
about.

Most results below are relative to a *guard*, a predicate on the state before a
step and the event taken there. `Along` says that every step of a run meets the
guard; the unrestricted rules are the case of the guard which is always true.
-/

namespace MqttAccelero

universe u v

/-- An initial state and a guarded step function. -/
structure System (State : Type u) (Event : Type v) where
  init : State
  step : State → Event → Option State

namespace System

variable {State : Type u} {Event : Type v} (system : System State Event)

/-- The state after the events of a run, if each of them is enabled in turn. -/
def runFrom (state : State) : List Event → Option State
  | [] => some state
  | event :: rest => (system.step state event).bind fun next => runFrom next rest

def run (events : List Event) : Option State :=
  system.runFrom system.init events

def final (events : List Event) (enabled : (system.run events).isSome) : State :=
  (system.run events).get enabled

/-- Every step of the run meets the guard in the state it is taken from. -/
def Along (guard : State → Event → Prop) (state : State) : List Event → Prop
  | [] => True
  | event :: rest =>
      guard state event ∧ ∀ next, system.step state event = some next → Along guard next rest

variable {system}

@[simp]
theorem runFrom_nil (state : State) : system.runFrom state [] = some state := rfl

@[simp]
theorem runFrom_singleton (state : State) (event : Event) :
    system.runFrom state [event] = system.step state event := by
  simp only [runFrom]
  cases system.step state event <;> rfl

theorem run_final {events : List Event} (enabled : (system.run events).isSome) :
    system.run events = some (system.final events enabled) :=
  (Option.some_get enabled).symm

theorem runFrom_cons {state final : State} {event : Event} {rest : List Event} :
    system.runFrom state (event :: rest) = some final ↔
      ∃ next, system.step state event = some next ∧ system.runFrom next rest = some final := by
  simp [runFrom, Option.bind_eq_some_iff]

theorem runFrom_append {state final : State} {first second : List Event} :
    system.runFrom state (first ++ second) = some final ↔
      ∃ middle, system.runFrom state first = some middle ∧
        system.runFrom middle second = some final := by
  induction first generalizing state with
  | nil => simp
  | cons event rest ih =>
      simp only [List.cons_append, runFrom_cons, ih]
      constructor
      · rintro ⟨next, stepped, middle, ran, ended⟩
        exact ⟨middle, ⟨next, stepped, ran⟩, ended⟩
      · rintro ⟨middle, ⟨next, stepped, ran⟩, ended⟩
        exact ⟨next, stepped, middle, ran, ended⟩

theorem along_append {guard : State → Event → Prop} {state middle : State}
    {first second : List Event} (ran : system.runFrom state first = some middle) :
    system.Along guard state (first ++ second) ↔
      system.Along guard state first ∧ system.Along guard middle second := by
  induction first generalizing state with
  | nil =>
      simp only [runFrom_nil, Option.some.injEq] at ran
      subst ran
      simp [Along]
  | cons event rest ih =>
      rcases runFrom_cons.mp ran with ⟨next, stepped, ranRest⟩
      simp [Along, stepped, ih ranRest, and_assoc]

theorem along_mono {weak strong : State → Event → Prop} {state : State} {events : List Event}
    (implies : ∀ current event, strong current event → weak current event)
    (along : system.Along strong state events) : system.Along weak state events := by
  induction events generalizing state with
  | nil => trivial
  | cons event rest ih =>
      exact ⟨implies _ _ along.1, fun next stepped => ih (along.2 next stepped)⟩

theorem along_true (system : System State Event) (state : State) (events : List Event) :
    system.Along (fun _ _ => True) state events := by
  induction events generalizing state with
  | nil => trivial
  | cons event rest ih => exact ⟨trivial, fun next _ => ih next⟩

theorem along_of_forall {allowed : Event → Prop} {events : List Event} (state : State)
    (all : ∀ event ∈ events, allowed event) :
    system.Along (fun _ event => allowed event) state events := by
  induction events generalizing state with
  | nil => trivial
  | cons event rest ih =>
      refine ⟨all event List.mem_cons_self, fun next _ => ih next ?_⟩
      intro other member
      exact all other (List.mem_cons_of_mem _ member)

/-- A stronger guard may be met because of what the weaker one keeps invariant. -/
theorem along_of_invariant {weak strong : State → Event → Prop} {Inv : State → Prop}
    (preserved : ∀ current event next, Inv current → weak current event →
      system.step current event = some next → Inv next)
    (implies : ∀ current event, Inv current → weak current event → strong current event)
    {state : State} {events : List Event} (start : Inv state)
    (along : system.Along weak state events) : system.Along strong state events := by
  induction events generalizing state with
  | nil => trivial
  | cons event rest ih =>
      refine ⟨implies _ _ start along.1, fun next stepped => ?_⟩
      exact ih (preserved _ _ _ start along.1 stepped) (along.2 next stepped)

instance decidableAlong (guard : State → Event → Prop)
    [∀ current event, Decidable (guard current event)] :
    ∀ (state : State) (events : List Event), Decidable (system.Along guard state events)
  | _, [] => isTrue trivial
  | state, event :: rest =>
      match stepped : system.step state event with
      | none => decidable_of_iff (guard state event) (by simp [Along, stepped])
      | some next =>
          have := decidableAlong guard next rest
          decidable_of_iff (guard state event ∧ system.Along guard next rest)
            (by simp [Along, stepped])

/-- A run that misses its guard somewhere has a first step that does. -/
theorem exists_first_of_not_along {guard : State → Event → Prop} {state final : State}
    {events : List Event} (ran : system.runFrom state events = some final)
    (missed : ¬system.Along guard state events) :
    ∃ first event second current next, events = first ++ event :: second ∧
      system.runFrom state first = some current ∧ system.Along guard state first ∧
      ¬guard current event ∧ system.step current event = some next ∧
      system.runFrom next second = some final := by
  induction events generalizing state with
  | nil => exact absurd trivial missed
  | cons event rest ih =>
      rcases runFrom_cons.mp ran with ⟨next, stepped, ranRest⟩
      by_cases holds : guard state event
      · have missedRest : ¬system.Along guard next rest := by
          intro along
          apply missed
          refine ⟨holds, fun other stepped' => ?_⟩
          rw [stepped] at stepped'
          cases stepped'
          exact along
        rcases ih ranRest missedRest with
          ⟨first, bad, second, current, after, shape, ranFirst, along, fails, steppedBad, ranSecond⟩
        refine ⟨event :: first, bad, second, current, after, ?_, ?_, ?_, fails, steppedBad, ranSecond⟩
        · rw [shape, List.cons_append]
        · exact runFrom_cons.mpr ⟨next, stepped, ranFirst⟩
        · refine ⟨holds, fun other stepped' => ?_⟩
          rw [stepped] at stepped'
          cases stepped'
          exact along
      · exact ⟨[], event, rest, state, next, rfl, rfl, trivial, holds, stepped, ranRest⟩

/-! ## Invariants -/

/-- A predicate preserved by every guarded step holds at the end of a guarded run. -/
theorem invariant_along {guard : State → Event → Prop} (Inv : State → Prop)
    (preserved : ∀ current event next, Inv current → guard current event →
      system.step current event = some next → Inv next)
    {state final : State} {events : List Event} (start : Inv state)
    (ran : system.runFrom state events = some final) (along : system.Along guard state events) :
    Inv final := by
  induction events generalizing state with
  | nil =>
      simp only [runFrom_nil, Option.some.injEq] at ran
      exact ran ▸ start
  | cons event rest ih =>
      rcases runFrom_cons.mp ran with ⟨next, stepped, ranRest⟩
      exact ih (preserved _ _ _ start along.1 stepped) ranRest (along.2 next stepped)

theorem invariant (Inv : State → Prop)
    (preserved : ∀ current event next, Inv current →
      system.step current event = some next → Inv next)
    {state final : State} {events : List Event} (start : Inv state)
    (ran : system.runFrom state events = some final) : Inv final := by
  have unguarded := system.along_true state events
  refine invariant_along Inv ?_ start ran unguarded
  intro current event next holds _ stepped
  exact preserved current event next holds stepped

/-- A property that is lost exactly by the steps missing a guard holds at the end of a run
exactly if it held at its start and every step met the guard. -/
theorem good_iff_along (guard : State → Event → Prop) (Inv Good : State → Prop)
    (preserved : ∀ current event next, Inv current →
      system.step current event = some next → Inv next)
    (good_step : ∀ current event next, Inv current →
      system.step current event = some next → (Good next ↔ Good current ∧ guard current event))
    {state final : State} {events : List Event} (start : Inv state)
    (ran : system.runFrom state events = some final) :
    Good final ↔ Good state ∧ system.Along guard state events := by
  induction events generalizing state with
  | nil =>
      simp only [runFrom_nil, Option.some.injEq] at ran
      simp [ran, Along]
  | cons event rest ih =>
      rcases runFrom_cons.mp ran with ⟨next, stepped, ranRest⟩
      have rest_iff := ih (preserved _ _ _ start stepped) ranRest
      simp [rest_iff, good_step _ _ _ start stepped, Along, stepped, and_assoc]

/-- Two guards that say the same of a step from a good state, one of them keeping states
good, are met by the same runs. -/
theorem along_iff_along {claimed guard : State → Event → Prop} (Inv Good : State → Prop)
    (preserved : ∀ current event next, Inv current →
      system.step current event = some next → Inv next)
    (good_step : ∀ current event next, claimed current event →
      system.step current event = some next → Good next)
    (step_iff : ∀ current event next, Inv current → Good current →
      system.step current event = some next → (claimed current event ↔ guard current event))
    {state final : State} {events : List Event} (start : Inv state) (good : Good state)
    (ran : system.runFrom state events = some final) :
    system.Along claimed state events ↔ system.Along guard state events := by
  induction events generalizing state with
  | nil => simp [Along]
  | cons event rest ih =>
      rcases runFrom_cons.mp ran with ⟨next, stepped, ranRest⟩
      have same := step_iff _ _ _ start good stepped
      simp only [Along, stepped, Option.some.injEq, forall_eq', ← same]
      apply and_congr_right
      intro kept
      exact ih (preserved _ _ _ start stepped) (good_step _ _ _ kept stepped) ranRest

/-- An invariant that may speak about the events of the run so far. -/
theorem history_invariant_along {guard : State → Event → Prop}
    {Inv : List Event → State → Prop} {state : State}
    (preserved : ∀ past current event next, system.runFrom state past = some current →
      Inv past current → guard current event →
      system.step current event = some next → Inv (past ++ [event]) next)
    (start : Inv [] state) {events : List Event} {final : State}
    (ran : system.runFrom state events = some final) (along : system.Along guard state events) :
    Inv events final := by
  induction events using List.reverseRecOn generalizing final with
  | nil =>
      simp only [runFrom_nil, Option.some.injEq] at ran
      exact ran ▸ start
  | append_singleton past event ih =>
      rcases runFrom_append.mp ran with ⟨current, ranPast, steppedLast⟩
      rw [runFrom_singleton] at steppedLast
      rcases (along_append ranPast).mp along with ⟨alongPast, alongLast⟩
      exact preserved past current event final ranPast (ih ranPast alongPast) alongLast.1
        steppedLast

/-! ## Simulation -/

/-- The events of another system that mirror those of a run, given what each event becomes in
the state it is taken from. -/
def mirror {Mirrored : Type v} (system : System State Event) (translate : State → Event → Mirrored)
    (state : State) : List Event → List Mirrored
  | [] => []
  | event :: rest =>
      translate state event ::
        ((system.step state event).map fun next => mirror system translate next rest).getD []

theorem mirror_self {state final : State} {events : List Event}
    (ran : system.runFrom state events = some final) :
    system.mirror (fun _ event => event) state events = events := by
  induction events generalizing state with
  | nil => rfl
  | cons event rest ih =>
      rcases runFrom_cons.mp ran with ⟨next, stepped, ranRest⟩
      rw [mirror, stepped, Option.map_some, Option.getD_some, ih ranRest]

/-- If each step is mirrored by one of the other system that keeps the states related, so is
each run. -/
theorem simulation {Other : Type u} {Mirrored : Type v} {other : System Other Mirrored}
    (translate : State → Event → Mirrored) (Related : State → Other → Prop)
    (step_simulated : ∀ current event next mirrored, Related current mirrored →
      system.step current event = some next →
      ∃ after, other.step mirrored (translate current event) = some after ∧ Related next after)
    {state final : State} {start : Other} {events : List Event} (related : Related state start)
    (ran : system.runFrom state events = some final) :
    ∃ ending, other.runFrom start (system.mirror translate state events) = some ending ∧
      Related final ending := by
  induction events generalizing state start with
  | nil =>
      simp only [runFrom_nil, Option.some.injEq] at ran
      subst ran
      exact ⟨start, rfl, related⟩
  | cons event rest ih =>
      rcases runFrom_cons.mp ran with ⟨next, stepped, ranRest⟩
      rcases step_simulated _ _ _ _ related stepped with ⟨after, mirrored, relatedNext⟩
      rcases ih relatedNext ranRest with ⟨ending, ranOther, relatedFinal⟩
      refine ⟨ending, ?_, relatedFinal⟩
      rw [mirror, stepped, Option.map_some, Option.getD_some]
      exact runFrom_cons.mpr ⟨after, mirrored, ranOther⟩

end System

end MqttAccelero
