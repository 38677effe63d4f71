import Mathlib.Data.Int.Notation

/-!
# Binary semaphores

`osal_semaphore_*` over the binary semaphores of the kernel: one token, which is
there or not. A release while it is there is lost.

Waiting blocks, so a wait is described by how it ends, and there is no result
where it cannot end that way now.
-/

namespace MqttAccelero.Osal

structure Semaphore where
  /-- The token can be taken. -/
  available : Bool
deriving DecidableEq, Repr

inductive WaitEnd where
  | taken
  | timedOut
deriving DecidableEq, Repr

/-- `osal_semaphore_wait`: a token is taken at once, so the time only runs out without one. -/
def osalSemaphoreWait (sem : Semaphore) : WaitEnd → Option (Semaphore × ℤ)
  | .taken => if sem.available then some (⟨false⟩, 0) else none
  | .timedOut => if sem.available then none else some (sem, 1)

/-- `osal_semaphore_release`; `xSemaphoreGive` fails if the token is there. -/
def osalSemaphoreRelease (sem : Semaphore) : Semaphore × ℤ :=
  (⟨true⟩, if sem.available then 1 else 0)

/-- `osal_semaphore_create`, on what `xSemaphoreCreateBinary` returns. A token that is there
from the start is taken. -/
def osalSemaphoreCreate (created : Option Semaphore) : Option Semaphore :=
  created.map fun sem =>
    match osalSemaphoreWait sem .taken with
    | some (emptied, _) => emptied
    | none => sem

@[simp]
theorem osalSemaphoreRelease_fst (sem : Semaphore) : (osalSemaphoreRelease sem).1 = ⟨true⟩ := rfl

/-- Semaphores are created empty. -/
theorem osalSemaphoreCreate_eq {created : Option Semaphore} {sem : Semaphore}
    (exists_sem : osalSemaphoreCreate created = some sem) : sem = ⟨false⟩ := by
  rcases created with _ | ⟨_ | _⟩
  · cases exists_sem
  · cases exists_sem
    rfl
  · cases exists_sem
    rfl

theorem osalSemaphoreWait_eq_zero {sem after : Semaphore} {waitEnd : WaitEnd}
    (waited : osalSemaphoreWait sem waitEnd = some (after, 0)) :
    sem = ⟨true⟩ ∧ after = ⟨false⟩ ∧ waitEnd = .taken := by
  rcases sem with ⟨_ | _⟩ <;> cases waitEnd <;> simp_all [osalSemaphoreWait]

theorem osalSemaphoreWait_ne_zero {sem after : Semaphore} {waitEnd : WaitEnd} {ret : ℤ}
    (waited : osalSemaphoreWait sem waitEnd = some (after, ret)) (failed : ret ≠ 0) :
    sem = ⟨false⟩ ∧ after = ⟨false⟩ ∧ waitEnd = .timedOut := by
  rcases sem with ⟨_ | _⟩ <;> cases waitEnd <;> simp_all [osalSemaphoreWait]

end MqttAccelero.Osal
