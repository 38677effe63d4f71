import Mathlib.Data.Int.Notation
import MqttAccelero.Lib.Ledger

/-!
# Threads, semaphores and mutexes on the kernel heap

What `osal_thread_create`, `osal_thread_delete` and the functions that create
and delete semaphores and mutexes allocate and free. How each `pvPortMalloc`
ends is part of the call.

A failed assertion does not return: both `assert` and `configASSERT` end in an
endless loop with interrupts off. `vPortFree` asserts that the block it is given
is allocated. The idle task's clean-up after a thread that deletes itself counts
as part of the deletion.
-/

namespace MqttAccelero.Osal.Objects

open Ledger

inductive Outcome (Ret : Type) where
  | returned (ret : Ret)
  /-- An assertion has failed. -/
  | hung
deriving DecidableEq, Repr

/-- A live thread. -/
structure Thread where
  stack : Block
  tcb : Block
deriving DecidableEq, Repr

def Thread.blocks (thread : Thread) : List Block := [thread.tcb, thread.stack]

/-- Whether the pointers that `osal_thread_create` asserts are given. -/
structure ThreadArgs where
  name : Bool
  func : Bool
deriving DecidableEq, Repr

/-- Where the allocations of `osal_thread_create` find room, if they do. -/
structure ThreadAllocs where
  handle : Option ℕ
  stack : Option ℕ
  tcb : Option ℕ
deriving DecidableEq, Repr

def pvPortMalloc (heap : Heap) (outcome : Option ℕ) : Option (Heap × Option Block) :=
  heap.alloc outcome

def vPortFree (heap : Heap) (block : Block) : Heap × Outcome Unit :=
  match heap.free block with
  | some after => (after, .returned ())
  | none => (heap, .hung)

/-- `xTaskCreate`, for a stack that grows down. -/
def xTaskCreate (heap : Heap) (allocs : ThreadAllocs) : Option (Heap × Outcome (Option Thread)) :=
  (pvPortMalloc heap allocs.stack).bind fun (heap, pxStack) =>
    match pxStack with
    | none => some (heap, .returned none)
    | some stack =>
        (pvPortMalloc heap allocs.tcb).map fun (heap, pxNewTcb) =>
          match pxNewTcb with
          | some tcb => (heap, .returned (some ⟨stack, tcb⟩))
          | none =>
              match vPortFree heap stack with
              | (heap, .returned _) => (heap, .returned none)
              | (heap, .hung) => (heap, .hung)

/-- `osal_thread_create`. The block that `xHandle` starts with is forgotten: `xTaskCreate`
stores the handle of the thread over the pointer, and a failure returns NULL. -/
def osalThreadCreate (heap : Heap) (args : ThreadArgs) (allocs : ThreadAllocs) :
    Option (Heap × Outcome (Option Thread)) :=
  if !args.name || !args.func then some (heap, .hung)
  else
    (pvPortMalloc heap allocs.handle).bind fun (heap, _) => xTaskCreate heap allocs

/-- `vTaskDelete`, with `prvDeleteTCB`. -/
def vTaskDelete (heap : Heap) (thread : Thread) : Heap × Outcome Unit :=
  match vPortFree heap thread.stack with
  | (heap, .returned _) => vPortFree heap thread.tcb
  | (heap, .hung) => (heap, .hung)

/-- `vSemaphoreDelete`, which is `vQueueDelete`. -/
def vSemaphoreDelete (heap : Heap) (queue : Block) : Heap × Outcome Unit :=
  vPortFree heap queue

/-- `osal_semaphore_create`; that its token is taken allocates nothing. -/
def osalSemaphoreCreate (heap : Heap) (outcome : Option ℕ) : Option (Heap × Option Block) :=
  pvPortMalloc heap outcome

def osalMutexCreate (heap : Heap) (outcome : Option ℕ) : Option (Heap × Option Block) :=
  pvPortMalloc heap outcome

/-- `osal_semaphore_delete` -/
def osalSemaphoreDelete (heap : Heap) (sem : Option Block) : Heap × Outcome ℤ :=
  match sem with
  | none => (heap, .hung)
  | some queue =>
      match vSemaphoreDelete heap queue with
      | (heap, .returned _) => (heap, .returned 0)
      | (heap, .hung) => (heap, .hung)

def osalMutexDelete (heap : Heap) (mutex : Option Block) : Heap × Outcome ℤ :=
  osalSemaphoreDelete heap mutex

/-- `osal_thread_delete` -/
def osalThreadDelete (heap : Heap) (thread : Thread) : Heap × Outcome ℤ :=
  match vTaskDelete heap thread with
  | (heap, .returned _) => (heap, .returned 0)
  | (heap, .hung) => (heap, .hung)

variable {heap after : Heap} {block : Block} {thread : Thread}

/-! ## Creation -/

/-- `xTaskCreate` leaves behind the two blocks of a thread, or nothing. -/
theorem xTaskCreate_spec {allocs : ThreadAllocs} {outcome : Outcome (Option Thread)}
    (created : xTaskCreate heap allocs = some (after, outcome)) :
    (∃ thread, outcome = .returned (some thread) ∧ heap.Grows after thread.blocks) ∨
      (outcome = .returned none ∧ after.blocks = heap.blocks ∧
        heap.handedOut ≤ after.handedOut) := by
  simp only [xTaskCreate, pvPortMalloc, Option.bind_eq_some_iff, Prod.exists] at created
  rcases created with ⟨middle, pxStack, gotStack, created⟩
  have grown := Heap.alloc_grows gotStack
  cases pxStack with
  | none =>
      cases created
      exact .inr ⟨rfl, grown.blocks, grown.handedOut⟩
  | some stack =>
      simp only [Option.map_eq_some_iff, Prod.exists] at created
      rcases created with ⟨last, pxNewTcb, gotTcb, ended⟩
      have grownAgain := Heap.alloc_grows gotTcb
      cases pxNewTcb with
      | some tcb =>
          cases ended
          exact .inl ⟨⟨stack, tcb⟩, rfl, grown.trans grownAgain⟩
      | none =>
          -- The stack is freed again, and was the block allocated last.
          have total : heap.Grows last [stack] := grown.trans grownAgain
          rcases total.free_last with ⟨undone, freed, blocks, handedOut⟩
          simp only [vPortFree, freed] at ended
          cases ended
          exact .inr ⟨rfl, blocks, handedOut⟩

/-- Before that, `osal_thread_create` has allocated a block that nothing refers to. -/
theorem osalThreadCreate_spec {args : ThreadArgs} {allocs : ThreadAllocs}
    {outcome : Outcome (Option Thread)}
    (created : osalThreadCreate heap args allocs = some (after, outcome)) :
    (¬(args.name ∧ args.func) ∧ outcome = .hung ∧ after = heap) ∨
      ((args.name ∧ args.func) ∧ ∃ middle forgotten, heap.Grows middle forgotten.toList ∧
        (forgotten = none ↔ allocs.handle = none) ∧
        xTaskCreate middle allocs = some (after, outcome)) := by
  rcases args with ⟨_ | _, _ | _⟩
  case true.true =>
      simp only [osalThreadCreate, Bool.not_true, Bool.or_self, Bool.false_eq_true, if_false,
        pvPortMalloc, Option.bind_eq_some_iff, Prod.exists] at created
      rcases created with ⟨middle, forgotten, got, created⟩
      exact .inr ⟨⟨rfl, rfl⟩, middle, forgotten, Heap.alloc_grows got,
        Heap.alloc_eq_none_iff got, created⟩
  all_goals
    cases created
    exact .inl ⟨by simp, rfl, rfl⟩

/-! ## Deletion -/

theorem vPortFree_spec {outcome : Outcome Unit} (freed : vPortFree heap block = (after, outcome)) :
    heap.Shrinks after ∧ (outcome = .returned () → block ∉ after.blocks) := by
  simp only [vPortFree] at freed
  split at freed
  next rest gone =>
    cases freed
    exact ⟨Heap.free_shrinks gone, fun _ => Heap.not_mem_of_free gone⟩
  next =>
    cases freed
    exact ⟨.refl heap, nofun⟩

theorem osalThreadDelete_spec {outcome : Outcome ℤ}
    (deleted : osalThreadDelete heap thread = (after, outcome)) :
    heap.Shrinks after ∧
      (outcome = .hung ∨ outcome = .returned 0 ∧ ∀ block ∈ thread.blocks, block ∉ after.blocks) := by
  simp only [osalThreadDelete, vTaskDelete] at deleted
  rcases freedStack : vPortFree heap thread.stack with ⟨middle, _ | _⟩
  · rcases freedTcb : vPortFree middle thread.tcb with ⟨last, _ | _⟩
    · have first := vPortFree_spec freedStack
      have second := vPortFree_spec freedTcb
      simp only [freedStack, freedTcb] at deleted
      cases deleted
      refine ⟨first.1.trans second.1, .inr ⟨rfl, ?_⟩⟩
      intro block isOwn
      simp only [Thread.blocks, List.mem_cons, List.not_mem_nil, or_false] at isOwn
      rcases isOwn with rfl | rfl
      · exact second.2 rfl
      · exact Heap.not_mem_of_shrinks second.1 (first.2 rfl)
    · simp only [freedStack, freedTcb] at deleted
      cases deleted
      exact ⟨(vPortFree_spec freedStack).1.trans (vPortFree_spec freedTcb).1, .inl rfl⟩
  · simp only [freedStack] at deleted
    cases deleted
    exact ⟨(vPortFree_spec freedStack).1, .inl rfl⟩

theorem osalSemaphoreDelete_spec {sem : Option Block} {outcome : Outcome ℤ}
    (deleted : osalSemaphoreDelete heap sem = (after, outcome)) :
    heap.Shrinks after ∧
      (outcome = .hung ∨ ∀ block, sem = some block → block ∉ after.blocks) := by
  cases sem with
  | none =>
      cases deleted
      exact ⟨.refl heap, .inl rfl⟩
  | some queue =>
      simp only [osalSemaphoreDelete, vSemaphoreDelete] at deleted
      rcases freed : vPortFree heap queue with ⟨last, _ | _⟩
      · simp only [freed] at deleted
        cases deleted
        refine ⟨(vPortFree_spec freed).1, .inr ?_⟩
        rintro block ⟨⟩
        exact (vPortFree_spec freed).2 rfl
      · simp only [freed] at deleted
        cases deleted
        exact ⟨(vPortFree_spec freed).1, .inl rfl⟩

end MqttAccelero.Osal.Objects
