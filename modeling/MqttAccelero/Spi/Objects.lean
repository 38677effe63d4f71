import Mathlib.Logic.Function.Basic
import Mathlib.Tactic.Tauto
import MqttAccelero.Lib.System
import MqttAccelero.Osal.KernelObjects
import MqttAccelero.Spi.Sensor

/-!
# The kernel objects of threads and SPI buses

`spi_init` creates two semaphores and a mutex and stores them in the entry of
the bus; `spi_deinit` deletes what is stored there and leaves the pointers as
they are. Together with the creation and deletion of threads these are the
calls of a run here, in any order and with any pattern of allocations that
succeed or fail.

A block is accounted for as long as a live thread owns it or an entry whose last
`spi_init` succeeded refers to it. `osal_thread_create` loses one block whenever
it gets it. `spi_init` loses the objects that the entry has already, and those
it has created itself when it breaks off.
-/

namespace MqttAccelero.Spi.Objects

open Ledger Osal.Objects

/-- The fields of `spi_conf_t` that point to kernel objects. -/
structure SpiObjects where
  rxSem : Option Block
  txSem : Option Block
  mutex : Option Block
deriving DecidableEq, Repr

/-- What `HAL_SPI_Init` returns, and how the allocations of `spi_init` end. -/
structure SpiAllocs where
  halSpiInit : ℤ
  rxSem : Option ℕ
  txSem : Option ℕ
  mutex : Option ℕ
deriving DecidableEq, Repr

/-- The outcomes as the initialisation of the sensor sees them. -/
def SpiAllocs.outcomes (boot : SpiAllocs) : Sensor.SpiBoot :=
  ⟨boot.halSpiInit, boot.rxSem.isSome, boot.txSem.isSome, boot.mutex.isSome⟩

def SpiObjects.blocks (spi : SpiObjects) : List Block :=
  spi.rxSem.toList ++ spi.txSem.toList ++ spi.mutex.toList

def spiInit (heap : Heap) (spi : SpiObjects) (boot : SpiAllocs) : Option (Heap × SpiObjects × ℤ) :=
  if boot.halSpiInit ≠ 0 then some (heap, spi, 1)
  else
    (osalSemaphoreCreate heap boot.rxSem).bind fun (heap, rxSem) =>
      let spi := { spi with rxSem := rxSem }
      if rxSem = none then some (heap, spi, 1)
      else
        (osalSemaphoreCreate heap boot.txSem).bind fun (heap, txSem) =>
          let spi := { spi with txSem := txSem }
          if txSem = none then some (heap, spi, 1)
          else
            (osalMutexCreate heap boot.mutex).map fun (heap, mutex) =>
              (heap, { spi with mutex := mutex }, if mutex = none then 1 else 0)

/-- `spi_deinit`. The fields of the entry stay as they are. -/
def spiDeinit (heap : Heap) (spi : SpiObjects) : Heap × Outcome ℤ :=
  match osalSemaphoreDelete heap spi.txSem with
  | (heap, .hung) => (heap, .hung)
  | (heap, .returned _) =>
      match osalSemaphoreDelete heap spi.rxSem with
      | (heap, .hung) => (heap, .hung)
      | (heap, .returned _) =>
          match osalMutexDelete heap spi.mutex with
          | (heap, .hung) => (heap, .hung)
          | (heap, .returned _) => (heap, .returned 0)

inductive CallEnd where
  | succeeded
  | failed
  | hung
deriving DecidableEq, Repr

structure ObjState (SpiId : Type) where
  heap : Heap
  /-- The threads that are live. -/
  threads : List Thread
  spiList : SpiId → SpiObjects
  /-- The last `spi_init` of the entry has succeeded. -/
  inited : SpiId → Bool
  last : CallEnd

inductive ObjCall (SpiId : Type) where
  | osalThreadCreate (args : ThreadArgs) (allocs : ThreadAllocs)
  /-- The handle is NULL or that of a live thread. -/
  | osalThreadDelete (handle : Option Block)
  | spiInit (id : SpiId) (boot : SpiAllocs)
  | spiDeinit (id : SpiId)
deriving DecidableEq, Repr

variable {SpiId : Type}

namespace ObjState

def created (state : ObjState SpiId) (heap : Heap) : Outcome (Option Thread) → ObjState SpiId
  | .hung => { state with heap := heap, last := .hung }
  | .returned none => { state with heap := heap, last := .failed }
  | .returned (some thread) =>
      { state with heap := heap, threads := thread :: state.threads, last := .succeeded }

def deleted (state : ObjState SpiId) (thread : Thread) (heap : Heap) :
    Outcome ℤ → ObjState SpiId
  | .hung => { state with heap := heap, last := .hung }
  | .returned _ =>
      { state with heap := heap, threads := state.threads.erase thread, last := .succeeded }

def booted [DecidableEq SpiId] (state : ObjState SpiId) (id : SpiId) (heap : Heap) (spi : SpiObjects) (ret : ℤ) :
    ObjState SpiId :=
  { state with
    heap := heap
    spiList := Function.update state.spiList id spi
    inited := Function.update state.inited id (decide (ret = 0))
    last := if ret = 0 then .succeeded else .failed }

def shutDown (state : ObjState SpiId) (heap : Heap) : Outcome ℤ → ObjState SpiId
  | .hung => { state with heap := heap, last := .hung }
  | .returned _ => { state with heap := heap, last := .succeeded }

end ObjState

def objStep [DecidableEq SpiId] (state : ObjState SpiId) (call : ObjCall SpiId) : Option (ObjState SpiId) :=
  if state.last = .hung then none
  else
    match call with
    | .osalThreadCreate args allocs =>
        (osalThreadCreate state.heap args allocs).map fun (heap, outcome) =>
          state.created heap outcome
    | .osalThreadDelete none => some { state with last := .hung }
    | .osalThreadDelete (some handle) =>
        (state.threads.find? fun thread => thread.tcb = handle).map fun thread =>
          let (heap, outcome) := osalThreadDelete state.heap thread
          state.deleted thread heap outcome
    | .spiInit id boot =>
        (spiInit state.heap (state.spiList id) boot).map fun (heap, spi, ret) =>
          state.booted id heap spi ret
    | .spiDeinit id =>
        let (heap, outcome) := spiDeinit state.heap (state.spiList id)
        some (state.shutDown heap outcome)

/-- The heap is empty and all pointers are NULL. -/
def objSystem (SpiId : Type) [DecidableEq SpiId] : System (ObjState SpiId) (ObjCall SpiId) where
  init := ⟨.empty, [], fun _ => ⟨none, none, none⟩, fun _ => false, .succeeded⟩
  step := objStep

/-! ## What is claimed of a call, and what decides it -/

/-- A live thread owns the block, or the entry of a bus that is up refers to it. -/
def ObjState.AccountedFor (state : ObjState SpiId) (block : Block) : Prop :=
  (∃ thread ∈ state.threads, block ∈ thread.blocks) ∨
    ∃ id, state.inited id ∧ block ∈ (state.spiList id).blocks

def ObjState.Accounted (state : ObjState SpiId) : Prop :=
  ∀ block ∈ state.heap.blocks, state.AccountedFor block

/-- After a call every block is accounted for, and if it has failed it has left allocated
what was allocated before it. -/
def ObjState.Keeps (state next : ObjState SpiId) : Prop :=
  next.Accounted ∧ (next.last = .failed → next.heap.blocks = state.heap.blocks)

def NothingLost [DecidableEq SpiId] (state : ObjState SpiId) (call : ObjCall SpiId) : Prop :=
  ∀ next, objStep state call = some next → state.Keeps next

/-- `spi_init` ends without success after it has created a semaphore. -/
def SpiAllocs.BreaksOff (boot : SpiAllocs) : Prop :=
  boot.halSpiInit = 0 ∧ boot.rxSem ≠ none ∧ (boot.txSem = none ∨ boot.mutex = none)

/-- The call drops no reference to a block that is allocated. -/
def DropsNothing (state : ObjState SpiId) : ObjCall SpiId → Prop
  | .osalThreadCreate args allocs => args.name ∧ args.func → allocs.handle = none
  | .osalThreadDelete _ => True
  | .spiInit id boot =>
      (∀ block ∈ (state.spiList id).blocks, block ∉ state.heap.blocks) ∧ ¬boot.BreaksOff
  | .spiDeinit _ => True

variable {state next : ObjState SpiId} {heap after : Heap} {block : Block}

theorem SpiObjects.mem_blocks {spi : SpiObjects} :
    block ∈ spi.blocks ↔
      spi.rxSem = some block ∨ spi.txSem = some block ∨ spi.mutex = some block := by
  simp [blocks]

/-! ## References -/

/-- What may refer to a block. -/
inductive Owner (SpiId : Type) where
  | thread (thread : Thread)
  | spi (id : SpiId)

def ObjState.Refers (state : ObjState SpiId) : Owner SpiId → Block → Prop
  | .thread thread, block => thread ∈ state.threads ∧ block ∈ thread.blocks
  | .spi id, block => block ∈ (state.spiList id).blocks

structure ObjInv (state : ObjState SpiId) : Prop where
  young : ∀ owner block, state.Refers owner block → block.serial < state.heap.handedOut
  /-- No block is referred to from two places. -/
  apart : ∀ owner other block, state.Refers owner block → state.Refers other block →
    owner = other

theorem ObjInv.narrowed (inv : ObjInv state)
    (later : state.heap.handedOut ≤ next.heap.handedOut)
    (refers : ∀ owner block, next.Refers owner block → state.Refers owner block) :
    ObjInv next where
  young owner block referred :=
    Nat.lt_of_lt_of_le (inv.young owner block (refers owner block referred)) later
  apart owner other block referred referredAgain :=
    inv.apart owner other block (refers owner block referred) (refers other block referredAgain)

/-- A step that lets one owner refer to new blocks, and drops other references at most,
keeps the references apart. -/
theorem ObjInv.changed (inv : ObjInv state) (who : Owner SpiId)
    (later : state.heap.handedOut ≤ next.heap.handedOut)
    (refers : ∀ owner block, next.Refers owner block → state.Refers owner block ∨
      (owner = who ∧ state.heap.handedOut ≤ block.serial ∧
        block.serial < next.heap.handedOut)) :
    ObjInv next := by
  constructor
  · intro owner block referred
    rcases refers owner block referred with before | ⟨-, -, young⟩
    · exact Nat.lt_of_lt_of_le (inv.young owner block before) later
    · exact young
  · intro owner other block referred referredAgain
    rcases refers owner block referred with before | ⟨isWho, fresh, -⟩
    · rcases refers other block referredAgain with beforeAgain | ⟨-, freshAgain, -⟩
      · exact inv.apart owner other block before beforeAgain
      · exact absurd (inv.young owner block before) (Nat.not_lt.mpr freshAgain)
    · rcases refers other block referredAgain with beforeAgain | ⟨isWhoAgain, -, -⟩
      · exact absurd (inv.young other block beforeAgain) (Nat.not_lt.mpr fresh)
      · rw [isWho, isWhoAgain]

/-- No block that is allocated only now is accounted for in the old state. -/
theorem ObjInv.not_accountedFor_of_fresh (inv : ObjInv state)
    (fresh : state.heap.handedOut ≤ block.serial) : ¬state.AccountedFor block := by
  rintro (⟨thread, live, isOwn⟩ | ⟨id, -, referred⟩)
  · exact absurd (inv.young (.thread thread) block ⟨live, isOwn⟩) (Nat.not_lt.mpr fresh)
  · exact absurd (inv.young (.spi id) block referred) (Nat.not_lt.mpr fresh)

/-! ## `spi_init` and `spi_deinit` -/

/-- Success stores exactly what was created; a failure that leaves something allocated is one
that broke off. What is returned is what `accelero_init` takes to be returned. -/
theorem spiInit_spec {spi stored : SpiObjects} {boot : SpiAllocs} {ret : ℤ}
    (booted : spiInit heap spi boot = some (after, stored, ret)) :
    ret = Sensor.spiInit boot.outcomes ∧
    ∃ new, heap.Grows after new ∧ (∀ block ∈ stored.blocks, block ∈ spi.blocks ∨ block ∈ new) ∧
      ((ret = 0 ∧ ¬boot.BreaksOff ∧ (∀ block, block ∈ stored.blocks ↔ block ∈ new)) ∨
        (ret = 1 ∧ (boot.BreaksOff ↔ new ≠ []))) := by
  by_cases up : boot.halSpiInit = 0
  case neg =>
    simp only [spiInit, ne_eq, up, not_false_eq_true, if_true, Option.some.injEq,
      Prod.mk.injEq] at booted
    rcases booted with ⟨rfl, rfl, rfl⟩
    refine ⟨?_, [], .refl heap, fun block referred => .inl referred, .inr ⟨rfl, ?_⟩⟩
    · simp [Sensor.spiInit, SpiAllocs.outcomes, up]
    · simp [SpiAllocs.BreaksOff, up]
  simp only [spiInit, up, ne_eq, not_true_eq_false, if_false, osalSemaphoreCreate,
    osalMutexCreate, pvPortMalloc, Option.bind_eq_some_iff, Prod.exists] at booted
  rcases booted with ⟨first, rxSem, gotRx, booted⟩
  have grownRx := Heap.alloc_grows gotRx
  have noRx := Heap.alloc_eq_none_iff gotRx
  cases rxSem with
  | none =>
      cases booted
      refine ⟨?_, [], grownRx, ?_, .inr ⟨rfl, ?_⟩⟩
      · simp [Sensor.spiInit, SpiAllocs.outcomes, up, noRx.mp rfl]
      · intro block referred
        simp only [SpiObjects.mem_blocks, reduceCtorEq, false_or] at referred ⊢
        exact .inl (.inr referred)
      · simp [SpiAllocs.BreaksOff, noRx.mp rfl]
  | some rx =>
      have gotOne : boot.rxSem ≠ none := fun failed => by simpa using noRx.mpr failed
      simp only [reduceCtorEq, if_false, Option.bind_eq_some_iff, Prod.exists] at booted
      rcases booted with ⟨second, txSem, gotTx, booted⟩
      have grownTx := grownRx.trans (Heap.alloc_grows gotTx)
      have noTx := Heap.alloc_eq_none_iff gotTx
      cases txSem with
      | none =>
          cases booted
          refine ⟨?_, _, grownTx, ?_, .inr ⟨rfl, ?_⟩⟩
          · simp [Sensor.spiInit, SpiAllocs.outcomes, up, noTx.mp rfl]
          · intro block referred
            simp only [SpiObjects.mem_blocks, reduceCtorEq, false_or, Option.some.injEq] at referred
            rcases referred with rfl | referred
            · simp
            · simp [SpiObjects.mem_blocks, referred]
          · simp [SpiAllocs.BreaksOff, up, gotOne, noTx.mp rfl]
      | some tx =>
          simp only [reduceCtorEq, if_false, Option.map_eq_some_iff, Prod.exists,
            Prod.mk.injEq] at booted
          rcases booted with ⟨third, mutex, gotMutex, rfl, rfl, rfl⟩
          have grownMutex := grownTx.trans (Heap.alloc_grows gotMutex)
          have noMutex := Heap.alloc_eq_none_iff gotMutex
          have gotTwo : boot.txSem ≠ none := fun failed => by simpa using noTx.mpr failed
          have stored : ∀ block ∈ (⟨some rx, some tx, mutex⟩ : SpiObjects).blocks,
              block ∈ mutex.toList ++ ((some tx).toList ++ (some rx).toList) := by
            intro block referred
            simp only [SpiObjects.mem_blocks] at referred
            simp only [List.mem_append, Option.mem_toList]
            rcases referred with isRx | isTx | isMutex
            · exact .inr (.inr isRx)
            · exact .inr (.inl isTx)
            · exact .inl isMutex
          cases mutex with
          | none =>
              refine ⟨?_, _, grownMutex, fun block referred => .inr (stored block referred),
                .inr ⟨rfl, ?_⟩⟩
              · simp [Sensor.spiInit, SpiAllocs.outcomes, noMutex.mp rfl]
              · simp [SpiAllocs.BreaksOff, up, gotOne, noMutex.mp rfl]
          | some created =>
              have gotThree : boot.mutex ≠ none := fun failed => by simpa using noMutex.mpr failed
              refine ⟨?_, _, grownMutex, fun block referred => .inr (stored block referred),
                .inl ⟨by simp, ?_, fun block => ⟨stored block, ?_⟩⟩⟩
              · simp [Sensor.spiInit, SpiAllocs.outcomes, up, gotOne, gotTwo, gotThree]
              · simp [SpiAllocs.BreaksOff, gotTwo, gotThree]
              · simp only [SpiObjects.mem_blocks, List.mem_append, Option.mem_toList]
                tauto

/-- When `spi_deinit` returns, nothing that the entry refers to is allocated, so that `spi_init`
may be called again. -/
theorem spiDeinit_spec {spi : SpiObjects} {outcome : Outcome ℤ}
    (down : spiDeinit heap spi = (after, outcome)) :
    heap.Shrinks after ∧ (outcome = .hung ∨ ∀ block ∈ spi.blocks, block ∉ after.blocks) := by
  simp only [spiDeinit] at down
  rcases deletedTx : osalSemaphoreDelete heap spi.txSem with ⟨first, _ | _⟩
  case hung =>
    simp only [deletedTx] at down
    cases down
    exact ⟨(osalSemaphoreDelete_spec deletedTx).1, .inl rfl⟩
  rcases osalSemaphoreDelete_spec deletedTx with ⟨shrunkTx, _ | goneTx⟩
  · contradiction
  rcases deletedRx : osalSemaphoreDelete first spi.rxSem with ⟨second, _ | _⟩
  case hung =>
    simp only [deletedTx, deletedRx] at down
    cases down
    exact ⟨shrunkTx.trans (osalSemaphoreDelete_spec deletedRx).1, .inl rfl⟩
  rcases osalSemaphoreDelete_spec deletedRx with ⟨shrunkRx, _ | goneRx⟩
  · contradiction
  rcases deletedMutex : osalMutexDelete second spi.mutex with ⟨third, _ | _⟩
  case hung =>
    simp only [deletedTx, deletedRx, deletedMutex] at down
    cases down
    exact ⟨(shrunkTx.trans shrunkRx).trans (osalSemaphoreDelete_spec deletedMutex).1, .inl rfl⟩
  rcases osalSemaphoreDelete_spec deletedMutex with ⟨shrunkMutex, _ | goneMutex⟩
  · contradiction
  simp only [deletedTx, deletedRx, deletedMutex] at down
  cases down
  refine ⟨(shrunkTx.trans shrunkRx).trans shrunkMutex, .inr ?_⟩
  intro block referred
  rcases SpiObjects.mem_blocks.mp referred with isRx | isTx | isMutex
  · exact Heap.not_mem_of_shrinks shrunkMutex (goneRx block isRx)
  · exact Heap.not_mem_of_shrinks (shrunkRx.trans shrunkMutex) (goneTx block isTx)
  · exact goneMutex block isMutex

/-! ## Steps -/

/-- What is known of a step: references stay apart, and from a state in which every block is
accounted for it keeps the account exactly if it drops nothing. -/
structure StepSpec (state next : ObjState SpiId) (call : ObjCall SpiId) : Prop where
  inv : ObjInv next
  keeps_iff : state.Accounted → (state.Keeps next ↔ DropsNothing state call)

/-- Where everything that was accounted for still is, only new blocks can be lost. -/
theorem accounted_iff_of_grown {new : List Block} (accounted : state.Accounted)
    (grown : next.heap.blocks = new ++ state.heap.blocks)
    (stays : ∀ block, state.AccountedFor block → next.AccountedFor block) :
    next.Accounted ↔ ∀ block ∈ new, next.AccountedFor block := by
  constructor
  · intro kept block isNew
    apply kept
    rw [grown]
    exact List.mem_append_left _ isNew
  · intro ownedNew block allocated
    rw [grown] at allocated
    rcases List.mem_append.mp allocated with isNew | before
    · exact ownedNew block isNew
    · exact stays block (accounted block before)

/-- A step that frees at most, and whose references to what is left are as they were, loses
nothing. -/
theorem keeps_of_shrinks (accounted : state.Accounted)
    (shrunk : state.heap.Shrinks next.heap) (notFailed : next.last ≠ .failed)
    (stays : ∀ block ∈ next.heap.blocks, state.AccountedFor block → next.AccountedFor block) :
    state.Keeps next := by
  refine ⟨?_, fun failed => absurd failed notFailed⟩
  intro block allocated
  exact stays block allocated (accounted block (shrunk.subset allocated))

/-- A thread has been created, behind the block that is forgotten if there is one. -/
theorem created_thread_spec {middle : Heap} {forgotten : Option Block} {thread : Thread}
    (inv : ObjInv state) (grown : state.heap.Grows middle forgotten.toList)
    (grownThread : middle.Grows heap thread.blocks) :
    ObjInv (state.created heap (.returned (some thread))) ∧
      (state.Accounted →
        (state.Keeps (state.created heap (.returned (some thread))) ↔ forgotten = none)) := by
  have total := grown.trans grownThread
  constructor
  · apply inv.changed (.thread thread) total.handedOut
    intro owner block refers
    cases owner with
    | thread other =>
        rcases refers with ⟨live, isOwn⟩
        rcases List.mem_cons.mp live with rfl | before
        · right
          have isNew := List.mem_append_left forgotten.toList isOwn
          exact ⟨rfl, total.fresh block isNew, total.serial_lt isNew⟩
        · exact .inl ⟨before, isOwn⟩
    | spi id => exact .inl refers
  intro accounted
  have stays : ∀ block, state.AccountedFor block →
      (state.created heap (.returned (some thread))).AccountedFor block := by
    rintro block (⟨owner, live, isOwn⟩ | referred)
    · exact .inl ⟨owner, List.mem_cons_of_mem _ live, isOwn⟩
    · exact .inr referred
  rw [ObjState.Keeps, accounted_iff_of_grown accounted total.blocks stays]
  constructor
  · rintro ⟨owned, -⟩
    cases forgotten with
    | none => rfl
    | some block =>
        exfalso
        have older := inv.not_accountedFor_of_fresh (grown.fresh block (by simp))
        rcases owned block (by simp) with ⟨other, live, isOwn⟩ | referred
        · rcases List.mem_cons.mp live with rfl | before
          · have serial_lt := grown.serial_lt (List.mem_singleton_self block)
            exact absurd serial_lt (Nat.not_lt.mpr (grownThread.fresh block isOwn))
          · exact older (.inl ⟨other, before, isOwn⟩)
        · exact older (.inr referred)
  · rintro rfl
    refine ⟨?_, nofun⟩
    intro block isNew
    simp only [Option.toList_none, List.append_nil] at isNew
    exact .inl ⟨thread, List.mem_cons_self, isNew⟩

/-- No thread has been created, and at most the forgotten block is left. -/
theorem created_failure_spec {forgotten : Option Block} (inv : ObjInv state)
    (blocks : heap.blocks = forgotten.toList ++ state.heap.blocks)
    (fresh : ∀ block ∈ forgotten.toList, state.heap.handedOut ≤ block.serial)
    (later : state.heap.handedOut ≤ heap.handedOut) :
    ObjInv (state.created heap (.returned none)) ∧
      (state.Accounted →
        (state.Keeps (state.created heap (.returned none)) ↔ forgotten = none)) := by
  constructor
  · apply inv.narrowed later
    intro owner block refers
    cases owner with
    | thread other => exact refers
    | spi id => exact refers
  intro accounted
  have accounted_iff : (state.created heap (.returned none)).Accounted ↔
      ∀ block ∈ forgotten.toList, (state.created heap (.returned none)).AccountedFor block :=
    accounted_iff_of_grown accounted blocks fun _ owned => owned
  rw [ObjState.Keeps, accounted_iff]
  constructor
  · rintro ⟨owned, -⟩
    cases forgotten with
    | none => rfl
    | some block =>
        exact absurd (owned block (by simp))
          (inv.not_accountedFor_of_fresh (fresh block (by simp)))
  · rintro rfl
    exact ⟨by simp, fun _ => blocks⟩

theorem created_spec {args : ThreadArgs} {allocs : ThreadAllocs}
    {outcome : Outcome (Option Thread)} (inv : ObjInv state)
    (created : osalThreadCreate state.heap args allocs = some (heap, outcome)) :
    StepSpec state (state.created heap outcome) (.osalThreadCreate args allocs) := by
  rcases osalThreadCreate_spec created with
    ⟨unasserted, rfl, rfl⟩ | ⟨asserted, middle, forgotten, grown, noHandle, made⟩
  · refine ⟨⟨inv.young, inv.apart⟩, fun accounted => ?_⟩
    have keeps : state.Keeps (state.created state.heap .hung) :=
      ⟨accounted, nofun⟩
    exact iff_of_true keeps (fun asserted => absurd asserted unasserted)
  have dropsNothing_iff :
      DropsNothing state (.osalThreadCreate args allocs) ↔ forgotten = none := by
    rw [noHandle]
    exact ⟨fun drops => drops asserted, fun none _ => none⟩
  rcases xTaskCreate_spec made with ⟨thread, rfl, grownThread⟩ | ⟨rfl, same, later⟩
  · rcases created_thread_spec inv grown grownThread with ⟨inv', keeps_iff⟩
    exact ⟨inv', fun accounted => (keeps_iff accounted).trans dropsNothing_iff.symm⟩
  · rcases created_failure_spec inv (same.trans grown.blocks) grown.fresh
      (Nat.le_trans grown.handedOut later) with ⟨inv', keeps_iff⟩
    exact ⟨inv', fun accounted => (keeps_iff accounted).trans dropsNothing_iff.symm⟩

theorem deleted_spec {thread : Thread} {outcome : Outcome ℤ} {handle : Option Block}
    (inv : ObjInv state) (deleted : osalThreadDelete state.heap thread = (heap, outcome)) :
    StepSpec state (state.deleted thread heap outcome) (.osalThreadDelete handle) := by
  rcases osalThreadDelete_spec deleted with ⟨shrunk, rfl | ⟨rfl, gone⟩⟩
  · have inv' : ObjInv (state.deleted thread heap .hung) := by
      apply inv.narrowed (Nat.le_of_eq shrunk.handedOut.symm)
      intro owner block refers
      cases owner with
      | thread other => exact refers
      | spi id => exact refers
    refine ⟨inv', fun accounted => iff_of_true ?_ trivial⟩
    exact keeps_of_shrinks accounted shrunk nofun fun _ _ owned => owned
  · have inv' : ObjInv (state.deleted thread heap (.returned 0)) := by
      apply inv.narrowed (Nat.le_of_eq shrunk.handedOut.symm)
      intro owner block refers
      cases owner with
      | thread other => exact ⟨List.mem_of_mem_erase refers.1, refers.2⟩
      | spi id => exact refers
    refine ⟨inv', fun accounted => iff_of_true ?_ trivial⟩
    refine keeps_of_shrinks accounted shrunk (by simp [ObjState.deleted]) ?_
    rintro block allocated (⟨owner, live, isOwn⟩ | referred)
    · -- What the thread owned is not allocated any more.
      have other : owner ≠ thread := by
        rintro rfl
        exact gone block isOwn allocated
      exact .inl ⟨owner, (List.mem_erase_of_ne other).mpr live, isOwn⟩
    · exact .inr referred

theorem shutDown_spec {id : SpiId} {outcome : Outcome ℤ} (inv : ObjInv state)
    (down : spiDeinit state.heap (state.spiList id) = (heap, outcome)) :
    StepSpec state (state.shutDown heap outcome) (.spiDeinit id) := by
  have shrunk := (spiDeinit_spec down).1
  have young : ∀ owner block, state.Refers owner block → block.serial < heap.handedOut := by
    rw [shrunk.handedOut]
    exact inv.young
  cases outcome with
  | hung =>
      refine ⟨⟨young, inv.apart⟩, fun accounted => iff_of_true ?_ trivial⟩
      exact keeps_of_shrinks accounted shrunk nofun fun _ _ owned => owned
  | returned ret =>
      refine ⟨⟨young, inv.apart⟩, fun accounted => iff_of_true ?_ trivial⟩
      exact keeps_of_shrinks accounted shrunk nofun fun _ _ owned => owned

variable {id : SpiId} {stored : SpiObjects} {ret : ℤ}

/-- Somebody else than the entry accounts for the block. -/
def ObjState.AccountedElsewhere (state : ObjState SpiId) (id : SpiId) (block : Block) : Prop :=
  (∃ thread ∈ state.threads, block ∈ thread.blocks) ∨
    ∃ other ≠ id, state.inited other ∧ block ∈ (state.spiList other).blocks

/-- What an entry refers to is accounted for nowhere else. -/
theorem ObjInv.not_accountedElsewhere (inv : ObjInv state)
    (referred : block ∈ (state.spiList id).blocks) : ¬state.AccountedElsewhere id block := by
  rintro (⟨thread, live, isOwn⟩ | ⟨other, ne, -, referredAgain⟩)
  · cases inv.apart (.spi id) (.thread thread) block referred ⟨live, isOwn⟩
  · cases inv.apart (.spi id) (.spi other) block referred referredAgain
    exact ne rfl

theorem accountedFor_of_elsewhere (elsewhere : state.AccountedElsewhere id block) :
    state.AccountedFor block := by
  rcases elsewhere with byThread | ⟨other, -, up, referred⟩
  · exact .inl byThread
  · exact .inr ⟨other, up, referred⟩

theorem elsewhere_of_accountedFor (accounted : state.AccountedFor block)
    (notHere : block ∉ (state.spiList id).blocks) : state.AccountedElsewhere id block := by
  rcases accounted with byThread | ⟨other, up, referred⟩
  · exact .inl byThread
  · refine .inr ⟨other, ?_, up, referred⟩
    rintro rfl
    exact notHere referred

section Booted

variable [DecidableEq SpiId]

@[simp]
theorem booted_spiList_self : (state.booted id heap stored ret).spiList id = stored :=
  Function.update_self ..

@[simp]
theorem booted_inited_self : (state.booted id heap stored ret).inited id = decide (ret = 0) :=
  Function.update_self ..

theorem booted_spiList_of_ne {other : SpiId} (ne : other ≠ id) :
    (state.booted id heap stored ret).spiList other = state.spiList other :=
  Function.update_of_ne ne ..

theorem booted_inited_of_ne {other : SpiId} (ne : other ≠ id) :
    (state.booted id heap stored ret).inited other = state.inited other :=
  Function.update_of_ne ne ..

theorem booted_accountedFor_iff :
    (state.booted id heap stored ret).AccountedFor block ↔
      state.AccountedElsewhere id block ∨ (ret = 0 ∧ block ∈ stored.blocks) := by
  constructor
  · rintro (⟨thread, live, isOwn⟩ | ⟨other, up, referred⟩)
    · exact .inl (.inl ⟨thread, live, isOwn⟩)
    · by_cases same : other = id
      · subst same
        rw [booted_inited_self, decide_eq_true_iff] at up
        rw [booted_spiList_self] at referred
        exact .inr ⟨up, referred⟩
      · rw [booted_inited_of_ne same] at up
        rw [booted_spiList_of_ne same] at referred
        exact .inl (.inr ⟨other, same, up, referred⟩)
  · rintro ((⟨thread, live, isOwn⟩ | ⟨other, ne, up, referred⟩) | ⟨ok, referred⟩)
    · exact .inl ⟨thread, live, isOwn⟩
    · refine .inr ⟨other, ?_, ?_⟩
      · rwa [booted_inited_of_ne ne]
      · rwa [booted_spiList_of_ne ne]
    · refine .inr ⟨id, ?_, ?_⟩
      · rw [booted_inited_self, decide_eq_true_iff]
        exact ok
      · rwa [booted_spiList_self]

/-- What the entry referred to before is accounted for no more, however `spi_init` ends. -/
theorem ObjInv.not_accountedFor_booted {boot : SpiAllocs} (inv : ObjInv state)
    (booted : spiInit state.heap (state.spiList id) boot = some (heap, stored, ret))
    (referred : block ∈ (state.spiList id).blocks) :
    ¬(state.booted id heap stored ret).AccountedFor block := by
  rcases spiInit_spec booted with ⟨-, new, grown, -, ended⟩
  rw [booted_accountedFor_iff]
  rintro (elsewhere | ⟨ok, isStored⟩)
  · exact inv.not_accountedElsewhere referred elsewhere
  · rcases ended with ⟨-, -, stored_iff⟩ | ⟨failed, -⟩
    · have fresh := grown.fresh block ((stored_iff block).mp isStored)
      exact absurd (inv.young (.spi id) block referred) (Nat.not_lt.mpr fresh)
    · omega

theorem booted_spec {boot : SpiAllocs} (inv : ObjInv state)
    (booted : spiInit state.heap (state.spiList id) boot = some (heap, stored, ret)) :
    StepSpec state (state.booted id heap stored ret) (.spiInit id boot) := by
  rcases spiInit_spec booted with ⟨-, new, grown, stored_subset, ended⟩
  have inv' : ObjInv (state.booted id heap stored ret) := by
    apply inv.changed (.spi id) grown.handedOut
    intro owner block refers
    cases owner with
    | thread thread => exact .inl refers
    | spi other =>
        by_cases same : other = id
        · subst same
          rw [ObjState.Refers, booted_spiList_self] at refers
          rcases stored_subset block refers with before | isNew
          · exact .inl before
          · exact .inr ⟨rfl, grown.fresh block isNew, grown.serial_lt isNew⟩
        · rw [ObjState.Refers, booted_spiList_of_ne same] at refers
          exact .inl refers
  refine ⟨inv', fun accounted => ?_⟩
  constructor
  · rintro ⟨kept, -⟩
    constructor
    · intro block referred allocated
      exact inv.not_accountedFor_booted booted referred
        (kept block (grown.mem_iff.mpr (.inr allocated)))
    · intro breaksOff
      rcases ended with ⟨-, complete, -⟩ | ⟨failed, breaksOff_iff⟩
      · exact complete breaksOff
      · rcases List.exists_mem_of_ne_nil new (breaksOff_iff.mp breaksOff) with ⟨block, isNew⟩
        rcases booted_accountedFor_iff.mp (kept block (grown.mem_iff.mpr (.inl isNew)))
          with elsewhere | ⟨ok, -⟩
        · exact inv.not_accountedFor_of_fresh (grown.fresh block isNew)
            (accountedFor_of_elsewhere elsewhere)
        · omega
  · rintro ⟨released, complete⟩
    constructor
    · intro block allocated
      rw [booted_accountedFor_iff]
      rcases grown.mem_iff.mp allocated with isNew | before
      · rcases ended with ⟨ok, -, stored_iff⟩ | ⟨-, breaksOff_iff⟩
        · exact .inr ⟨ok, (stored_iff block).mpr isNew⟩
        · exact absurd (breaksOff_iff.mpr (List.ne_nil_of_mem isNew)) complete
      · left
        apply elsewhere_of_accountedFor (accounted block before)
        intro referred
        exact released block referred before
    · intro failed
      rcases ended with ⟨ok, -, -⟩ | ⟨-, breaksOff_iff⟩
      · simp [ObjState.booted, ok] at failed
      · have nothing : new = [] := by
          by_contra some_
          exact complete (breaksOff_iff.mpr some_)
        have same := grown.blocks
        rw [nothing] at same
        exact same

end Booted

/-! ## Runs -/

section Runs

variable [DecidableEq SpiId]

theorem objStep_spec (call : ObjCall SpiId) (inv : ObjInv state)
    (stepped : objStep state call = some next) : StepSpec state next call := by
  simp only [objStep] at stepped
  split at stepped
  · cases stepped
  · split at stepped
    next args allocs =>
      simp only [Option.map_eq_some_iff, Prod.exists] at stepped
      rcases stepped with ⟨heap, outcome, made, rfl⟩
      exact created_spec inv made
    next =>
      cases stepped
      refine ⟨⟨inv.young, inv.apart⟩, fun accounted => ?_⟩
      exact iff_of_true ⟨accounted, nofun⟩ trivial
    next handle =>
      simp only [Option.map_eq_some_iff] at stepped
      rcases stepped with ⟨thread, -, rfl⟩
      exact deleted_spec inv rfl
    next id boot =>
      simp only [Option.map_eq_some_iff, Prod.exists] at stepped
      rcases stepped with ⟨heap, stored, ret, up, rfl⟩
      exact booted_spec inv up
    next id =>
      cases stepped
      exact shutDown_spec inv rfl

theorem objInv_init : ObjInv (objSystem SpiId).init where
  young owner block refers := by
    cases owner with
    | thread thread => cases refers.1
    | spi id => cases refers
  apart owner other block refers := by
    cases owner with
    | thread thread => cases refers.1
    | spi id => cases refers

/-- No call of a run loses a kernel object exactly if no call of it drops a reference to one
that is allocated. -/
theorem no_lost_objects_iff {calls : List (ObjCall SpiId)} {final : ObjState SpiId}
    (ran : (objSystem SpiId).run calls = some final) :
    (objSystem SpiId).Along NothingLost (objSystem SpiId).init calls ↔
      (objSystem SpiId).Along DropsNothing (objSystem SpiId).init calls := by
  have accountedAtStart : (objSystem SpiId).init.Accounted := nofun
  refine System.along_iff_along ObjInv ObjState.Accounted ?_ ?_ ?_ objInv_init accountedAtStart ran
  · intro state call next inv stepped
    exact (objStep_spec call inv stepped).inv
  · intro state call next kept stepped
    exact (kept next stepped).1
  · intro state call next inv accounted stepped
    rw [← (objStep_spec call inv stepped).keeps_iff accounted]
    constructor
    · intro kept
      exact kept next stepped
    · intro keeps other steppedAgain
      cases stepped.symm.trans steppedAgain
      exact keeps

end Runs

/-- `SPI_ID_T` -/
inductive SpiIdT where
  | acceleroSpi
deriving DecidableEq, Repr

/-- The bus is brought up, taken down and brought up again. -/
def bootTwice : List (ObjCall SpiIdT) :=
  [.spiInit .acceleroSpi ⟨0, some 16, some 112, some 208⟩, .spiDeinit .acceleroSpi,
    .spiInit .acceleroSpi ⟨0, some 16, some 112, some 208⟩]

theorem bootTwice_enabled : ((objSystem SpiIdT).run bootTwice).isSome := by
  decide +kernel

theorem no_lost_objects_boot_twice :
    (objSystem SpiIdT).Along NothingLost (objSystem SpiIdT).init bootTwice ↔
      (objSystem SpiIdT).Along DropsNothing (objSystem SpiIdT).init bootTwice :=
  no_lost_objects_iff (System.run_final bootTwice_enabled)

/-- One thread is created. Its stack and TCB are its own; the block at 16 is nobody's. -/
theorem no_lost_objects_violated :
    ∃ final, (objSystem SpiIdT).run
        [.osalThreadCreate ⟨true, true⟩ ⟨some 16, some 32, some 560⟩] = some final ∧
      final.heap.blocks = [⟨560, 2⟩, ⟨32, 1⟩, ⟨16, 0⟩] ∧
      final.threads = [⟨⟨32, 1⟩, ⟨560, 2⟩⟩] ∧ ¬final.Accounted := by
  refine ⟨_, rfl, rfl, rfl, ?_⟩
  intro accounted
  rcases accounted ⟨16, 0⟩ (by decide +kernel) with ⟨thread, live, isOwn⟩ | ⟨id, up, -⟩
  · cases List.mem_singleton.mp live
    exact absurd isOwn (by decide)
  · cases up

end MqttAccelero.Spi.Objects
