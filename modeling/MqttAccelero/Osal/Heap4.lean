import Mathlib.Data.List.TakeWhile
import Mathlib.Data.Nat.Bitwise
import Mathlib.Tactic.Tauto
import MqttAccelero.Lib.FreeList
import MqttAccelero.Lib.System
import MqttAccelero.Osal.KernelObjects

/-!
# The kernel heap

`heap_4`: the list of free blocks in the order of their addresses, first fit, the
split of a block that is larger than wanted, and the merging of a freed block with
the free blocks it touches. Sizes include the header of a block. The links of the
list are left to the list; `xStart` and `pxEnd` are not among its elements.

A block whose allocated bit is set is one in `allocated`. That `vPortFree` finds
no such block at the address it is given is a failed assertion, and no result.
Addresses are numbers, and `ucHeap` is where the array lies.
-/

namespace MqttAccelero.Osal.Heap4

open FreeList

def configTotalHeapSize : ℕ := 15360
def portByteAlignment : ℕ := 8
def xHeapStructSize : ℕ := 8
def heapMinimumBlockSize : ℕ := 16
def xBlockAllocatedBit : UInt32 := 0x80000000

structure HeapState where
  freeList : List Span
  pxEnd : ℕ
  allocated : List Span
  xFreeBytesRemaining : ℕ
  xMinimumEverFreeBytesRemaining : ℕ
deriving DecidableEq, Repr

/-- The first aligned address of the array. -/
def pucAlignedHeap (ucHeap : ℕ) : ℕ :=
  if ucHeap % portByteAlignment ≠ 0 then
    (ucHeap + (portByteAlignment - 1)) / portByteAlignment * portByteAlignment
  else ucHeap

/-- `prvHeapInit`, which the first `pvPortMalloc` calls. -/
def prvHeapInit (ucHeap : ℕ) : HeapState :=
  let xTotalHeapSize := configTotalHeapSize - (pucAlignedHeap ucHeap - ucHeap)
  let uxAddress := (pucAlignedHeap ucHeap + xTotalHeapSize - xHeapStructSize) /
    portByteAlignment * portByteAlignment
  let size := uxAddress - pucAlignedHeap ucHeap
  ⟨[⟨pucAlignedHeap ucHeap, size⟩], uxAddress, [], size, size⟩

/-- The block in front grows by the block that is inserted if they touch. -/
def mergeFront (before : List Span) (pxBlockToInsert : Span) : List Span × Span :=
  match before.getLast? with
  | none => (before, pxBlockToInsert)
  | some pxIterator =>
      if pxIterator.stop = pxBlockToInsert.address then
        (before.dropLast, ⟨pxIterator.address, pxIterator.size + pxBlockToInsert.size⟩)
      else (before, pxBlockToInsert)

def mergeBehind (pxBlockToInsert : Span) : List Span → Span × List Span
  | [] => (pxBlockToInsert, [])
  | next :: after =>
      if pxBlockToInsert.stop = next.address then
        (⟨pxBlockToInsert.address, pxBlockToInsert.size + next.size⟩, after)
      else (pxBlockToInsert, next :: after)

/-- The iterator stops at the last block that lies below the one that is inserted. -/
def prvInsertBlockIntoFreeList (freeList : List Span) (pxBlockToInsert : Span) : List Span :=
  let before := freeList.takeWhile fun block => block.address < pxBlockToInsert.address
  let after := freeList.dropWhile fun block => block.address < pxBlockToInsert.address
  let (before, block) := mergeFront before pxBlockToInsert
  let (block, after) := mergeBehind block after
  before ++ block :: after

/-- `xWantedSize` with room for the header, rounded up. -/
def blockSize (xWantedSize : UInt32) : UInt32 :=
  if xWantedSize > 0 then
    let xWantedSize := xWantedSize + 8
    if xWantedSize &&& 7 ≠ 0 then xWantedSize + (8 - (xWantedSize &&& 7)) else xWantedSize
  else xWantedSize

/-- A block that is large enough, as it is handed out, and the free blocks without it. -/
def splitBlock (freeList : List Span) (pxBlock : Span) (wanted : ℕ) : Span × List Span :=
  if pxBlock.size - wanted > heapMinimumBlockSize then
    (⟨pxBlock.address, wanted⟩,
      prvInsertBlockIntoFreeList freeList ⟨pxBlock.address + wanted, pxBlock.size - wanted⟩)
  else (pxBlock, freeList)

def pvPortMalloc (heap : HeapState) (xWantedSize : UInt32) : HeapState × Option ℕ :=
  if xWantedSize &&& xBlockAllocatedBit ≠ 0 then (heap, none)
  else
    let wanted := (blockSize xWantedSize).toNat
    if wanted > 0 ∧ wanted ≤ heap.xFreeBytesRemaining then
      match heap.freeList.dropWhile fun block => block.size < wanted with
      | [] => (heap, none)
      | pxBlock :: after =>
          let before := heap.freeList.takeWhile fun block => block.size < wanted
          let (block, freeList) := splitBlock (before ++ after) pxBlock wanted
          let remaining := heap.xFreeBytesRemaining - block.size
          ({ heap with
              freeList := freeList
              allocated := block :: heap.allocated
              xFreeBytesRemaining := remaining
              xMinimumEverFreeBytesRemaining :=
                if remaining < heap.xMinimumEverFreeBytesRemaining then remaining
                else heap.xMinimumEverFreeBytesRemaining },
            some (block.address + xHeapStructSize))
    else (heap, none)

/-- The block that `pv` is returned for. -/
def headerOf (heap : HeapState) (pv : ℕ) : Option Span :=
  heap.allocated.find? fun block => block.address + xHeapStructSize = pv

/-- `vPortFree`; the address 0 is NULL. -/
def vPortFree (heap : HeapState) (pv : ℕ) : Option HeapState :=
  if pv = 0 then some heap
  else
    (headerOf heap pv).map fun pxLink =>
      { heap with
        freeList := prvInsertBlockIntoFreeList heap.freeList pxLink
        allocated := heap.allocated.erase pxLink
        xFreeBytesRemaining := heap.xFreeBytesRemaining + pxLink.size }

inductive HeapCall where
  | pvPortMalloc (xWantedSize : UInt32)
  | vPortFree (pv : ℕ)
deriving DecidableEq, Repr

def heapStep (heap : HeapState) : HeapCall → Option HeapState
  | .pvPortMalloc xWantedSize => some (pvPortMalloc heap xWantedSize).1
  | .vPortFree pv => vPortFree heap pv

def heapSystem (ucHeap : ℕ) : System HeapState HeapCall where
  init := prvHeapInit ucHeap
  step := heapStep

variable {ucHeap : ℕ} {heap next : HeapState} {block other : Span} {freeList before after : List Span}

/-! ## Insertion into the free list -/

/-- What merging leaves of the blocks in front: they end before the block, with a gap. -/
theorem mergeFront_spec (gapped : Gapped before) (inhabited : 0 < block.size)
    (left : ∀ other ∈ before, other.stop ≤ block.address) {rest : List Span} {merged : Span}
    (done : mergeFront before block = (rest, merged)) :
    (Gapped rest ∧ ∀ other ∈ rest, other.stop < merged.address) ∧
      (0 < merged.size ∧ merged.stop = block.stop) ∧
      (∀ address, Covers rest address ∨ merged.Has address ↔
        Covers before address ∨ block.Has address) ∧
      total rest + merged.size = total before + block.size := by
  rcases List.eq_nil_or_concat' before with rfl | ⟨front, last, rfl⟩
  · cases done
    exact ⟨⟨gapped, nofun⟩, ⟨inhabited, rfl⟩, fun _ => Iff.rfl, rfl⟩
  · rcases gapped_append.mp gapped with ⟨gappedFront, gappedLast, between⟩
    have lastInhabited : 0 < last.size := (gapped_cons.mp gappedLast).1
    have lastLeft := left last (List.mem_append_right _ (List.mem_singleton_self last))
    simp only [mergeFront, List.getLast?_concat, List.dropLast_concat] at done
    split at done
    next touching =>
      cases done
      have stop_eq : last.address + (last.size + block.size) = block.stop := by
        rw [Span.stop, ← touching, Span.stop, Nat.add_assoc]
      refine ⟨⟨gappedFront, ?_⟩, ⟨Nat.add_pos_left lastInhabited _, stop_eq⟩, ?_, ?_⟩
      · intro other member
        exact between other member last (List.mem_singleton_self last)
      · intro address
        have has_iff : (⟨last.address, last.size + block.size⟩ : Span).Has address ↔
            last.Has address ∨ block.Has address := by
          simp only [Span.Has, Span.stop] at touching ⊢
          omega
        simp [has_iff, or_assoc]
      · simp [Nat.add_assoc]
    next apart =>
      cases done
      refine ⟨⟨gapped, ?_⟩, ⟨inhabited, rfl⟩, fun _ => Iff.rfl, rfl⟩
      intro other member
      rcases List.mem_append.mp member with inFront | isLast
      · have further := between other inFront last (List.mem_singleton_self last)
        rw [Span.stop] at lastLeft
        omega
      · rw [List.mem_singleton.mp isLast]
        exact Nat.lt_of_le_of_ne lastLeft apart

theorem mergeBehind_spec (gapped : Gapped after) (inhabited : 0 < block.size)
    (right : ∀ other ∈ after, block.stop ≤ other.address) {rest : List Span} {merged : Span}
    (done : mergeBehind block after = (merged, rest)) :
    (Gapped rest ∧ ∀ other ∈ rest, merged.stop < other.address) ∧
      (0 < merged.size ∧ merged.address = block.address) ∧
      (∀ address, merged.Has address ∨ Covers rest address ↔
        block.Has address ∨ Covers after address) ∧
      merged.size + total rest = block.size + total after := by
  cases after with
  | nil =>
      cases done
      exact ⟨⟨gapped, nofun⟩, ⟨inhabited, rfl⟩, fun _ => Iff.rfl, rfl⟩
  | cons first tail =>
      rcases gapped_cons.mp gapped with ⟨firstInhabited, behind, gappedTail⟩
      have firstRight := right first List.mem_cons_self
      simp only [mergeBehind] at done
      split at done
      next touching =>
        cases done
        refine ⟨⟨gappedTail, ?_⟩, ⟨Nat.add_pos_left inhabited _, rfl⟩, ?_, ?_⟩
        · intro other member
          have further := behind other member
          simp only [Span.stop] at touching further ⊢
          omega
        · intro address
          have has_iff : (⟨block.address, block.size + first.size⟩ : Span).Has address ↔
              block.Has address ∨ first.Has address := by
            simp only [Span.Has, Span.stop] at touching ⊢
            omega
          simp [has_iff, or_assoc]
        · simp [Nat.add_assoc]
      next apart =>
        cases done
        refine ⟨⟨gapped, ?_⟩, ⟨inhabited, rfl⟩, fun _ => Iff.rfl, rfl⟩
        intro other member
        rcases List.mem_cons.mp member with rfl | inTail
        · exact Nat.lt_of_le_of_ne firstRight apart
        · have further := behind other inTail
          rw [Span.stop] at further
          omega

theorem prvInsertBlockIntoFreeList_spec (gapped : Gapped freeList) (inhabited : 0 < block.size)
    (apart : ∀ other ∈ freeList, block.Apart other) :
    Gapped (prvInsertBlockIntoFreeList freeList block) ∧
      (∀ address, Covers (prvInsertBlockIntoFreeList freeList block) address ↔
        Covers freeList address ∨ block.Has address) ∧
      total (prvInsertBlockIntoFreeList freeList block) = total freeList + block.size := by
  rw [prvInsertBlockIntoFreeList]
  generalize beforeIs : freeList.takeWhile _ = before
  generalize afterIs : freeList.dropWhile _ = after
  have split : freeList = before ++ after := by
    rw [← beforeIs, ← afterIs, List.takeWhile_append_dropWhile]
  have below : ∀ other ∈ before, other.address < block.address := by
    intro other member
    rw [← beforeIs] at member
    simpa using List.mem_takeWhile_imp member
  rw [split] at gapped apart
  rcases gapped_append.mp gapped with ⟨gappedBefore, gappedAfter, -⟩
  have left : ∀ other ∈ before, other.stop ≤ block.address := by
    intro other member
    have lower := below other member
    rcases apart other (List.mem_append_left _ member) with behind | inFront
    · rw [Span.stop] at behind
      omega
    · exact inFront
  have right : ∀ other ∈ after, block.stop ≤ other.address := by
    intro other member
    have notBelow : block.address ≤ other.address := by
      cases after with
      | nil => cases member
      | cons first rest =>
          have firstNotBelow : block.address ≤ first.address := by
            have stopped := List.head?_dropWhile_not
              (fun other : Span => decide (other.address < block.address)) freeList
            simpa [afterIs] using stopped
          rcases List.mem_cons.mp member with rfl | inRest
          · exact firstNotBelow
          · have further := (gapped_cons.mp gappedAfter).2.1 other inRest
            rw [Span.stop] at further
            omega
    rcases apart other (List.mem_append_right _ member) with behind | inFront
    · exact behind
    · have otherInhabited := gappedAfter.inhabited other member
      rw [Span.stop] at inFront
      omega
  rcases mergedFront : mergeFront before block with ⟨front, grown⟩
  rcases mergedBehind : mergeBehind grown after with ⟨merged, back⟩
  rcases mergeFront_spec gappedBefore inhabited left mergedFront with
    ⟨⟨gappedFront, frontLeft⟩, ⟨grownInhabited, grownStop⟩, coversFront, totalFront⟩
  rw [← grownStop] at right
  rcases mergeBehind_spec gappedAfter grownInhabited right mergedBehind with
    ⟨⟨gappedBack, backRight⟩, ⟨mergedInhabited, mergedAddress⟩, coversBack, totalBack⟩
  rw [← mergedAddress] at frontLeft
  simp only [mergedBehind]
  refine ⟨gapped_insert gappedFront gappedBack mergedInhabited frontLeft backRight, ?_, ?_⟩
  · intro address
    rw [split, covers_append, covers_append, covers_cons, coversBack, ← or_assoc, coversFront,
      or_right_comm]
  · rw [split, total_append, total_append, total_cons, totalBack, ← Nat.add_assoc, totalFront]
    omega

/-- Addresses and sizes are multiples of the alignment. -/
def Aligned (spans : List Span) : Prop :=
  ∀ span ∈ spans, portByteAlignment ∣ span.address ∧ portByteAlignment ∣ span.size

theorem aligned_append : Aligned (before ++ after) ↔ Aligned before ∧ Aligned after :=
  List.forall_mem_append

theorem aligned_cons : Aligned (block :: after) ↔
    (portByteAlignment ∣ block.address ∧ portByteAlignment ∣ block.size) ∧ Aligned after :=
  List.forall_mem_cons

theorem aligned_mergeFront (aligned : Aligned (block :: before)) {rest : List Span} {merged : Span}
    (done : mergeFront before block = (rest, merged)) : Aligned (merged :: rest) := by
  rcases List.eq_nil_or_concat' before with rfl | ⟨front, last, rfl⟩
  · cases done
    exact aligned
  · rcases aligned_cons.mp aligned with ⟨alignedBlock, alignedBefore⟩
    rcases aligned_append.mp alignedBefore with ⟨alignedFront, alignedLast⟩
    have alignedLast := alignedLast last (List.mem_singleton_self last)
    simp only [mergeFront, List.getLast?_concat, List.dropLast_concat] at done
    split at done
    · cases done
      exact aligned_cons.mpr ⟨⟨alignedLast.1, Nat.dvd_add alignedLast.2 alignedBlock.2⟩, alignedFront⟩
    · cases done
      exact aligned

theorem aligned_mergeBehind (aligned : Aligned (block :: after)) {rest : List Span} {merged : Span}
    (done : mergeBehind block after = (merged, rest)) : Aligned (merged :: rest) := by
  cases after with
  | nil =>
      cases done
      exact aligned
  | cons first tail =>
      rcases aligned_cons.mp aligned with ⟨alignedBlock, alignedAfter⟩
      rcases aligned_cons.mp alignedAfter with ⟨alignedFirst, alignedTail⟩
      simp only [mergeBehind] at done
      split at done
      · cases done
        exact aligned_cons.mpr ⟨⟨alignedBlock.1, Nat.dvd_add alignedBlock.2 alignedFirst.2⟩, alignedTail⟩
      · cases done
        exact aligned

theorem aligned_prvInsertBlockIntoFreeList (aligned : Aligned (block :: freeList)) :
    Aligned (prvInsertBlockIntoFreeList freeList block) := by
  rw [prvInsertBlockIntoFreeList]
  generalize beforeIs : freeList.takeWhile _ = before
  generalize afterIs : freeList.dropWhile _ = after
  have split : freeList = before ++ after := by
    rw [← beforeIs, ← afterIs, List.takeWhile_append_dropWhile]
  rw [split, aligned_cons, aligned_append] at aligned
  rcases aligned with ⟨alignedBlock, alignedBefore, alignedAfter⟩
  rcases mergedFront : mergeFront before block with ⟨front, grown⟩
  rcases mergedBehind : mergeBehind grown after with ⟨merged, back⟩
  have alignedAll := aligned_mergeFront (aligned_cons.mpr ⟨alignedBlock, alignedBefore⟩) mergedFront
  rcases aligned_cons.mp alignedAll with ⟨alignedGrown, alignedFront⟩
  simp only [mergedBehind]
  exact aligned_append.mpr
    ⟨alignedFront, aligned_mergeBehind (aligned_cons.mpr ⟨alignedGrown, alignedAfter⟩) mergedBehind⟩

/-! ## Allocation -/

theorem allocatedBit_clear_iff (xWantedSize : UInt32) :
    xWantedSize &&& xBlockAllocatedBit = 0 ↔ xWantedSize.toNat < 2 ^ 31 := by
  have bit : xBlockAllocatedBit.toNat = 2 ^ 31 := rfl
  have bound := xWantedSize.toNat_lt
  rw [← UInt32.toNat_inj, UInt32.toNat_and, bit, Nat.and_two_pow, Nat.testBit_eq_decide_div_mod_eq]
  by_cases set : xWantedSize.toNat / 2 ^ 31 % 2 = 1
  · simp only [set, decide_true, Bool.toNat_true, Nat.one_mul, UInt32.toNat_zero]
    omega
  · simp only [set, decide_false, Bool.toNat_false, Nat.zero_mul, UInt32.toNat_zero, true_iff]
    omega

theorem toNat_blockSize {xWantedSize : UInt32} (positive : 0 < xWantedSize)
    (small : xWantedSize.toNat < 2 ^ 31) :
    (blockSize xWantedSize).toNat = (xWantedSize.toNat + 15) / 8 * 8 := by
  have eight : (8 : UInt32).toNat = 8 := rfl
  have header : (xWantedSize + 8).toNat = xWantedSize.toNat + 8 := by
    rw [UInt32.toNat_add, eight]
    omega
  have rest : (xWantedSize + 8 &&& 7).toNat = (xWantedSize.toNat + 8) % 8 := by
    have mask : (7 : UInt32).toNat = 2 ^ 3 - 1 := rfl
    rw [UInt32.toNat_and, mask, Nat.and_two_pow_sub_one_eq_mod, header]
  simp only [blockSize, gt_iff_lt, positive, if_true]
  split
  next odd =>
    have nonzero : (xWantedSize + 8 &&& 7).toNat ≠ 0 := fun zero => odd (UInt32.toNat_inj.mp zero)
    have below : xWantedSize + 8 &&& 7 ≤ 8 := by
      rw [UInt32.le_iff_toNat_le, eight]
      omega
    rw [UInt32.toNat_add, UInt32.toNat_sub_of_le _ _ below, header, rest, eight]
    omega
  next aligned =>
    have zero : (xWantedSize + 8 &&& 7).toNat = 0 := by
      rw [Decidable.not_not.mp aligned]
      rfl
    rw [header]
    omega

theorem splitBlock_spec {pxBlock : Span} {wanted : ℕ} (gapped : Gapped (before ++ pxBlock :: after))
    (aligned : Aligned (before ++ pxBlock :: after)) (wantedAligned : portByteAlignment ∣ wanted)
    (positive : 0 < wanted) (enough : wanted ≤ pxBlock.size)
    (done : splitBlock (before ++ after) pxBlock wanted = (block, freeList)) :
    Gapped freeList ∧ Aligned (block :: freeList) ∧ wanted ≤ block.size ∧
      (∀ address, block.Has address → ¬Covers freeList address) ∧
      (∀ address, Covers freeList address ∨ block.Has address ↔
        Covers (before ++ pxBlock :: after) address) ∧
      total freeList + block.size = total (before ++ pxBlock :: after) := by
  rcases gapped_remove gapped with ⟨gappedRest, apart⟩
  rcases aligned_append.mp aligned with ⟨alignedBefore, alignedBehind⟩
  rcases aligned_cons.mp alignedBehind with ⟨alignedBlock, alignedAfter⟩
  have alignedRest : Aligned (before ++ after) := aligned_append.mpr ⟨alignedBefore, alignedAfter⟩
  have notInRest : ∀ address, pxBlock.Has address → ¬Covers (before ++ after) address := by
    rintro address has ⟨other, member, hasToo⟩
    exact (apart other member).not_has has hasToo
  rw [splitBlock] at done
  split at done
  next larger =>
    cases done
    have remainderInhabited : 0 < pxBlock.size - wanted := by
      rw [heapMinimumBlockSize] at larger
      omega
    have parts : ∀ address, pxBlock.Has address ↔
        (⟨pxBlock.address, wanted⟩ : Span).Has address ∨
          (⟨pxBlock.address + wanted, pxBlock.size - wanted⟩ : Span).Has address := by
      intro address
      simp only [Span.Has, Span.stop]
      omega
    have remainderApart : ∀ other ∈ before ++ after,
        Span.Apart ⟨pxBlock.address + wanted, pxBlock.size - wanted⟩ other := by
      intro other member
      have whole := apart other member
      simp only [Span.Apart, Span.stop] at whole ⊢
      omega
    rcases prvInsertBlockIntoFreeList_spec gappedRest remainderInhabited remainderApart with
      ⟨gappedFree, coversFree, totalFree⟩
    refine ⟨gappedFree, ?_, Nat.le_refl _, ?_, ?_, ?_⟩
    · refine aligned_cons.mpr ⟨⟨alignedBlock.1, wantedAligned⟩, ?_⟩
      apply aligned_prvInsertBlockIntoFreeList
      exact aligned_cons.mpr ⟨⟨Nat.dvd_add alignedBlock.1 wantedAligned,
        Nat.dvd_sub alignedBlock.2 wantedAligned⟩, alignedRest⟩
    · intro address has
      rw [coversFree]
      rintro (inRest | inRemainder)
      · exact notInRest address ((parts address).mpr (.inl has)) inRest
      · simp only [Span.Has, Span.stop] at has inRemainder
        omega
    · intro address
      rw [coversFree, covers_append, covers_append, covers_cons, parts]
      tauto
    · rw [totalFree, total_append, total_append, total_cons]
      dsimp only
      omega
  next exact_ =>
    cases done
    refine ⟨gappedRest, aligned_cons.mpr ⟨alignedBlock, alignedRest⟩, enough, notInRest, ?_, ?_⟩
    · intro address
      rw [covers_append, covers_append, covers_cons]
      tauto
    · rw [total_append, total_append, total_cons]
      omega

/-! ## What the calls do to the heap -/

/-- Free and allocated blocks lie next to each other without overlap, from one end of the heap
to the other. No two free blocks touch. -/
structure HeapInv (ucHeap : ℕ) (heap : HeapState) : Prop where
  gapped : Gapped heap.freeList
  aligned : Aligned (heap.freeList ++ heap.allocated)
  headed : ∀ block ∈ heap.allocated, xHeapStructSize < block.size
  apart : heap.allocated.Pairwise Span.Apart
  disjoint : ∀ address, Covers heap.freeList address → ¬Covers heap.allocated address
  tiles : ∀ address, Covers heap.freeList address ∨ Covers heap.allocated address ↔
    pucAlignedHeap ucHeap ≤ address ∧ address < heap.pxEnd
  pxEnd_eq : heap.pxEnd = (prvHeapInit ucHeap).pxEnd
  free : heap.xFreeBytesRemaining = total heap.freeList
  bytes : heap.xFreeBytesRemaining + total heap.allocated = (prvHeapInit ucHeap).xFreeBytesRemaining

/-- A free block is large enough for the request. -/
def Fits (heap : HeapState) (xWantedSize : UInt32) : Prop :=
  (0 < xWantedSize ∧ xWantedSize.toNat < 2 ^ 31) ∧
    ∃ free ∈ heap.freeList, (blockSize xWantedSize).toNat ≤ free.size

/-- `block` has been taken out of the free list. -/
structure Taken (heap next : HeapState) (block : Span) : Prop where
  allocated : next.allocated = block :: heap.allocated
  pxEnd : next.pxEnd = heap.pxEnd
  gapped : Gapped next.freeList
  aligned : Aligned (block :: next.freeList)
  disjoint : ∀ address, block.Has address → ¬Covers next.freeList address
  covers : ∀ address, Covers next.freeList address ∨ block.Has address ↔
    Covers heap.freeList address
  total : total next.freeList + block.size = total heap.freeList
  bytes : next.xFreeBytesRemaining = heap.xFreeBytesRemaining - block.size
  low : next.xMinimumEverFreeBytesRemaining =
    min next.xFreeBytesRemaining heap.xMinimumEverFreeBytesRemaining

/-- `block` has been put back into the free list. -/
structure Freed (heap next : HeapState) (block : Span) : Prop where
  member : block ∈ heap.allocated
  allocated : next.allocated = heap.allocated.erase block
  pxEnd : next.pxEnd = heap.pxEnd
  freeList : next.freeList = prvInsertBlockIntoFreeList heap.freeList block
  bytes : next.xFreeBytesRemaining = heap.xFreeBytesRemaining + block.size
  low : next.xMinimumEverFreeBytesRemaining = heap.xMinimumEverFreeBytesRemaining

variable {xWantedSize : UInt32} {result : Option ℕ} {pv : ℕ}

theorem pvPortMalloc_cases (inv : HeapInv ucHeap heap)
    (done : pvPortMalloc heap xWantedSize = (next, result)) :
    (¬Fits heap xWantedSize ∧ next = heap ∧ result = none) ∨
      (Fits heap xWantedSize ∧ ∃ block, Taken heap next block ∧
        (blockSize xWantedSize).toNat ≤ block.size ∧
        result = some (block.address + xHeapStructSize)) := by
  rw [pvPortMalloc] at done
  split at done
  next bitSet =>
    cases done
    refine .inl ⟨?_, rfl, rfl⟩
    rintro ⟨⟨-, small⟩, -⟩
    exact bitSet ((allocatedBit_clear_iff _).mpr small)
  next bitClear =>
    have small := (allocatedBit_clear_iff xWantedSize).mp (Decidable.not_not.mp bitClear)
    dsimp only at done
    split at done
    next room =>
      have positive : 0 < xWantedSize := by
        by_contra zero
        simp only [blockSize, gt_iff_lt, zero, if_false] at room
        exact zero (UInt32.lt_iff_toNat_lt.mpr room.1)
      split at done
      next none_ =>
        cases done
        refine .inl ⟨?_, rfl, rfl⟩
        rintro ⟨-, free, member, large⟩
        have tooSmall := List.dropWhile_eq_nil_iff.mp none_ free member
        exact absurd large (Nat.not_le.mpr (of_decide_eq_true tooSmall))
      next pxBlock after found =>
        generalize beforeIs : heap.freeList.takeWhile _ = before at done
        have parts : heap.freeList = before ++ pxBlock :: after := by
          rw [← beforeIs, ← found, List.takeWhile_append_dropWhile]
        have enough : (blockSize xWantedSize).toNat ≤ pxBlock.size := by
          have stopped := List.head?_dropWhile_not
            (fun block : Span => decide (block.size < (blockSize xWantedSize).toNat)) heap.freeList
          simpa [found] using stopped
        have fits : Fits heap xWantedSize := by
          refine ⟨⟨positive, small⟩, pxBlock, ?_, enough⟩
          rw [parts]
          exact List.mem_append_right _ List.mem_cons_self
        have wantedAligned : portByteAlignment ∣ (blockSize xWantedSize).toNat := by
          rw [toNat_blockSize positive small]
          exact Nat.dvd_mul_left _ _
        have gapped := inv.gapped
        have aligned := (aligned_append.mp inv.aligned).1
        rw [parts] at gapped aligned
        rcases taken : splitBlock (before ++ after) pxBlock (blockSize xWantedSize).toNat with
          ⟨block, freeList⟩
        rcases splitBlock_spec gapped aligned wantedAligned room.1 enough taken with
          ⟨gappedFree, alignedFree, large, disjoint, covers, total_eq⟩
        rw [← parts] at covers total_eq
        rw [taken] at done
        cases done
        refine .inr ⟨fits, block, ?_, large, rfl⟩
        refine ⟨rfl, rfl, gappedFree, alignedFree, disjoint, covers, total_eq, rfl, ?_⟩
        dsimp only
        split <;> omega
    next noRoom =>
      cases done
      refine .inl ⟨?_, rfl, rfl⟩
      rintro ⟨⟨positive, -⟩, free, member, large⟩
      apply noRoom
      constructor
      · rw [toNat_blockSize positive small]
        omega
      · rw [inv.free]
        exact Nat.le_trans large (size_le_total member)

theorem vPortFree_cases (done : vPortFree heap pv = some next) :
    (pv = 0 ∧ next = heap) ∨
      ∃ block, block.address + xHeapStructSize = pv ∧ Freed heap next block := by
  rw [vPortFree] at done
  split at done
  next null =>
    cases done
    exact .inl ⟨null, rfl⟩
  next =>
    rcases Option.map_eq_some_iff.mp done with ⟨block, found, rfl⟩
    have here := List.find?_some found
    exact .inr ⟨block, of_decide_eq_true here, List.mem_of_find?_eq_some found, rfl, rfl, rfl, rfl, rfl⟩

theorem Taken.heapInv (inv : HeapInv ucHeap heap) (taken : Taken heap next block)
    (headed : xHeapStructSize < block.size) : HeapInv ucHeap next := by
  rcases aligned_cons.mp taken.aligned with ⟨alignedBlock, alignedFree⟩
  have alignedAllocated := (aligned_append.mp inv.aligned).2
  have inhabited : 0 < block.size := Nat.zero_lt_of_lt headed
  have wasFree : ∀ address, block.Has address → ¬Covers heap.allocated address := by
    intro address has
    exact inv.disjoint address ((taken.covers address).mp (.inr has))
  have enough : block.size ≤ heap.xFreeBytesRemaining := by
    rw [inv.free, ← taken.total]
    exact Nat.le_add_left _ _
  constructor
  · exact taken.gapped
  · rw [taken.allocated]
    exact aligned_append.mpr ⟨alignedFree, aligned_cons.mpr ⟨alignedBlock, alignedAllocated⟩⟩
  · rw [taken.allocated]
    exact List.forall_mem_cons.mpr ⟨headed, inv.headed⟩
  · rw [taken.allocated]
    refine List.pairwise_cons.mpr ⟨?_, inv.apart⟩
    intro other member
    apply Span.apart_of_disjoint inhabited (Nat.zero_lt_of_lt (inv.headed other member))
    intro address has hasToo
    exact wasFree address has ⟨other, member, hasToo⟩
  · intro address free
    rw [taken.allocated, covers_cons]
    rintro (has | allocated)
    · exact taken.disjoint address has free
    · exact inv.disjoint address ((taken.covers address).mp (.inl free)) allocated
  · intro address
    rw [taken.allocated, taken.pxEnd, covers_cons, ← or_assoc, taken.covers, inv.tiles]
  · rw [taken.pxEnd, inv.pxEnd_eq]
  · have total_eq := taken.total
    rw [taken.bytes, inv.free]
    omega
  · have bytes := inv.bytes
    rw [taken.bytes, taken.allocated, total_cons]
    omega

theorem Freed.heapInv (inv : HeapInv ucHeap heap) (freed : Freed heap next block) :
    HeapInv ucHeap next := by
  have same := List.perm_cons_erase freed.member
  have headed : ∀ other ∈ block :: heap.allocated.erase block, xHeapStructSize < other.size := by
    intro other member
    exact inv.headed other (same.mem_iff.mpr member)
  rcases List.forall_mem_cons.mp headed with ⟨headedBlock, headedRest⟩
  rcases List.pairwise_cons.mp ((same.pairwise_iff Span.Apart.symm).mp inv.apart) with
    ⟨apartBlock, apartRest⟩
  have covers : ∀ address, Covers heap.allocated address ↔
      block.Has address ∨ Covers (heap.allocated.erase block) address := by
    intro address
    rw [covers_perm same, covers_cons]
  have notFree : ∀ address, block.Has address → ¬Covers heap.freeList address := by
    intro address has free
    exact inv.disjoint address free ((covers address).mpr (.inl has))
  have inhabited : 0 < block.size := Nat.zero_lt_of_lt headedBlock
  have apart : ∀ other ∈ heap.freeList, block.Apart other := by
    intro other member
    apply Span.apart_of_disjoint inhabited (inv.gapped.inhabited other member)
    intro address has hasToo
    exact notFree address has ⟨other, member, hasToo⟩
  rcases prvInsertBlockIntoFreeList_spec inv.gapped inhabited apart with
    ⟨gappedFree, coversFree, totalFree⟩
  rw [← freed.freeList] at gappedFree coversFree totalFree
  rcases aligned_append.mp inv.aligned with ⟨alignedFree, alignedAllocated⟩
  have total_eq := total_perm same
  rw [total_cons] at total_eq
  constructor
  · exact gappedFree
  · rw [freed.allocated, freed.freeList]
    refine aligned_append.mpr
      ⟨?_, fun other member => alignedAllocated other (List.mem_of_mem_erase member)⟩
    apply aligned_prvInsertBlockIntoFreeList
    exact aligned_cons.mpr ⟨alignedAllocated block freed.member, alignedFree⟩
  · rw [freed.allocated]
    exact headedRest
  · rw [freed.allocated]
    exact apartRest
  · intro address
    rw [coversFree, freed.allocated]
    rintro (free | has) ⟨other, member, hasToo⟩
    · exact inv.disjoint address free ⟨other, List.mem_of_mem_erase member, hasToo⟩
    · exact (apartBlock other member).not_has has hasToo
  · intro address
    rw [coversFree, freed.allocated, freed.pxEnd, or_assoc, ← covers, inv.tiles]
  · rw [freed.pxEnd, inv.pxEnd_eq]
  · rw [freed.bytes, totalFree, inv.free]
  · have bytes := inv.bytes
    rw [freed.bytes, freed.allocated]
    omega

/-! ## Runs -/

theorem pucAlignedHeap_spec (ucHeap : ℕ) : portByteAlignment ∣ pucAlignedHeap ucHeap ∧
    ucHeap ≤ pucAlignedHeap ucHeap ∧ pucAlignedHeap ucHeap < ucHeap + portByteAlignment := by
  by_cases odd : ucHeap % 8 ≠ 0
  · simp only [pucAlignedHeap, portByteAlignment, odd, if_true, not_false_eq_true, ne_eq]
    omega
  · simp only [pucAlignedHeap, portByteAlignment, odd, if_false]
    omega

theorem heapInv_init (ucHeap : ℕ) : HeapInv ucHeap (prvHeapInit ucHeap) := by
  rcases pucAlignedHeap_spec ucHeap with ⟨aligned, lower, upper⟩
  have room : pucAlignedHeap ucHeap < (prvHeapInit ucHeap).pxEnd := by
    simp only [prvHeapInit, configTotalHeapSize, xHeapStructSize, portByteAlignment] at upper ⊢
    omega
  have endAligned : portByteAlignment ∣ (prvHeapInit ucHeap).pxEnd := Nat.dvd_mul_left _ _
  constructor
  · exact gapped_cons.mpr ⟨Nat.sub_pos_of_lt room, nofun, gapped_nil⟩
  · exact aligned_cons.mpr ⟨⟨aligned, Nat.dvd_sub endAligned aligned⟩, nofun⟩
  · nofun
  · exact List.Pairwise.nil
  · intro address _
    exact covers_nil
  · intro address
    have stop_eq : pucAlignedHeap ucHeap + ((prvHeapInit ucHeap).pxEnd - pucAlignedHeap ucHeap) =
        (prvHeapInit ucHeap).pxEnd := Nat.add_sub_of_le (Nat.le_of_lt room)
    change Covers [⟨pucAlignedHeap ucHeap, (prvHeapInit ucHeap).pxEnd - pucAlignedHeap ucHeap⟩]
      address ∨ Covers [] address ↔ _
    simp only [covers_cons, covers_nil, or_false, Span.Has, Span.stop, stop_eq]
  · rfl
  · rfl
  · rfl

theorem heapStep_inv {call : HeapCall} (inv : HeapInv ucHeap heap)
    (stepped : heapStep heap call = some next) : HeapInv ucHeap next := by
  cases call with
  | pvPortMalloc xWantedSize =>
      rcases done : pvPortMalloc heap xWantedSize with ⟨after, result⟩
      simp only [heapStep, done, Option.some.injEq] at stepped
      subst stepped
      rcases pvPortMalloc_cases inv done with
        ⟨-, rfl, -⟩ | ⟨⟨⟨positive, small⟩, -⟩, block, taken, large, -⟩
      · exact inv
      · apply taken.heapInv inv
        rw [toNat_blockSize positive small] at large
        have nonzero := UInt32.lt_iff_toNat_lt.mp positive
        rw [UInt32.toNat_zero] at nonzero
        rw [xHeapStructSize]
        omega
  | vPortFree pv =>
      rcases vPortFree_cases stepped with ⟨-, rfl⟩ | ⟨block, -, freed⟩
      · exact inv
      · exact freed.heapInv inv

/-- After any calls the heap is tiled by its blocks, and the count of free bytes is right. -/
theorem heap_tiled {calls : List HeapCall} (ran : (heapSystem ucHeap).run calls = some heap) :
    HeapInv ucHeap heap := by
  refine System.invariant (HeapInv ucHeap) ?_ (heapInv_init ucHeap) ran
  intro current call next inv stepped
  exact heapStep_inv inv stepped

/-- Two blocks are allocated and the first of them is freed. -/
def hole : List HeapCall := [.pvPortMalloc 100, .pvPortMalloc 24, .vPortFree 0x20000008]

theorem hole_enabled : ((heapSystem 0x20000000).run hole).isSome := by
  decide +kernel

theorem heap_tiled_hole :
    HeapInv 0x20000000 ((heapSystem 0x20000000).final hole hole_enabled) :=
  heap_tiled (System.run_final hole_enabled)

/-! ## Allocations -/

/-- What an allocation gives: bytes that were free and are no longer, at an aligned address, and
a block whose release undoes it. -/
structure Allotted (heap next : HeapState) (xWantedSize : UInt32) (pv : ℕ) : Prop where
  aligned : portByteAlignment ∣ pv
  wasFree : ∀ offset < xWantedSize.toNat, Covers heap.freeList (pv + offset)
  nowTaken : ∀ offset < xWantedSize.toNat, ¬Covers next.freeList (pv + offset)
  kept : heap.allocated ⊆ next.allocated
  undone : ∃ after, vPortFree next pv = some after ∧ after.freeList = heap.freeList ∧
    after.allocated = heap.allocated ∧ after.xFreeBytesRemaining = heap.xFreeBytesRemaining

theorem Taken.vPortFree_eq (inv : HeapInv ucHeap heap) (taken : Taken heap next block)
    (headed : xHeapStructSize < block.size) :
    ∃ after, vPortFree next (block.address + xHeapStructSize) = some after ∧
      after.freeList = heap.freeList ∧ after.allocated = heap.allocated ∧
      after.xFreeBytesRemaining = heap.xFreeBytesRemaining := by
  have nonnull : block.address + xHeapStructSize ≠ 0 := Nat.succ_ne_zero _
  have header : headerOf next (block.address + xHeapStructSize) = some block := by
    simp [headerOf, taken.allocated]
  refine ⟨_, by rw [vPortFree, if_neg nonnull, header, Option.map_some], ?_, ?_, ?_⟩
  · have inhabited : 0 < block.size := Nat.zero_lt_of_lt headed
    have apart : ∀ other ∈ next.freeList, block.Apart other := by
      intro other member
      apply Span.apart_of_disjoint inhabited (taken.gapped.inhabited other member)
      intro address has hasToo
      exact taken.disjoint address has ⟨other, member, hasToo⟩
    rcases prvInsertBlockIntoFreeList_spec taken.gapped inhabited apart with ⟨gapped, covers, -⟩
    apply gapped.eq_of_covers inv.gapped
    intro address
    rw [covers, taken.covers]
  · simp [taken.allocated]
  · have enough : block.size ≤ heap.xFreeBytesRemaining := by
      rw [inv.free, ← taken.total]
      exact Nat.le_add_left _ _
    simp only [taken.bytes]
    omega

/-- In every state an allocation succeeds exactly if a free block is large enough, and then gives
what is promised. A failed one leaves the heap as it is. -/
theorem pvPortMalloc_exact {calls : List HeapCall}
    (ran : (heapSystem ucHeap).run calls = some heap)
    (done : pvPortMalloc heap xWantedSize = (next, result)) :
    (Fits heap xWantedSize ∧ ∃ pv, result = some pv ∧ Allotted heap next xWantedSize pv) ∨
      (¬Fits heap xWantedSize ∧ result = none ∧ next = heap) := by
  have inv := heap_tiled ran
  rcases pvPortMalloc_cases inv done with ⟨full, same, failed⟩ | ⟨fits, block, taken, large, got⟩
  · exact .inr ⟨full, failed, same⟩
  · rw [toNat_blockSize fits.1.1 fits.1.2] at large
    have nonzero := UInt32.lt_iff_toNat_lt.mp fits.1.1
    rw [UInt32.toNat_zero] at nonzero
    have headed : xHeapStructSize < block.size := by
      rw [xHeapStructSize]
      omega
    have inBlock : ∀ offset < xWantedSize.toNat,
        block.Has (block.address + xHeapStructSize + offset) := by
      intro offset small
      simp only [Span.Has, Span.stop, xHeapStructSize]
      omega
    refine .inl ⟨fits, _, got, ?_⟩
    constructor
    · exact Nat.dvd_add (aligned_cons.mp taken.aligned).1.1 (Nat.dvd_refl _)
    · intro offset small
      exact (taken.covers _).mp (.inr (inBlock offset small))
    · intro offset small
      exact taken.disjoint _ (inBlock offset small)
    · rw [taken.allocated]
      exact List.subset_cons_self _ _
    · exact taken.vPortFree_eq inv headed

theorem pvPortMalloc_exact_hole :
    let heap := (heapSystem 0x20000000).final hole hole_enabled
    let done := pvPortMalloc heap 96
    (Fits heap 96 ∧ ∃ pv, done.2 = some pv ∧ Allotted heap done.1 96 pv) ∨
      (¬Fits heap 96 ∧ done.2 = none ∧ done.1 = heap) :=
  pvPortMalloc_exact (System.run_final hole_enabled) rfl

/-! ## The free list has no memory -/

/-- The free list is determined by the blocks that are allocated, in whatever order and from
whatever calls they have come about. -/
theorem freeList_eq_of_allocated {calls otherCalls : List HeapCall} {left right : HeapState}
    (ran : (heapSystem ucHeap).run calls = some left)
    (ranToo : (heapSystem ucHeap).run otherCalls = some right)
    (same : left.allocated.Perm right.allocated) :
    left.freeList = right.freeList ∧ left.xFreeBytesRemaining = right.xFreeBytesRemaining := by
  have leftInv := heap_tiled ran
  have rightInv := heap_tiled ranToo
  have freeList_eq : left.freeList = right.freeList := by
    apply leftInv.gapped.eq_of_covers rightInv.gapped
    intro address
    have leftTiles := leftInv.tiles address
    have rightTiles := rightInv.tiles address
    have leftApart := leftInv.disjoint address
    have rightApart := rightInv.disjoint address
    rw [leftInv.pxEnd_eq, covers_perm same] at leftTiles
    rw [rightInv.pxEnd_eq] at rightTiles
    rw [covers_perm same] at leftApart
    tauto
  refine ⟨freeList_eq, ?_⟩
  rw [leftInv.free, rightInv.free, freeList_eq]

/-- The first block is freed and allocated again while a second one lies behind it. -/
def refilled : List HeapCall :=
  [.pvPortMalloc 100, .pvPortMalloc 24, .vPortFree 0x20000008, .pvPortMalloc 100,
    .vPortFree 0x20000078]

theorem refilled_enabled : ((heapSystem 0x20000000).run refilled).isSome := by
  decide +kernel

theorem single_enabled : ((heapSystem 0x20000000).run [.pvPortMalloc 100]).isSome := by
  decide +kernel

theorem freeList_eq_of_allocated_refilled :
    ((heapSystem 0x20000000).final refilled refilled_enabled).freeList =
        ((heapSystem 0x20000000).final [.pvPortMalloc 100] single_enabled).freeList ∧
      ((heapSystem 0x20000000).final refilled refilled_enabled).xFreeBytesRemaining =
        ((heapSystem 0x20000000).final [.pvPortMalloc 100] single_enabled).xFreeBytesRemaining :=
  freeList_eq_of_allocated (System.run_final refilled_enabled) (System.run_final single_enabled)
    (by decide +kernel)

/-! ## The low-water mark -/

/-- `xMinimumEverFreeBytesRemaining` is the least number of bytes that were ever free. -/
theorem minimum_ever_exact {calls : List HeapCall}
    (ran : (heapSystem ucHeap).run calls = some heap) :
    (∀ past state, past <+: calls → (heapSystem ucHeap).run past = some state →
      heap.xMinimumEverFreeBytesRemaining ≤ state.xFreeBytesRemaining) ∧
      ∃ past state, past <+: calls ∧ (heapSystem ucHeap).run past = some state ∧
        heap.xMinimumEverFreeBytesRemaining = state.xFreeBytesRemaining := by
  let Low (calls : List HeapCall) (heap : HeapState) : Prop :=
    (∀ past state, past <+: calls → (heapSystem ucHeap).run past = some state →
      heap.xMinimumEverFreeBytesRemaining ≤ state.xFreeBytesRemaining) ∧
      ∃ past state, past <+: calls ∧ (heapSystem ucHeap).run past = some state ∧
        heap.xMinimumEverFreeBytesRemaining = state.xFreeBytesRemaining
  have start : Low [] (prvHeapInit ucHeap) := by
    constructor
    · intro past state initial ranPast
      rw [List.prefix_nil.mp initial] at ranPast
      cases ranPast
      exact Nat.le_refl _
    · exact ⟨[], _, List.prefix_refl _, rfl, rfl⟩
  refine System.history_invariant_along ?_ start ran
    ((heapSystem ucHeap).along_true _ _)
  intro past current call next ranPast low _ stepped
  have ranNext : (heapSystem ucHeap).run (past ++ [call]) = some next :=
    System.runFrom_append.mpr ⟨current, ranPast, by rw [System.runFrom_singleton, stepped]⟩
  -- The mark is the old one or what is free now, whichever is less.
  have marked : next.xMinimumEverFreeBytesRemaining =
      min next.xFreeBytesRemaining current.xMinimumEverFreeBytesRemaining := by
    have below := low.1 past current (List.prefix_refl _) ranPast
    cases call with
    | pvPortMalloc xWantedSize =>
        rcases done : pvPortMalloc current xWantedSize with ⟨after, result⟩
        simp only [heapSystem, heapStep, done, Option.some.injEq] at stepped
        subst stepped
        rcases pvPortMalloc_cases (heap_tiled ranPast) done with ⟨-, rfl, -⟩ | ⟨-, block, taken, -, -⟩
        · omega
        · exact taken.low
    | vPortFree pv =>
        rcases vPortFree_cases stepped with ⟨-, rfl⟩ | ⟨block, -, freed⟩
        · omega
        · have more := freed.bytes
          rw [freed.low]
          omega
  constructor
  · intro earlier state initial ranEarlier
    rcases List.prefix_concat_iff.mp initial with rfl | before
    · rw [ranEarlier] at ranNext
      cases ranNext
      omega
    · have below := low.1 earlier state before ranEarlier
      omega
  · rcases Nat.le_total next.xFreeBytesRemaining current.xMinimumEverFreeBytesRemaining with
      lower | higher
    · exact ⟨past ++ [call], next, List.prefix_refl _, ranNext, by omega⟩
    · rcases low.2 with ⟨earlier, state, before, ranEarlier, attained⟩
      exact ⟨earlier, state, List.prefix_concat_iff.mpr (.inr before), ranEarlier, by omega⟩

theorem minimum_ever_exact_hole :
    let heap := (heapSystem 0x20000000).final hole hole_enabled
    (∀ past state, past <+: hole → (heapSystem 0x20000000).run past = some state →
      heap.xMinimumEverFreeBytesRemaining ≤ state.xFreeBytesRemaining) ∧
      ∃ past state, past <+: hole ∧ (heapSystem 0x20000000).run past = some state ∧
        heap.xMinimumEverFreeBytesRemaining = state.xFreeBytesRemaining :=
  minimum_ever_exact (System.run_final hole_enabled)

/-! ## The heap as the kernel objects take it to be -/

inductive LedgerCall where
  | pvPortMalloc (outcome : Option ℕ)
  | vPortFree (pv : ℕ)
deriving DecidableEq, Repr

/-- The heap under the kernel objects, whose outcomes come from outside. -/
def ledgerSystem : System Ledger.Heap LedgerCall where
  init := .empty
  step ledger
    | .pvPortMalloc outcome => (Objects.pvPortMalloc ledger outcome).map Prod.fst
    | .vPortFree pv =>
        if pv = 0 then some ledger
        else
          match Objects.vPortFree ledger ⟨pv, 0⟩ with
          | (after, .returned _) => some after
          | (_, .hung) => none

/-- A call with the outcome it has here. -/
def ledgerCall (heap : HeapState) : HeapCall → LedgerCall
  | .pvPortMalloc xWantedSize => .pvPortMalloc (pvPortMalloc heap xWantedSize).2
  | .vPortFree pv => .vPortFree pv

/-- The ledger has in use what has been returned for the blocks that are allocated. -/
def SameAddresses (heap : HeapState) (ledger : Ledger.Heap) : Prop :=
  ∀ pv, ledger.InUse pv ↔ ∃ block ∈ heap.allocated, block.address + xHeapStructSize = pv

variable {ledger : Ledger.Heap}

theorem SameAddresses.vPortFree_eq_none_iff (same : SameAddresses heap ledger) :
    vPortFree heap pv = none ↔ ledgerSystem.step ledger (.vPortFree pv) = none := by
  by_cases null : pv = 0
  · simp [vPortFree, ledgerSystem, null]
  · have inUse_iff := same pv
    by_cases inUse : ledger.InUse pv
    · rcases inUse_iff.mp inUse with ⟨block, member, here⟩
      have found : (headerOf heap pv).isSome := by
        rw [headerOf, List.find?_isSome]
        exact ⟨block, member, decide_eq_true here⟩
      rcases Option.isSome_iff_exists.mp found with ⟨header, header_eq⟩
      simp [vPortFree, ledgerSystem, null, header_eq, Objects.vPortFree, Ledger.Heap.free, inUse]
    · have missing : headerOf heap pv = none := by
        rw [headerOf, List.find?_eq_none]
        intro block member
        simp only [decide_eq_true_eq]
        intro here
        exact inUse (inUse_iff.mpr ⟨block, member, here⟩)
      simp [vPortFree, ledgerSystem, null, missing, Objects.vPortFree, Ledger.Heap.free, inUse]

/-- What is returned for a block is returned for no other one. -/
theorem returned_ne {other : Span} {blocks : List Span}
    (apart : (block :: blocks).Pairwise Span.Apart)
    (headed : ∀ one ∈ block :: blocks, xHeapStructSize < one.size) (member : other ∈ blocks) :
    other.address + xHeapStructSize ≠ block.address + xHeapStructSize := by
  have differ := ((List.pairwise_cons.mp apart).1 other member).address_ne
    (Nat.zero_lt_of_lt (headed block List.mem_cons_self))
    (Nat.zero_lt_of_lt (headed other (List.mem_cons_of_mem _ member)))
  omega

theorem SameAddresses.taken (same : SameAddresses heap ledger) (nextInv : HeapInv ucHeap next)
    (taken : Taken heap next block) :
    ∃ unused, SameAddresses next (ledger.push (block.address + xHeapStructSize) unused) := by
  have apart := nextInv.apart
  have headed := nextInv.headed
  rw [taken.allocated] at apart headed
  refine ⟨?_, fun pv => ?_⟩
  · rw [same]
    rintro ⟨other, member, here⟩
    exact returned_ne apart headed member here
  · rw [Ledger.Heap.inUse_push, same pv, taken.allocated]
    simp only [List.mem_cons, exists_eq_or_imp]
    exact or_congr_left eq_comm

theorem SameAddresses.freed (same : SameAddresses heap ledger) (inv : HeapInv ucHeap heap)
    (freed : Freed heap next block) :
    SameAddresses next (ledger.drop (block.address + xHeapStructSize)) := by
  have order := List.perm_cons_erase freed.member
  have apart := (order.pairwise_iff Span.Apart.symm).mp inv.apart
  have headed : ∀ one ∈ block :: heap.allocated.erase block, xHeapStructSize < one.size :=
    fun one member => inv.headed one (order.mem_iff.mpr member)
  intro pv
  have old := same pv
  simp only [order.mem_iff, List.mem_cons, exists_eq_or_imp] at old
  rw [Ledger.Heap.inUse_drop, old, freed.allocated]
  constructor
  · rintro ⟨isFreed | remains, differs⟩
    · exact absurd isFreed.symm differs
    · exact remains
  · rintro ⟨other, member, rfl⟩
    exact ⟨.inr ⟨other, member, rfl⟩, returned_ne apart headed member⟩

theorem SameAddresses.step {call : HeapCall} (inv : HeapInv ucHeap heap)
    (same : SameAddresses heap ledger) (stepped : heapStep heap call = some next) :
    ∃ after, ledgerSystem.step ledger (ledgerCall heap call) = some after ∧
      SameAddresses next after := by
  have nextInv := heapStep_inv inv stepped
  cases call with
  | pvPortMalloc xWantedSize =>
      rcases done : pvPortMalloc heap xWantedSize with ⟨after, result⟩
      simp only [heapStep, done, Option.some.injEq] at stepped
      subst stepped
      rcases pvPortMalloc_cases inv done with ⟨-, rfl, rfl⟩ | ⟨-, block, taken, -, rfl⟩
      · exact ⟨ledger, by simp [ledgerSystem, ledgerCall, done, Objects.pvPortMalloc,
          Ledger.Heap.alloc], same⟩
      · rcases same.taken nextInv taken with ⟨unused, sameAfter⟩
        refine ⟨_, ?_, sameAfter⟩
        simp [ledgerSystem, ledgerCall, done, Objects.pvPortMalloc, Ledger.Heap.alloc, unused]
  | vPortFree pv =>
      rcases vPortFree_cases stepped with ⟨rfl, rfl⟩ | ⟨block, rfl, freed⟩
      · exact ⟨ledger, by simp [ledgerSystem, ledgerCall], same⟩
      · have inUse : ledger.InUse (block.address + xHeapStructSize) :=
          (same _).mpr ⟨block, freed.member, rfl⟩
        have nonnull : block.address + xHeapStructSize ≠ 0 := Nat.succ_ne_zero _
        refine ⟨_, ?_, same.freed inv freed⟩
        simp only [ledgerSystem, ledgerCall, nonnull, Objects.vPortFree, Ledger.Heap.free, inUse,
          if_true, if_false]

/-- Each run of `heap_4` is one of the heap that the kernel objects are proved over, with the
same addresses in use, and a release hangs in the one exactly if it does in the other. -/
theorem heap_refines_ledger {calls : List HeapCall}
    (ran : (heapSystem ucHeap).run calls = some heap) :
    ∃ ledger, ledgerSystem.run
        ((heapSystem ucHeap).mirror ledgerCall (prvHeapInit ucHeap) calls) = some ledger ∧
      SameAddresses heap ledger ∧
      ∀ pv, vPortFree heap pv = none ↔ ledgerSystem.step ledger (.vPortFree pv) = none := by
  have start : HeapInv ucHeap (prvHeapInit ucHeap) ∧
      SameAddresses (prvHeapInit ucHeap) Ledger.Heap.empty := by
    refine ⟨heapInv_init ucHeap, fun pv => ?_⟩
    simp [Ledger.Heap.InUse, Ledger.Heap.empty, prvHeapInit]
  have simulated : ∀ current call next mirrored,
      HeapInv ucHeap current ∧ SameAddresses current mirrored →
      (heapSystem ucHeap).step current call = some next →
      ∃ after, ledgerSystem.step mirrored (ledgerCall current call) = some after ∧
        HeapInv ucHeap next ∧ SameAddresses next after := by
    rintro current call next mirrored ⟨inv, same⟩ stepped
    rcases same.step inv stepped with ⟨after, mirroredStep, sameAfter⟩
    exact ⟨after, mirroredStep, heapStep_inv inv stepped, sameAfter⟩
  rcases System.simulation ledgerCall (fun heap ledger => HeapInv ucHeap heap ∧
      SameAddresses heap ledger) simulated start ran with ⟨ledger, ranLedger, -, same⟩
  exact ⟨ledger, ranLedger, same, fun pv => same.vPortFree_eq_none_iff⟩

theorem heap_refines_ledger_hole :
    let heap := (heapSystem 0x20000000).final hole hole_enabled
    ∃ ledger, ledgerSystem.run
        ((heapSystem 0x20000000).mirror ledgerCall (prvHeapInit 0x20000000) hole) = some ledger ∧
      SameAddresses heap ledger ∧
      ∀ pv, vPortFree heap pv = none ↔ ledgerSystem.step ledger (.vPortFree pv) = none :=
  heap_refines_ledger (System.run_final hole_enabled)

end MqttAccelero.Osal.Heap4
