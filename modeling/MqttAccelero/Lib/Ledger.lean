import Mathlib.Data.List.Basic
import Mathlib.Data.List.Nodup

/-!
# A heap and what it has handed out

A block has the address at which it starts and a serial number that no other
block ever has: addresses are handed out again after a block has been freed,
serial numbers are not. So a pointer that dangles is told from one to a block
that has got the same address later.

The allocator may fail and may choose any address that is not in use. Freeing
goes by the address alone, as it does in C.
-/

namespace MqttAccelero.Ledger

structure Block where
  address : ℕ
  serial : ℕ
deriving DecidableEq, Repr

/-- The blocks that are allocated, the latest first. -/
structure Heap where
  blocks : List Block
  handedOut : ℕ
  apart : (blocks.map Block.address).Nodup
  older : ∀ block ∈ blocks, block.serial < handedOut

namespace Heap

def empty : Heap := ⟨[], 0, List.nodup_nil, nofun⟩

def InUse (heap : Heap) (address : ℕ) : Prop := address ∈ heap.blocks.map Block.address

instance (heap : Heap) (address : ℕ) : Decidable (heap.InUse address) :=
  inferInstanceAs (Decidable (address ∈ heap.blocks.map Block.address))

/-- The block that an allocation at `address` returns. -/
def next (heap : Heap) (address : ℕ) : Block := ⟨address, heap.handedOut⟩

def push (heap : Heap) (address : ℕ) (unused : ¬heap.InUse address) : Heap where
  blocks := heap.next address :: heap.blocks
  handedOut := heap.handedOut + 1
  apart := List.nodup_cons.mpr ⟨unused, heap.apart⟩
  older := List.forall_mem_cons.mpr
    ⟨Nat.lt_succ_self _, fun block member => Nat.lt_succ_of_lt (heap.older block member)⟩

/-- An allocation with a given outcome: it fails, or finds room at an address. There is no
result if the address is in use. -/
def alloc (heap : Heap) : Option ℕ → Option (Heap × Option Block)
  | none => some (heap, none)
  | some address =>
      if unused : ¬heap.InUse address then
        some (heap.push address unused, some (heap.next address))
      else none

def drop (heap : Heap) (address : ℕ) : Heap where
  blocks := heap.blocks.filter fun block => block.address ≠ address
  handedOut := heap.handedOut
  apart := heap.apart.sublist (List.filter_sublist.map Block.address)
  older := fun block member => heap.older block (List.mem_of_mem_filter member)

/-- There is no result if nothing is allocated at the address of `block`. -/
def free (heap : Heap) (block : Block) : Option Heap :=
  if heap.InUse block.address then some (heap.drop block.address) else none

/-! ## Addresses in use -/

section

variable {heap : Heap} {address other : ℕ}

theorem inUse_push {unused : ¬heap.InUse address} :
    (heap.push address unused).InUse other ↔ other = address ∨ heap.InUse other := by
  simp only [InUse, push, next, List.map_cons, List.mem_cons]

theorem inUse_drop : (heap.drop address).InUse other ↔ heap.InUse other ∧ other ≠ address := by
  simp only [InUse, drop, List.mem_map, List.mem_filter, decide_eq_true_eq]
  constructor
  · rintro ⟨kept, ⟨member, differs⟩, rfl⟩
    exact ⟨⟨kept, member, rfl⟩, differs⟩
  · rintro ⟨⟨kept, member, rfl⟩, differs⟩
    exact ⟨kept, ⟨member, differs⟩, rfl⟩

end

/-! ## Growth -/

/-- `new` has been allocated since. -/
structure Grows (heap after : Heap) (new : List Block) : Prop where
  blocks : after.blocks = new ++ heap.blocks
  fresh : ∀ block ∈ new, heap.handedOut ≤ block.serial
  handedOut : heap.handedOut ≤ after.handedOut

variable {heap middle after : Heap} {new more : List Block} {block : Block}

theorem Grows.refl (heap : Heap) : heap.Grows heap [] := ⟨rfl, nofun, Nat.le_refl _⟩

theorem Grows.trans (first : heap.Grows middle new) (second : middle.Grows after more) :
    heap.Grows after (more ++ new) where
  blocks := by rw [second.blocks, first.blocks, List.append_assoc]
  fresh := by
    intro block member
    rcases List.mem_append.mp member with later | before
    · exact Nat.le_trans first.handedOut (second.fresh block later)
    · exact first.fresh block before
  handedOut := Nat.le_trans first.handedOut second.handedOut

theorem Grows.mem_iff (grown : heap.Grows after new) :
    block ∈ after.blocks ↔ block ∈ new ∨ block ∈ heap.blocks := by
  rw [grown.blocks, List.mem_append]

theorem Grows.serial_lt (grown : heap.Grows after new) (member : block ∈ new) :
    block.serial < after.handedOut :=
  after.older block (grown.mem_iff.mpr (.inl member))

theorem alloc_grows {outcome : Option ℕ} {got : Option Block}
    (allocated : heap.alloc outcome = some (after, got)) : heap.Grows after got.toList := by
  cases outcome with
  | none =>
      cases allocated
      exact .refl heap
  | some address =>
      simp only [alloc, Option.dite_none_right_eq_some, Option.some.injEq, Prod.mk.injEq] at allocated
      rcases allocated with ⟨unused, rfl, rfl⟩
      refine ⟨rfl, ?_, Nat.le_succ _⟩
      intro block member
      rw [List.mem_singleton.mp member]
      exact Nat.le_refl _

theorem alloc_eq_none_iff {outcome : Option ℕ} {got : Option Block}
    (allocated : heap.alloc outcome = some (after, got)) : got = none ↔ outcome = none := by
  cases outcome with
  | none =>
      cases allocated
      simp
  | some address =>
      simp only [alloc, Option.dite_none_right_eq_some, Option.some.injEq, Prod.mk.injEq] at allocated
      rcases allocated with ⟨unused, rfl, rfl⟩
      simp

/-! ## Shrinking -/

/-- Nothing has been allocated, and maybe something freed. -/
structure Shrinks (heap after : Heap) : Prop where
  subset : after.blocks ⊆ heap.blocks
  handedOut : after.handedOut = heap.handedOut

theorem Shrinks.refl (heap : Heap) : heap.Shrinks heap := ⟨List.Subset.refl _, rfl⟩

theorem Shrinks.trans (first : heap.Shrinks middle) (second : middle.Shrinks after) :
    heap.Shrinks after :=
  ⟨List.Subset.trans second.subset first.subset, second.handedOut.trans first.handedOut⟩

theorem free_shrinks (freed : heap.free block = some after) : heap.Shrinks after := by
  simp only [free, Option.ite_none_right_eq_some, Option.some.injEq] at freed
  rcases freed with ⟨-, rfl⟩
  exact ⟨List.filter_subset_self _, rfl⟩

theorem not_mem_of_free (freed : heap.free block = some after) : block ∉ after.blocks := by
  simp only [free, Option.ite_none_right_eq_some, Option.some.injEq] at freed
  rcases freed with ⟨-, rfl⟩
  simp [drop]

theorem not_mem_of_shrinks (shrunk : heap.Shrinks after) (gone : block ∉ heap.blocks) :
    block ∉ after.blocks :=
  fun member => gone (shrunk.subset member)

/-- Freeing the block that was allocated last undoes its allocation. -/
theorem Grows.free_last (grown : heap.Grows middle [block]) :
    ∃ after, middle.free block = some after ∧ after.blocks = heap.blocks ∧
      heap.handedOut ≤ after.handedOut := by
  have inUse : middle.InUse block.address := by
    rw [InUse, grown.blocks]
    exact List.mem_cons_self
  refine ⟨middle.drop block.address, if_pos inUse, ?_, grown.handedOut⟩
  have apart := middle.apart
  rw [grown.blocks] at apart
  have others : block.address ∉ heap.blocks.map Block.address := (List.nodup_cons.mp apart).1
  simp only [drop, grown.blocks, List.singleton_append, ne_eq, decide_not, decide_true,
    Bool.not_true, Bool.false_eq_true, not_false_eq_true, List.filter_cons_of_neg]
  rw [List.filter_eq_self]
  intro other member
  simp only [Bool.not_eq_true', decide_eq_false_iff_not]
  intro same
  apply others
  rw [← same]
  exact List.mem_map_of_mem member

end Heap

end MqttAccelero.Ledger
