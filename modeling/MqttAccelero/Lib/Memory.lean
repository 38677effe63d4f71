import Mathlib.Algebra.Group.Nat.Defs
import Mathlib.Data.List.Basic
import Mathlib.Data.Set.Function
import Mathlib.Order.Interval.Set.Defs

/-!
# Byte memory

Memory is a function from addresses to cells, so that a store past the end of a
buffer is an ordinary store and whether one can happen is something to prove.
-/

namespace MqttAccelero.Memory

universe u

variable {α : Type u}

/-- Write `cells` at consecutive addresses from `start`. -/
def store (memory : ℕ → α) (start : ℕ) (cells : List α) : ℕ → α := fun address =>
  if start ≤ address then cells[address - start]?.getD (memory address) else memory address

/-- Read `length` consecutive cells from `start`. -/
def load (memory : ℕ → α) (start length : ℕ) : List α :=
  (List.range length).map fun offset => memory (start + offset)

@[simp]
theorem length_load (memory : ℕ → α) (start length : ℕ) :
    (load memory start length).length = length := by
  simp [load]

theorem load_congr {left right : ℕ → α} {start length : ℕ}
    (agree : ∀ address, start ≤ address → address < start + length →
      left address = right address) :
    load left start length = load right start length := by
  apply List.map_congr_left
  intro offset offsetMem
  have bound := List.mem_range.mp offsetMem
  exact agree _ (by omega) (by omega)

theorem load_add (memory : ℕ → α) (start first second : ℕ) :
    load memory start (first + second) =
      load memory start first ++ load memory (start + first) second := by
  simp [load, List.range_add, List.map_map, Function.comp_def, Nat.add_assoc]

theorem store_of_outside {memory : ℕ → α} {start address : ℕ} {cells : List α}
    (outside : address < start ∨ start + cells.length ≤ address) :
    store memory start cells address = memory address := by
  unfold store
  split
  · have beyond : cells.length ≤ address - start := by omega
    rw [List.getElem?_eq_none beyond, Option.getD_none]
  · rfl

/-- A store is seen only where it writes. -/
theorem eqOn_store (memory : ℕ → α) (start : ℕ) (cells : List α) :
    Set.EqOn (store memory start cells) memory (Set.Ico start (start + cells.length))ᶜ := by
  intro address outside
  apply store_of_outside
  simp only [Set.mem_compl_iff, Set.mem_Ico, not_and, not_lt] at outside
  omega

theorem eqOn_store_of_le (memory : ℕ → α) (start : ℕ) {length : ℕ} {cells : List α}
    (fits : cells.length ≤ length) :
    Set.EqOn (store memory start cells) memory (Set.Ico start (start + length))ᶜ := by
  apply (eqOn_store memory start cells).mono
  intro address outside
  simp only [Set.mem_compl_iff, Set.mem_Ico, not_and, not_lt] at outside ⊢
  omega

theorem load_store (memory : ℕ → α) (start : ℕ) (cells : List α) :
    load (store memory start cells) start cells.length = cells := by
  apply List.ext_getElem (by simp)
  intro index inLoad inCells
  simp [load, store, List.getElem?_eq_getElem inCells]

theorem load_store_of_le {memory : ℕ → α} {start length address : ℕ} {cells : List α}
    (before : start + length ≤ address) :
    load (store memory address cells) start length = load memory start length := by
  apply load_congr
  intro other _ below
  exact store_of_outside (Or.inl (by omega))

theorem load_store_append (memory : ℕ → α) (start length : ℕ) (cells : List α) :
    load (store memory (start + length) cells) start (length + cells.length) =
      load memory start length ++ cells := by
  rw [load_add, load_store, load_store_of_le (Nat.le_refl _)]

theorem take_drop_load (memory : ℕ → α) (start length skip count : ℕ)
    (inside : skip + count ≤ length) :
    ((load memory start length).drop skip).take count = load memory (start + skip) count := by
  rcases Nat.exists_eq_add_of_le inside with ⟨rest, rfl⟩
  rw [Nat.add_assoc, load_add, List.drop_left' (length_load _ _ _), load_add,
    List.take_left' (length_load _ _ _)]

theorem load_store_of_disjoint {memory : ℕ → α} {start length address : ℕ} {cells : List α}
    (disjoint : start + length ≤ address ∨ address + cells.length ≤ start) :
    load (store memory address cells) start length = load memory start length := by
  apply load_congr
  intro other fromStart toEnd
  apply store_of_outside
  omega

/-! ## Little-endian words -/

/-- The `width` low bytes of a number, lowest first. -/
def leBytes : ℕ → ℕ → List UInt8
  | 0, _ => []
  | width + 1, value => UInt8.ofNat value :: leBytes width (value / 256)

def leNat : List UInt8 → ℕ
  | [] => 0
  | byte :: rest => byte.toNat + 256 * leNat rest

@[simp]
theorem length_leBytes (width value : ℕ) : (leBytes width value).length = width := by
  induction width generalizing value with
  | zero => rfl
  | succ width ih => simp [leBytes, ih]

theorem leNat_leBytes (width value : ℕ) : leNat (leBytes width value) = value % 256 ^ width := by
  induction width generalizing value with
  | zero => simp [leBytes, leNat, Nat.mod_one]
  | succ width ih =>
      have lowByte : (UInt8.ofNat value).toNat = value % 256 := by simp
      rw [leBytes, leNat, ih, lowByte, Nat.pow_succ', Nat.mod_mul]

def storeLe (memory : ℕ → UInt8) (start width value : ℕ) : ℕ → UInt8 :=
  store memory start (leBytes width value)

def loadLe (memory : ℕ → UInt8) (start width : ℕ) : ℕ :=
  leNat (load memory start width)

theorem loadLe_storeLe (memory : ℕ → UInt8) (start width value : ℕ) :
    loadLe (storeLe memory start width value) start width = value % 256 ^ width := by
  have held := load_store memory start (leBytes width value)
  rw [length_leBytes] at held
  rw [loadLe, storeLe, held, leNat_leBytes]

theorem loadLe_storeLe_of_lt {memory : ℕ → UInt8} {start width value : ℕ}
    (fits : value < 256 ^ width) :
    loadLe (storeLe memory start width value) start width = value := by
  rw [loadLe_storeLe, Nat.mod_eq_of_lt fits]

theorem loadLe_store_of_disjoint {memory : ℕ → UInt8} {start width address : ℕ}
    {cells : List UInt8}
    (disjoint : start + width ≤ address ∨ address + cells.length ≤ start) :
    loadLe (store memory address cells) start width = loadLe memory start width := by
  rw [loadLe, load_store_of_disjoint disjoint, loadLe]

theorem loadLe_storeLe_of_disjoint {memory : ℕ → UInt8} {start width address other value : ℕ}
    (disjoint : start + width ≤ address ∨ address + other ≤ start) :
    loadLe (storeLe memory address other value) start width = loadLe memory start width := by
  apply loadLe_store_of_disjoint
  rwa [length_leBytes]

end MqttAccelero.Memory
