import Mathlib.Data.Int.ModEq
import Mathlib.Logic.Function.Basic
import MqttAccelero.Lib.Memory

/-!
# Cyclic buffers

Cells of an array of `capacity` elements with the first one behind the last. What
is read and written is given by where it starts and how much it is, so that a
piece that wraps around the end is one piece.
-/

namespace MqttAccelero.Cyclic

open Memory

universe u

variable {α : Type u}

/-- `count` cells from `start` on. -/
def read (cells : ℕ → α) (capacity start count : ℕ) : List α :=
  (List.range count).map fun offset => cells ((start + offset) % capacity)

/-- Write to consecutive cells from `start` on. -/
def write (cells : ℕ → α) (capacity start : ℕ) : List α → ℕ → α
  | [] => cells
  | value :: rest => write (Function.update cells (start % capacity) value) capacity (start + 1) rest

variable {cells : ℕ → α} {capacity start count : ℕ} {value : α} {values : List α}

theorem write_cons : write cells capacity start (value :: values) =
    write (Function.update cells (start % capacity) value) capacity (start + 1) values := rfl

@[simp]
theorem length_read : (read cells capacity start count).length = count := by
  simp [read]

@[simp]
theorem read_zero : read cells capacity start 0 = [] := rfl

theorem read_add (first second : ℕ) : read cells capacity start (first + second) =
    read cells capacity start first ++ read cells capacity (start + first) second := by
  simp [read, List.range_add, Function.comp_def, Nat.add_assoc]

theorem read_mod : read cells capacity (start % capacity) count =
    read cells capacity start count := by
  simp [read, Nat.mod_add_mod]

theorem read_drop (taken : ℕ) : (read cells capacity start count).drop taken =
    read cells capacity (start + taken) (count - taken) := by
  rcases Nat.le_total taken count with enough | few
  · conv_lhs => rw [← Nat.add_sub_of_le enough, read_add]
    exact List.drop_left' length_read
  · rw [Nat.sub_eq_zero_of_le few, read_zero, List.drop_of_length_le (by simpa using few)]

theorem read_take (taken : ℕ) : (read cells capacity start count).take taken =
    read cells capacity start (min taken count) := by
  rw [read, ← List.map_take, List.take_range, read]

/-- Up to the end of the array the cells are read as they lie. -/
theorem read_eq_load (fits : start + count ≤ capacity) :
    read cells capacity start count = load cells start count := by
  apply List.map_congr_left
  intro offset inside
  have below := List.mem_range.mp inside
  rw [Nat.mod_eq_of_lt (by omega)]

/-- Different offsets below the capacity are different cells. -/
theorem cell_ne {first second : ℕ} (below : first < capacity) (belowToo : second < capacity)
    (differ : first ≠ second) : (start + first) % capacity ≠ (start + second) % capacity := by
  intro same
  apply differ
  exact Nat.ModEq.eq_of_lt_of_lt (Nat.ModEq.add_left_cancel' start same) below belowToo

theorem read_update_of_ne {cell : ℕ}
    (outside : ∀ offset < count, cell ≠ (start + offset) % capacity) :
    read (Function.update cells cell value) capacity start count =
      read cells capacity start count := by
  apply List.map_congr_left
  intro offset inside
  exact Function.update_of_ne (outside offset (List.mem_range.mp inside)).symm _ _

/-- The cell behind what is read is added to it. -/
theorem read_update_next (room : count < capacity) :
    read (Function.update cells ((start + count) % capacity) value) capacity start (count + 1) =
      read cells capacity start count ++ [value] := by
  rw [read_add, read_update_of_ne]
  · simp [read]
  · intro offset below
    exact cell_ne room (Nat.lt_trans below room) (Nat.ne_of_gt below)

/-- What is written behind what is read is added to it. -/
theorem read_write_next (room : count + values.length ≤ capacity) :
    read (write cells capacity (start + count) values) capacity start (count + values.length) =
      read cells capacity start count ++ values := by
  induction values generalizing cells count with
  | nil => exact (List.append_nil _).symm
  | cons first rest ih =>
      rw [List.length_cons] at room
      have roomRest : count + 1 + rest.length ≤ capacity := by omega
      have total : count + (first :: rest).length = count + 1 + rest.length := by
        rw [List.length_cons]
        omega
      rw [total, write_cons, Nat.add_assoc, ih roomRest, read_update_next (by omega),
        List.append_assoc, List.singleton_append]

theorem write_mod : write cells capacity (start % capacity) values =
    write cells capacity start values := by
  induction values generalizing cells start with
  | nil => rfl
  | cons head rest ih =>
      rw [write_cons, write_cons, Nat.mod_mod, ← ih, Nat.mod_add_mod, ih]

end MqttAccelero.Cyclic
