import Mathlib.Data.Nat.Digits.Lemmas

/-!
# Bytes written as text and read back

Three layers of text, each with the function that reads it back: the hexadecimal
digits of a number, a column of two-digit fields in which a blank field stands
for no byte, and lines that end in carriage return and line feed.
-/

namespace MqttAccelero.HexText

/-! ## Digits -/

def digitChar (digit : ℕ) : Char :=
  if digit < 10 then Char.ofNat ('0'.toNat + digit) else Char.ofNat ('a'.toNat + digit - 10)

def digitVal (c : Char) : Option ℕ :=
  if '0' ≤ c ∧ c ≤ '9' then some (c.toNat - '0'.toNat)
  else if 'a' ≤ c ∧ c ≤ 'f' then some (c.toNat - 'a'.toNat + 10)
  else none

theorem digitVal_digitChar {digit : ℕ} (small : digit < 16) :
    digitVal (digitChar digit) = some digit := by
  interval_cases digit <;> decide +kernel

/-- What no digit is: a blank, or a character that ends a line. -/
theorem ne_digitChar_of_digitVal {c : Char} (noDigit : digitVal c = none) {digit : ℕ}
    (small : digit < 16) : digitChar digit ≠ c := by
  rintro rfl
  rw [digitVal_digitChar small] at noDigit
  cases noDigit

/-- The digits of a number, the lowest first; 0 has one digit. -/
def digitsFrom (base : ℕ) : (room : ℕ) → (value : ℕ) → List ℕ
  | 0, _ => []
  | room + 1, value =>
      value % base :: if value / base = 0 then [] else digitsFrom base room (value / base)

theorem digitsFrom_eq {base room value : ℕ} (wide : 1 < base) (nonzero : value ≠ 0)
    (fits : value < base ^ room) : digitsFrom base room value = Nat.digits base value := by
  induction room generalizing value with
  | zero =>
      rw [pow_zero] at fits
      omega
  | succ room ih =>
      rw [digitsFrom, Nat.digits_def' wide (Nat.pos_of_ne_zero nonzero)]
      split
      next last => rw [last, Nat.digits_zero]
      next more =>
        rw [ih more]
        apply Nat.div_lt_of_lt_mul
        rw [← pow_succ']
        exact fits

theorem length_digitsFrom_le_iff {base room value count : ℕ} (wide : 1 < base)
    (fits : value < base ^ room) (positive : 0 < count) (roomy : 0 < room) :
    (digitsFrom base room value).length ≤ count ↔ value < base ^ count := by
  by_cases zero : value = 0
  · subst zero
    rcases Nat.exists_eq_succ_of_ne_zero (Nat.ne_of_gt roomy) with ⟨rest, rfl⟩
    have one : (digitsFrom base (rest + 1) 0).length = 1 := by simp [digitsFrom]
    rw [Nat.succ_eq_add_one, one]
    exact iff_of_true positive (Nat.pow_pos (Nat.zero_lt_of_lt wide))
  · rw [digitsFrom_eq wide zero fits, Nat.digits_length_le_iff wide]

theorem lt_of_mem_digitsFrom {base room value digit : ℕ} (positive : 0 < base)
    (member : digit ∈ digitsFrom base room value) : digit < base := by
  induction room generalizing value with
  | zero => cases member
  | succ room ih =>
      rw [digitsFrom, List.mem_cons] at member
      rcases member with rfl | later
      · exact Nat.mod_lt _ positive
      · split at later
        · cases later
        · exact ih later

/-! ## Columns of fields -/

/-- A byte in two digits, or blanks for none, and a blank behind. -/
def field : Option UInt8 → List Char
  | some byte => [digitChar (byte.toNat / 16), digitChar (byte.toNat % 16), ' ']
  | none => [' ', ' ', ' ']

def readFields : List Char → List UInt8
  | high :: low :: _ :: rest =>
      match digitVal high, digitVal low with
      | some upper, some lower => UInt8.ofNat (16 * upper + lower) :: readFields rest
      | _, _ => readFields rest
  | _ => []

theorem digitVal_blank : digitVal ' ' = none := by decide

theorem length_field (cell : Option UInt8) : (field cell).length = 3 := by
  cases cell <;> rfl

theorem not_mem_field {c : Char} (noDigit : digitVal c = none) (noBlank : c ≠ ' ')
    (cell : Option UInt8) : c ∉ field cell := by
  cases cell with
  | none => simp [field, noBlank]
  | some byte =>
      have small : byte.toNat < 256 := byte.toNat_lt
      have high : digitChar (byte.toNat / 16) ≠ c := ne_digitChar_of_digitVal noDigit (by omega)
      have low : digitChar (byte.toNat % 16) ≠ c := ne_digitChar_of_digitVal noDigit (by omega)
      simp [field, high.symm, low.symm, noBlank]

theorem length_fields (cells : List (Option UInt8)) :
    (cells.flatMap field).length = 3 * cells.length := by
  induction cells with
  | nil => rfl
  | cons cell rest ih =>
      rw [List.flatMap_cons, List.length_append, length_field, ih, List.length_cons]
      omega

theorem readFields_fields (cells : List (Option UInt8)) :
    readFields (cells.flatMap field) = cells.filterMap id := by
  induction cells with
  | nil => rfl
  | cons cell rest ih =>
      cases cell with
      | none => simp [field, readFields, digitVal_blank, ih]
      | some byte =>
          have small : byte.toNat < 256 := byte.toNat_lt
          have high : byte.toNat / 16 < 16 := by omega
          have low : byte.toNat % 16 < 16 := by omega
          have whole : 16 * (byte.toNat / 16) + byte.toNat % 16 = byte.toNat :=
            Nat.div_add_mod ..
          simp [field, readFields, digitVal_digitChar high, digitVal_digitChar low, whole, ih]

/-- A column in which only the first fields are filled reads back as what fills them. -/
theorem readFields_prefix (items : ℕ → UInt8) (size count : ℕ) :
    readFields ((List.range count).flatMap fun n =>
        field (if n < size then some (items n) else none)) =
      (List.range (min size count)).map items := by
  rw [← List.flatMap_map (fun n => if n < size then some (items n) else none) field,
    readFields_fields, List.filterMap_map]
  induction count with
  | zero => simp
  | succ count ih =>
      rw [List.range_succ, List.filterMap_append, ih]
      by_cases filled : count < size
      · have before : min size count = count := by omega
        simp [filled, before, List.range_succ]
      · have same : min size (count + 1) = min size count := by omega
        simp [filled, same]

/-! ## Rows of a fixed length -/

/-- Rows of `width` items each, the last one possibly shorter, are all items in order. -/
theorem flatMap_range_rows {Item : Type} (items : ℕ → Item) (width size count : ℕ) :
    ((List.range count).flatMap fun row =>
        (List.range (min width (size - width * row))).map fun n => items (width * row + n)) =
      (List.range (min size (width * count))).map items := by
  induction count with
  | zero => simp
  | succ count ih =>
      have split : min size (width * (count + 1)) =
          min size (width * count) + min width (size - width * count) := by
        rw [Nat.mul_succ]
        omega
      rw [List.range_succ, List.flatMap_append, ih, split, List.range_add, List.map_append,
        List.flatMap_singleton, List.map_map]
      congr 1
      by_cases beyond : size ≤ width * count
      · simp [Nat.sub_eq_zero_of_le beyond]
      · have whole : min size (width * count) = width * count := by omega
        rw [whole]
        rfl

/-! ## Lines -/

def lineEnd : List Char := ['\r', '\n']

/-- The lines of a text, each without its end. What is behind the last line end is dropped. -/
def linesOf (line : List Char) : List Char → List (List Char)
  | '\r' :: '\n' :: rest => line :: linesOf [] rest
  | c :: rest => linesOf (line ++ [c]) rest
  | [] => []

theorem linesOf_append {row : List Char} (plain : '\r' ∉ row) (line rest : List Char) :
    linesOf line (row ++ lineEnd ++ rest) = (line ++ row) :: linesOf [] rest := by
  induction row generalizing line with
  | nil => simp [lineEnd, linesOf]
  | cons c row ih =>
      rw [List.mem_cons, not_or] at plain
      have next : linesOf line (c :: row ++ lineEnd ++ rest) =
          linesOf (line ++ [c]) (row ++ lineEnd ++ rest) := by
        rw [List.cons_append, List.cons_append, linesOf]
        intro _ isReturn
        exact absurd isReturn.symm plain.1
      rw [next, ih plain.2, List.append_assoc, List.singleton_append]

/-- Lines of plain text are read back. -/
theorem linesOf_flatMap {rows : List (List Char)} (plain : ∀ row ∈ rows, '\r' ∉ row) :
    linesOf [] (rows.flatMap (· ++ lineEnd)) = rows := by
  induction rows with
  | nil => rfl
  | cons row rest ih =>
      rw [List.flatMap_cons, linesOf_append (plain row List.mem_cons_self), List.nil_append,
        ih fun other member => plain other (List.mem_cons_of_mem _ member)]

end MqttAccelero.HexText
