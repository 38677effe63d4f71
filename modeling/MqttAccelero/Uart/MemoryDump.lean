import Mathlib.Data.Int.Notation
import MqttAccelero.Lib.HexText

/-!
# The memory dump on the console

`dbgio_print_memory` prints rows of up to 16 bytes: the address, two blocks of
eight hexadecimal fields and the bytes as text. What is printed is followed up
to `_putchar`, through the conversions `%04lx`, `%02x` and `%c` of the printf
library. What `vprintf` makes of the heading is a parameter.

`%04lx` pads an address to four digits, of which it may have eight: rows are
equally wide only while the number of digits stays the same.
-/

namespace MqttAccelero.Dbgio

open HexText

/-! ## Conversions of the printf library -/

def printfNtoaBufferSize : ℕ := 32

/-- `_ntoa_long` in base 16: the buffer, with the lowest digit first. -/
def ntoaLong (value : ℕ) : List Char :=
  (digitsFrom 16 printfNtoaBufferSize value).map digitChar

/-- `_ntoa_format` and `_out_rev` where the flag `0` is the only one. -/
def ntoaFormat (buf : List Char) (width : ℕ) : List Char :=
  (buf ++ List.replicate (min width printfNtoaBufferSize - buf.length) '0').reverse

/-- `%0<width>x`, and the same with `l`: `long` has 32 bits here. -/
def printfHex (width : ℕ) (value : UInt32) : List Char :=
  ntoaFormat (ntoaLong value.toNat) width

/-- `%c`; `_out_char` leaves out the character 0. -/
def printfChar (ch : ℤ) : List Char :=
  if ch % 256 = 0 then [] else [Char.ofNat (ch % 256).toNat]

/-! ## The dump -/

structure DumpArgs where
  /-- `char` is a signed type. -/
  charSigned : Bool
  /-- The bytes from `data` on, also those behind the buffer. -/
  data : ℕ → UInt8
  /-- `data` itself. -/
  address : UInt32
  size : UInt32
  /-- `format` with its arguments, if it is not NULL. -/
  heading : Option (List Char)

structure Dump where
  out : List Char
  /-- The offsets into `data` of the bytes read. -/
  reads : List ℕ
deriving DecidableEq, Repr

def charOf (signed : Bool) (byte : UInt8) : ℤ :=
  if signed ∧ 128 ≤ byte.toNat then (byte.toNat : ℤ) - 256 else byte.toNat

variable (args : DumpArgs)

/-- The `n`-th pass of the first inner loop. -/
def hexField (pdata len n : ℕ) : List Char :=
  (if n = 8 then [' '] else []) ++
    if n < len then printfHex 2 (args.data (pdata + n)).toUInt32 ++ [' '] else [' ', ' ', ' ']

/-- The `n`-th pass of the second inner loop. -/
def textField (pdata len n : ℕ) : List Char :=
  let byte : ℤ := if n < len then charOf args.charSigned (args.data (pdata + n)) else '.'.toNat
  let ch : ℤ := if ' '.toNat ≤ byte ∧ byte ≤ '~'.toNat then byte else '.'.toNat
  printfChar ch

def rowText (line : UInt32) (len : ℕ) : List Char :=
  let pdata := (16 * line).toNat
  printfHex 4 (args.address + 16 * line) ++ [' ', ' '] ++
    (List.range 16).flatMap (hexField args pdata len) ++ [' '] ++
    (List.range 16).flatMap (textField args pdata len)

/-- Both inner loops read the bytes below `len`. -/
def rowReads (line : UInt32) (len : ℕ) : List ℕ :=
  let pdata := (16 * line).toNat
  let inRow := ((List.range 16).filter (· < len)).map (pdata + ·)
  inRow ++ inRow

/-- The outer loop, with `past` for the decrement of `countdown`. -/
def rowLoop (past : UInt32 → UInt32) : (remaining : ℕ) → (line countdown : UInt32) → Dump → Dump
  | 0, _, _, dump => dump
  | remaining + 1, line, countdown, dump =>
      let len := (if countdown > 16 then 16 else countdown).toNat
      rowLoop past remaining (line + 1) (past countdown)
        ⟨dump.out ++ (rowText args line len ++ lineEnd), dump.reads ++ rowReads line len⟩

def lineCount (size : UInt32) : UInt32 := size / 16 + if size % 16 = 0 then 0 else 1

def headingText : Option (List Char) → List Char
  | none => []
  | some text => text ++ lineEnd

def dbgioPrintMemoryWith (past : UInt32 → UInt32) : Dump :=
  rowLoop args past (lineCount args.size).toNat 0 args.size ⟨headingText args.heading, []⟩

def dbgioPrintMemory : Dump := dbgioPrintMemoryWith args fun countdown => countdown - 16

/-! ## What is claimed of a dump, and what decides it -/

/-- The rows that are printed behind the heading. -/
def Dump.rows (dump : Dump) : List (List Char) :=
  linesOf [] (dump.out.drop (headingText args.heading).length)

/-- The bytes in the hexadecimal fields of a row: two blocks of 24 characters, behind the
address and two blanks, and with a blank between them. -/
def rowBytes (row : List Char) : List UInt8 :=
  let columns := (row.dropWhile (· ≠ ' ')).drop 2
  readFields (columns.take 24) ++ readFields ((columns.drop 25).take 24)

def textColumn (row : List Char) : List Char := row.drop (row.length - 16)

def Printable (byte : UInt8) : Prop := 0x20 ≤ byte.toNat ∧ byte.toNat ≤ 0x7e

instance (byte : UInt8) : Decidable (Printable byte) :=
  inferInstanceAs (Decidable (_ ∧ _))

structure FaithfulDump (dump : Dump) : Prop where
  reads : ∀ k, k ∈ dump.reads ↔ k < args.size.toNat
  heading : headingText args.heading <+: dump.out
  count : (dump.rows args).length = (args.size.toNat + 15) / 16
  decodes : (dump.rows args).flatMap rowBytes = (List.range args.size.toNat).map args.data
  sameWidth : ∀ row ∈ dump.rows args, ∀ other ∈ dump.rows args, row.length = other.length
  text : ∀ k row, (dump.rows args)[k]? = some row →
    textColumn row = (List.range 16).map fun n =>
      if 16 * k + n < args.size.toNat ∧ Printable (args.data (16 * k + n)) then
        Char.ofNat (args.data (16 * k + n)).toNat
      else '.'
  /-- What `countdown` becomes where it is decremented past zero does not matter. -/
  countdown : ∀ past : UInt32 → UInt32, (∀ count, 16 ≤ count → past count = count - 16) →
    dbgioPrintMemoryWith args past = dump

/-- No row starts on the other side of an address from which on one more digit is printed than
the first row does. -/
def SameSide : Prop :=
  ∀ boundary ∈ [0x10000, 0x100000, 0x1000000, 0x10000000],
    ∀ k < (args.size.toNat + 15) / 16,
      (args.address + 16 * UInt32.ofNat k).toNat < boundary ↔ args.address.toNat < boundary

variable {args : DumpArgs} {pdata len n : ℕ}

/-! ## One row -/

theorem printfHex_two (byte : UInt8) :
    printfHex 2 byte.toUInt32 ++ [' '] = field (some byte) := by
  have small : byte.toNat < 256 := byte.toNat_lt
  rw [printfHex, UInt8.toNat_toUInt32, ntoaLong, printfNtoaBufferSize, digitsFrom]
  by_cases oneDigit : byte.toNat / 16 = 0
  · have padding : digitChar 0 = '0' := rfl
    simp [oneDigit, ntoaFormat, printfNtoaBufferSize, field, padding]
  · have last : byte.toNat / 16 / 16 = 0 := by omega
    have upper : byte.toNat / 16 % 16 = byte.toNat / 16 := by omega
    simp [oneDigit, digitsFrom, last, upper, ntoaFormat, printfNtoaBufferSize, field]

theorem hexField_eq : hexField args pdata len n =
    (if n = 8 then [' '] else []) ++
      field (if n < len then some (args.data (pdata + n)) else none) := by
  rw [hexField]
  split <;> split <;> simp [printfHex_two, field]

/-- Eight fields, of which the first `len` are filled. -/
def hexBlock (args : DumpArgs) (pdata len : ℕ) : List Char :=
  (List.range 8).flatMap fun n => field (if n < len then some (args.data (pdata + n)) else none)

theorem length_hexBlock : (hexBlock args pdata len).length = 24 := by
  rw [hexBlock, ← List.flatMap_map (fun n => if n < len then some (args.data (pdata + n)) else none),
    length_fields, List.length_map, List.length_range]

theorem readFields_hexBlock : readFields (hexBlock args pdata len) =
    (List.range (min len 8)).map fun n => args.data (pdata + n) :=
  readFields_prefix (fun n => args.data (pdata + n)) len 8

/-- The blank between the blocks is printed in front of the ninth field. -/
theorem hexFields_eq : (List.range 16).flatMap (hexField args pdata len) =
    hexBlock args pdata len ++ [' '] ++ hexBlock args (pdata + 8) (len - 8) := by
  have firstBlock : ∀ n ∈ List.range 8, hexField args pdata len n =
      field (if n < len then some (args.data (pdata + n)) else none) := by
    intro n below
    have notNinth : n ≠ 8 := Nat.ne_of_lt (List.mem_range.mp below)
    rw [hexField_eq, if_neg notNinth, List.nil_append]
  have secondBlock : ∀ n, field (if 8 + n < len then some (args.data (pdata + (8 + n))) else none) =
      field (if n < len - 8 then some (args.data (pdata + 8 + n)) else none) := by
    intro n
    have inRow_iff : 8 + n < len ↔ n < len - 8 := by omega
    simp only [inRow_iff, Nat.add_assoc]
  have blocks : (List.range 8).flatMap (fun n => hexField args pdata len (8 + n)) =
      [' '] ++ hexBlock args (pdata + 8) (len - 8) := by
    have rest : ∀ n ∈ List.range 7, hexField args pdata len (8 + (n + 1)) =
        field (if n + 1 < len - 8 then some (args.data (pdata + 8 + (n + 1))) else none) := by
      intro n _
      have notNinth : 8 + (n + 1) ≠ 8 := by omega
      rw [hexField_eq, if_neg notNinth, List.nil_append, secondBlock]
    rw [hexBlock, show List.range 8 = 0 :: (List.range 7).map (· + 1) from rfl, List.flatMap_cons,
      List.flatMap_cons, List.flatMap_map, List.flatMap_map, List.flatMap_congr rest,
      hexField_eq, if_pos rfl, secondBlock, List.append_assoc]
  rw [show 16 = 8 + 8 from rfl, List.range_add, List.flatMap_append, List.flatMap_congr firstBlock,
    List.flatMap_map, blocks, List.append_assoc]
  rfl

theorem printfChar_of_lt {code : ℕ} (positive : 0 < code) (small : code < 256) :
    printfChar code = [Char.ofNat code] := by
  have same : (code : ℤ) % 256 = code := by omega
  have nonzero : (code : ℤ) ≠ 0 := by omega
  rw [printfChar, same, if_neg nonzero, Int.toNat_natCast]

/-- A byte from 0x80 on is negative as a signed `char` and above `'~'` as an unsigned one. -/
theorem textField_eq : textField args pdata len n =
    [if n < len ∧ Printable (args.data (pdata + n)) then Char.ofNat (args.data (pdata + n)).toNat
      else '.'] := by
  have dot : printfChar ('.'.toNat : ℕ) = ['.'] := rfl
  have blank : ' '.toNat = 0x20 := rfl
  have tilde : '~'.toNat = 0x7e := rfl
  rw [textField]
  by_cases inRow : n < len
  · have small : (args.data (pdata + n)).toNat < 256 := (args.data (pdata + n)).toNat_lt
    simp only [inRow, if_true, true_and, Printable, blank, tilde]
    by_cases printable : 0x20 ≤ (args.data (pdata + n)).toNat ∧ (args.data (pdata + n)).toNat ≤ 0x7e
    · have positive : ¬(args.charSigned ∧ 128 ≤ (args.data (pdata + n)).toNat) := by omega
      have shown : (0x20 : ℕ) ≤ ((args.data (pdata + n)).toNat : ℤ) ∧
          ((args.data (pdata + n)).toNat : ℤ) ≤ (0x7e : ℕ) := by omega
      rw [charOf, if_neg positive, if_pos shown, if_pos printable]
      exact printfChar_of_lt (by omega) (by omega)
    · have hidden : ¬((0x20 : ℕ) ≤ charOf args.charSigned (args.data (pdata + n)) ∧
          charOf args.charSigned (args.data (pdata + n)) ≤ (0x7e : ℕ)) := by
        rw [charOf]
        split <;> omega
      rw [if_neg hidden, if_neg printable]
      exact dot
  · simp only [inRow, if_false, false_and]
    exact dot

/-- The text column of a row. -/
def rowChars (args : DumpArgs) (pdata len : ℕ) : List Char :=
  (List.range 16).map fun n =>
    if n < len ∧ Printable (args.data (pdata + n)) then Char.ofNat (args.data (pdata + n)).toNat
    else '.'

theorem textFields_eq :
    (List.range 16).flatMap (textField args pdata len) = rowChars args pdata len := by
  rw [rowChars, List.map_eq_flatMap]
  apply List.flatMap_congr
  intro n _
  exact textField_eq

theorem length_rowChars : (rowChars args pdata len).length = 16 := by
  rw [rowChars, List.length_map, List.length_range]

/-- The address is printed in digits. -/
theorem exists_digit_of_mem_printfHex {width : ℕ} {value : UInt32} {c : Char}
    (member : c ∈ printfHex width value) : ∃ digit < 16, digitChar digit = c := by
  rw [printfHex, ntoaFormat, List.mem_reverse, List.mem_append] at member
  rcases member with inBuffer | isPadding
  · rcases List.mem_map.mp inBuffer with ⟨digit, isDigit, rfl⟩
    exact ⟨digit, lt_of_mem_digitsFrom (by decide) isDigit, rfl⟩
  · rw [List.eq_of_mem_replicate isPadding]
    exact ⟨0, by decide, rfl⟩

theorem not_mem_printfHex {width : ℕ} {value : UInt32} {c : Char} (noDigit : digitVal c = none) :
    c ∉ printfHex width value := by
  intro member
  rcases exists_digit_of_mem_printfHex member with ⟨digit, small, rfl⟩
  exact ne_digitChar_of_digitVal noDigit small rfl

variable {line : UInt32}

theorem rowText_eq : rowText args line len =
    printfHex 4 (args.address + 16 * line) ++
      ([' ', ' '] ++ (hexBlock args (16 * line).toNat len ++
        ([' '] ++ (hexBlock args ((16 * line).toNat + 8) (len - 8) ++
          ([' '] ++ rowChars args (16 * line).toNat len))))) := by
  simp only [rowText, hexFields_eq, textFields_eq, List.append_assoc]

theorem length_rowText :
    (rowText args line len).length = (printfHex 4 (args.address + 16 * line)).length + 68 := by
  simp [rowText_eq, length_hexBlock, length_rowChars]

theorem textColumn_rowText :
    textColumn (rowText args line len) = rowChars args (16 * line).toNat len := by
  rw [textColumn, rowText, textFields_eq]
  apply List.drop_left'
  simp only [List.length_append, length_rowChars]
  omega

theorem rowBytes_rowText (fits : len ≤ 16) : rowBytes (rowText args line len) =
    (List.range len).map fun n => args.data ((16 * line).toNat + n) := by
  have noBlank : ∀ c ∈ printfHex 4 (args.address + 16 * line), decide (c ≠ ' ') = true := by
    intro c member
    rw [decide_eq_true_iff]
    rintro rfl
    exact not_mem_printfHex digitVal_blank member
  have first : ∀ rest, (hexBlock args (16 * line).toNat len ++ rest).take 24 =
      hexBlock args (16 * line).toNat len := fun rest => List.take_left' length_hexBlock
  have second : ∀ rest, (hexBlock args (16 * line).toNat len ++ ([' '] ++
      (hexBlock args ((16 * line).toNat + 8) (len - 8) ++ rest))).drop 25 =
        hexBlock args ((16 * line).toNat + 8) (len - 8) ++ rest := by
    intro rest
    rw [← List.append_assoc]
    apply List.drop_left'
    rw [List.length_append, length_hexBlock, List.length_singleton]
  have columns : ∀ rest, ((([' ', ' '] ++ rest).dropWhile fun c => decide (c ≠ ' ')).drop 2) = rest :=
    fun _ => rfl
  have split : len = min len 8 + min (len - 8) 8 := by omega
  simp only [rowBytes]
  rw [rowText_eq, List.dropWhile_append_of_pos noBlank, columns, first, second,
    List.take_left' length_hexBlock, readFields_hexBlock, readFields_hexBlock]
  conv_rhs => rw [split, List.range_add, List.map_append, List.map_map]
  congr 1
  apply List.map_congr_left
  intro n inSecond
  have below := List.mem_range.mp inSecond
  have full : min len 8 = 8 := by omega
  rw [Function.comp_apply, full, Nat.add_assoc]

theorem ofNat_ne_return : ∀ code < 0x7f, 0x20 ≤ code → Char.ofNat code ≠ '\r' := by
  decide +kernel

theorem return_not_mem_rowText : '\r' ∉ rowText args line len := by
  have noDigit : digitVal '\r' = none := by decide
  have notInBlock : ∀ pdata len, '\r' ∉ hexBlock args pdata len := by
    intro pdata len member
    rcases List.mem_flatMap.mp member with ⟨n, -, inField⟩
    exact not_mem_field noDigit (by decide) _ inField
  have notInText : '\r' ∉ rowChars args (16 * line).toNat len := by
    intro member
    rcases List.mem_map.mp member with ⟨n, -, isReturn⟩
    split at isReturn
    next printable =>
      exact ofNat_ne_return _ (Nat.lt_succ_of_le printable.2.2) printable.2.1 isReturn
    next => exact absurd isReturn (by decide)
  simp only [rowText_eq, List.mem_append, not_or]
  have notBlank : '\r' ∉ [' '] := by decide
  exact ⟨not_mem_printfHex noDigit, by decide, notInBlock _ _, notBlank, notInBlock _ _, notBlank,
    notInText⟩

theorem mem_rowReads (fits : len ≤ 16) {k : ℕ} :
    k ∈ rowReads line len ↔ ∃ n < len, k = (16 * line).toNat + n := by
  have inRow_iff : ∀ n, n < 16 ∧ n < len ↔ n < len := by omega
  simp [rowReads, inRow_iff, eq_comm]

/-! ## All rows -/

theorem toNat_sixteen : (16 : UInt32).toNat = 16 := rfl

theorem toNat_lineCount (size : UInt32) : (lineCount size).toNat = (size.toNat + 15) / 16 := by
  have bound := size.toNat_lt
  have rest : size % 16 = 0 ↔ size.toNat % 16 = 0 := by
    rw [← UInt32.toNat_inj, UInt32.toNat_mod]
    rfl
  have one : (1 : UInt32).toNat = 1 := rfl
  rw [lineCount]
  split
  next full =>
    have exact_ := rest.mp full
    rw [UInt32.add_zero, UInt32.toNat_div, toNat_sixteen]
    omega
  next short =>
    have remains := mt rest.mpr short
    rw [UInt32.toNat_add, UInt32.toNat_div, toNat_sixteen, one]
    omega

/-- The `k`-th row, with what is left of the buffer there. -/
def rowOf (args : DumpArgs) (k : ℕ) : List Char :=
  rowText args (UInt32.ofNat k) (min 16 (args.size.toNat - 16 * k))

def readsOf (args : DumpArgs) (k : ℕ) : List ℕ :=
  rowReads (UInt32.ofNat k) (min 16 (args.size.toNat - 16 * k))

/-- `countdown` is what is left of the buffer as long as there is another row. -/
theorem rowLoop_eq {past : UInt32 → UInt32} (agrees : ∀ count, 16 ≤ count → past count = count - 16)
    {remaining k : ℕ} {line countdown : UInt32} {dump : Dump} (isLine : line = UInt32.ofNat k)
    (rows : k + remaining = (args.size.toNat + 15) / 16)
    (left : remaining ≠ 0 → countdown.toNat + 16 * k = args.size.toNat) :
    rowLoop args past remaining line countdown dump =
      ⟨dump.out ++ ((List.range' k remaining).map (rowOf args)).flatMap (· ++ lineEnd),
        dump.reads ++ (List.range' k remaining).flatMap (readsOf args)⟩ := by
  induction remaining generalizing k line countdown dump with
  | zero => simp [rowLoop]
  | succ remaining ih =>
      have isLeft := left (Nat.succ_ne_zero remaining)
      have len_eq : (if countdown > 16 then 16 else countdown).toNat =
          min 16 (args.size.toNat - 16 * k) := by
        split
        next more =>
          have moreNat : 16 < countdown.toNat := UInt32.lt_iff_toNat_lt.mp more
          rw [toNat_sixteen]
          omega
        next last =>
          have lastNat : ¬16 < countdown.toNat := fun lt => last (UInt32.lt_iff_toNat_lt.mpr lt)
          omega
      have nextLine : line + 1 = UInt32.ofNat (k + 1) := by
        rw [isLine, UInt32.ofNat_add]
        rfl
      have nextLeft : remaining ≠ 0 → (past countdown).toNat + 16 * (k + 1) = args.size.toNat := by
        intro another
        have full : (16 : UInt32) ≤ countdown := by
          rw [UInt32.le_iff_toNat_le, toNat_sixteen]
          omega
        rw [agrees countdown full, UInt32.toNat_sub_of_le _ _ full, toNat_sixteen]
        omega
      rw [rowLoop]
      simp only [len_eq]
      rw [ih nextLine (by omega) nextLeft, isLine, List.range'_succ]
      simp [rowOf, readsOf, List.append_assoc]

theorem dbgioPrintMemoryWith_eq {past : UInt32 → UInt32}
    (agrees : ∀ count, 16 ≤ count → past count = count - 16) :
    dbgioPrintMemoryWith args past =
      ⟨headingText args.heading ++
          ((List.range ((args.size.toNat + 15) / 16)).map (rowOf args)).flatMap (· ++ lineEnd),
        (List.range ((args.size.toNat + 15) / 16)).flatMap (readsOf args)⟩ := by
  have firstLine : (0 : UInt32) = UInt32.ofNat 0 := rfl
  have allLeft : args.size.toNat + 16 * 0 = args.size.toNat := rfl
  rw [dbgioPrintMemoryWith, toNat_lineCount,
    rowLoop_eq agrees firstLine (Nat.zero_add _) fun _ => allLeft, ← List.range_eq_range',
    List.nil_append]

theorem dbgioPrintMemory_eq : dbgioPrintMemory args =
    ⟨headingText args.heading ++
        ((List.range ((args.size.toNat + 15) / 16)).map (rowOf args)).flatMap (· ++ lineEnd),
      (List.range ((args.size.toNat + 15) / 16)).flatMap (readsOf args)⟩ :=
  dbgioPrintMemoryWith_eq fun _ _ => rfl

/-- What is printed is the same whether `char` is signed or not. -/
theorem dbgioPrintMemory_charSigned (signed : Bool) :
    dbgioPrintMemory { args with charSigned := signed } = dbgioPrintMemory args := by
  have sameRow : rowOf { args with charSigned := signed } = rowOf args := by
    funext k
    simp only [rowOf, rowText_eq]
    rfl
  rw [dbgioPrintMemory_eq, dbgioPrintMemory_eq, sameRow]
  rfl

example : (dbgioPrintMemory ⟨true, fun k => [0x48, 0x69, 0x0a].getD k 0, 0x20000000, 3, none⟩).out =
    ("20000000  48 69 0a                                          Hi..............").toList ++
      lineEnd := by
  decide +kernel

theorem rows_dbgioPrintMemory : (dbgioPrintMemory args).rows args =
    (List.range ((args.size.toNat + 15) / 16)).map (rowOf args) := by
  have plain : ∀ row ∈ (List.range ((args.size.toNat + 15) / 16)).map (rowOf args), '\r' ∉ row := by
    intro row member
    rcases List.mem_map.mp member with ⟨k, -, rfl⟩
    exact return_not_mem_rowText
  rw [Dump.rows, dbgioPrintMemory_eq, List.drop_left, linesOf_flatMap plain]

theorem toNat_pdata (args : DumpArgs) {k : ℕ} (inBuffer : 16 * k < args.size.toNat) :
    (16 * UInt32.ofNat k).toNat = 16 * k := by
  have bound := args.size.toNat_lt
  have small : k < UInt32.size := by
    rw [UInt32.size]
    omega
  rw [UInt32.toNat_mul, toNat_sixteen, UInt32.toNat_ofNat_of_lt' small]
  omega

theorem mem_reads_iff {k : ℕ} :
    k ∈ (dbgioPrintMemory args).reads ↔ k < args.size.toNat := by
  rw [dbgioPrintMemory_eq, List.mem_flatMap]
  constructor
  · rintro ⟨line, isLine, read⟩
    have below := List.mem_range.mp isLine
    rcases (mem_rowReads (Nat.min_le_left ..)).mp read with ⟨n, inRow, rfl⟩
    rw [toNat_pdata args (by omega)]
    omega
  · intro inBuffer
    refine ⟨k / 16, List.mem_range.mpr (by omega), ?_⟩
    apply (mem_rowReads (Nat.min_le_left ..)).mpr
    refine ⟨k % 16, by omega, ?_⟩
    rw [toNat_pdata args (by omega)]
    omega

theorem decodes_rows : (((dbgioPrintMemory args).rows args).flatMap rowBytes) =
    (List.range args.size.toNat).map args.data := by
  have decoded : ∀ k ∈ List.range ((args.size.toNat + 15) / 16), rowBytes (rowOf args k) =
      (List.range (min 16 (args.size.toNat - 16 * k))).map fun n => args.data (16 * k + n) := by
    intro k isLine
    have below := List.mem_range.mp isLine
    rw [rowOf, rowBytes_rowText (Nat.min_le_left ..), toNat_pdata args (by omega)]
  have all : min args.size.toNat (16 * ((args.size.toNat + 15) / 16)) = args.size.toNat := by omega
  rw [rows_dbgioPrintMemory, List.flatMap_map, List.flatMap_congr decoded, flatMap_range_rows, all]

theorem textColumn_of_row {k : ℕ} {row : List Char}
    (isRow : ((dbgioPrintMemory args).rows args)[k]? = some row) :
    textColumn row = (List.range 16).map fun n =>
      if 16 * k + n < args.size.toNat ∧ Printable (args.data (16 * k + n)) then
        Char.ofNat (args.data (16 * k + n)).toNat
      else '.' := by
  rw [rows_dbgioPrintMemory, List.getElem?_map, Option.map_eq_some_iff] at isRow
  rcases isRow with ⟨line, isLine, rfl⟩
  rcases List.getElem?_eq_some_iff.mp isLine with ⟨below, same⟩
  rw [List.getElem_range] at same
  subst same
  rw [List.length_range] at below
  rw [rowOf, textColumn_rowText, rowChars, toNat_pdata args (by omega)]
  apply List.map_congr_left
  intro n inColumn
  have small := List.mem_range.mp inColumn
  have inRow_iff : n < min 16 (args.size.toNat - 16 * k) ↔ 16 * k + n < args.size.toNat := by omega
  simp only [inRow_iff]

/-! ## The width of a row -/

theorem length_printfHex_four (value : UInt32) : (printfHex 4 value).length =
    max 4 (digitsFrom 16 printfNtoaBufferSize value.toNat).length := by
  simp only [printfHex, ntoaFormat, ntoaLong, List.length_reverse, List.length_append,
    List.length_map, List.length_replicate, printfNtoaBufferSize]
  omega

/-- Addresses are printed with equally many digits exactly if they lie on the same side of each
address from which on there is one more. -/
theorem length_printfHex_eq_iff (left right : UInt32) :
    (printfHex 4 left).length = (printfHex 4 right).length ↔
      ∀ boundary ∈ [0x10000, 0x100000, 0x1000000, 0x10000000],
        left.toNat < boundary ↔ right.toNat < boundary := by
  have count_iff : ∀ (value : UInt32) (count : ℕ), 0 < count →
      ((digitsFrom 16 printfNtoaBufferSize value.toNat).length ≤ count ↔
        value.toNat < 16 ^ count) := by
    intro value count positive
    have fits : value.toNat < 16 ^ printfNtoaBufferSize :=
      value.toNat_lt.trans_le (by decide)
    exact length_digitsFrom_le_iff (by decide) fits positive (by decide)
  have eight : ∀ value : UInt32,
      (digitsFrom 16 printfNtoaBufferSize value.toNat).length ≤ 8 :=
    fun value => (count_iff value 8 (by decide)).mpr value.toNat_lt
  have four := fun value => count_iff value 4 (by decide)
  have five := fun value => count_iff value 5 (by decide)
  have six := fun value => count_iff value 6 (by decide)
  have seven := fun value => count_iff value 7 (by decide)
  simp only [Nat.reducePow] at four five six seven
  simp only [length_printfHex_four, List.forall_mem_cons, List.not_mem_nil, false_imp_iff,
    implies_true, and_true, ← four, ← five, ← six, ← seven]
  have bounded := eight left
  have boundedRight := eight right
  omega

theorem sameWidth_iff :
    (∀ row ∈ (dbgioPrintMemory args).rows args, ∀ other ∈ (dbgioPrintMemory args).rows args,
      row.length = other.length) ↔ SameSide args := by
  have first : args.address + 16 * UInt32.ofNat 0 = args.address := by simp
  have sameSide_iff : SameSide args ↔ ∀ k < (args.size.toNat + 15) / 16,
      (printfHex 4 (args.address + 16 * UInt32.ofNat k)).length =
        (printfHex 4 args.address).length := by
    simp only [SameSide, length_printfHex_eq_iff]
    constructor
    · intro sameSide k below boundary isBoundary
      exact sameSide boundary isBoundary k below
    · intro sameSide boundary isBoundary k below
      exact sameSide k below boundary isBoundary
  simp only [rows_dbgioPrintMemory, List.forall_mem_map, List.mem_range, rowOf, length_rowText,
    Nat.add_right_cancel_iff, sameSide_iff]
  constructor
  · intro same k below
    have equal := same k below 0 (by omega)
    rwa [first] at equal
  · intro same k below other belowOther
    rw [same k below, same other belowOther]

theorem faithfulDump_of_sameSide (sameSide : SameSide args) :
    FaithfulDump args (dbgioPrintMemory args) where
  reads k := mem_reads_iff
  heading := by
    rw [dbgioPrintMemory_eq]
    exact List.prefix_append ..
  count := by rw [rows_dbgioPrintMemory, List.length_map, List.length_range]
  decodes := decodes_rows
  sameWidth := sameWidth_iff.mpr sameSide
  text k row isRow := textColumn_of_row isRow
  countdown past agrees := by rw [dbgioPrintMemoryWith_eq agrees, dbgioPrintMemory_eq]

/-- A dump is faithful exactly if the addresses of its rows have equally many digits. -/
theorem memory_dump_faithful_iff (args : DumpArgs) :
    FaithfulDump args (dbgioPrintMemory args) ↔ SameSide args := by
  constructor
  · intro faithful
    exact sameWidth_iff.mp faithful.sameWidth
  · exact faithfulDump_of_sameSide

/-- The second row starts at 0x10008, whose fifth digit shifts its columns. -/
theorem memory_dump_faithful_violated :
    ((dbgioPrintMemory ⟨true, fun _ => 0, 0xfff8, 32, none⟩).rows
        ⟨true, fun _ => 0, 0xfff8, 32, none⟩).map List.length = [72, 73] ∧
      ¬FaithfulDump ⟨true, fun _ => 0, 0xfff8, 32, none⟩
        (dbgioPrintMemory ⟨true, fun _ => 0, 0xfff8, 32, none⟩) := by
  have widths : ((dbgioPrintMemory ⟨true, fun _ => 0, 0xfff8, 32, none⟩).rows
      ⟨true, fun _ => 0, 0xfff8, 32, none⟩).map List.length = [72, 73] := by
    decide +kernel
  refine ⟨widths, fun faithful => ?_⟩
  have first : 72 ∈ [72, 73] := List.mem_cons_self
  have second : 73 ∈ [72, 73] := List.mem_cons_of_mem _ (List.mem_singleton_self 73)
  rw [← widths] at first second
  rcases List.mem_map.mp first with ⟨row, isRow, narrow⟩
  rcases List.mem_map.mp second with ⟨other, isOther, wide⟩
  have same := faithful.sameWidth row isRow other isOther
  omega

/-! ## Buffers in the memories of the linker script -/

structure MemoryRegion where
  origin : ℕ
  length : ℕ

def flash : MemoryRegion := ⟨0x8000000, 1024 * 1024⟩

def ram : MemoryRegion := ⟨0x20000000, 128 * 1024⟩

def ccmram : MemoryRegion := ⟨0x10000000, 64 * 1024⟩

theorem regions_on_one_side : ∀ region ∈ [flash, ram, ccmram],
    region.origin + region.length ≤ 4294967296 ∧
      ∀ boundary ∈ [0x10000, 0x100000, 0x1000000, 0x10000000],
        boundary ≤ region.origin ∨ region.origin + region.length ≤ boundary := by
  decide

/-- Within one memory all addresses have equally many digits. -/
theorem sameSide_of_region {region : MemoryRegion} (isRegion : region ∈ [flash, ram, ccmram])
    (above : region.origin ≤ args.address.toNat)
    (below : args.address.toNat + args.size.toNat ≤ region.origin + region.length) :
    SameSide args := by
  rcases regions_on_one_side region isRegion with ⟨inWord, onOneSide⟩
  intro boundary isBoundary k isLine
  have inBuffer : 16 * k < args.size.toNat := by omega
  have rowAddress : (args.address + 16 * UInt32.ofNat k).toNat = args.address.toNat + 16 * k := by
    rw [UInt32.toNat_add, toNat_pdata args inBuffer]
    omega
  rw [rowAddress]
  rcases onOneSide boundary isBoundary with above | under
  · omega
  · omega

theorem faithfulDump_in_region {region : MemoryRegion} (isRegion : region ∈ [flash, ram, ccmram])
    (above : region.origin ≤ args.address.toNat)
    (below : args.address.toNat + args.size.toNat ≤ region.origin + region.length) :
    FaithfulDump args (dbgioPrintMemory args) :=
  faithfulDump_of_sameSide (sameSide_of_region isRegion above below)

end MqttAccelero.Dbgio
