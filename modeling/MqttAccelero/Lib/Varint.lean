import Mathlib.Algebra.GroupWithZero.Nat
import Mathlib.Data.List.Basic
import Mathlib.Data.Nat.Notation

/-!
# Numbers in groups of seven bits

A number is written in bytes of seven bits each, the lowest first. The top bit of
a byte says whether another one follows, so that a reader knows where the number
ends.
-/

namespace MqttAccelero.Varint

/-- At most `passes` groups are written. -/
def encode : (passes : ℕ) → ℕ → List UInt8
  | 0, _ => []
  | passes + 1, value =>
      if value < 128 then [UInt8.ofNat value]
      else UInt8.ofNat (value % 128 + 128) :: encode passes (value / 128)

/-- The number, and what follows it. -/
def decode : List UInt8 → Option (ℕ × List UInt8)
  | [] => none
  | byte :: rest =>
      if byte.toNat < 128 then some (byte.toNat, rest)
      else (decode rest).map fun (value, rest) => (byte.toNat % 128 + 128 * value, rest)

variable {passes value : ℕ} {bytes rest : List UInt8}

theorem toNat_last (small : value < 128) : (UInt8.ofNat value).toNat = value := by
  rw [UInt8.toNat_ofNat']
  omega

theorem toNat_group (value : ℕ) : (UInt8.ofNat (value % 128 + 128)).toNat = value % 128 + 128 := by
  rw [UInt8.toNat_ofNat']
  omega

theorem encode_succ : encode (passes + 1) value =
    if value < 128 then [UInt8.ofNat value]
    else UInt8.ofNat (value % 128 + 128) :: encode passes (value / 128) := rfl

theorem decode_cons {byte : UInt8} : decode (byte :: rest) =
    if byte.toNat < 128 then some (byte.toNat, rest)
    else (decode rest).map fun (value, rest) => (byte.toNat % 128 + 128 * value, rest) := rfl

theorem length_encode_le : (encode passes value).length ≤ passes := by
  induction passes generalizing value with
  | zero => exact Nat.le_refl 0
  | succ passes ih =>
      rw [encode_succ]
      split
      · exact Nat.succ_le_succ (Nat.zero_le _)
      · exact Nat.succ_le_succ ih

theorem encode_small (small : value < 128) : encode (passes + 1) value = [UInt8.ofNat value] := by
  rw [encode_succ, if_pos small]

theorem encode_large (large : ¬value < 128) : encode (passes + 1) value =
    UInt8.ofNat (value % 128 + 128) :: encode passes (value / 128) := by
  rw [encode_succ, if_neg large]

theorem high_lt (fits : value < 128 ^ (passes + 2)) : value / 128 < 128 ^ (passes + 1) := by
  rw [Nat.pow_succ] at fits
  exact Nat.div_lt_of_lt_mul (by omega)

/-- No more groups are written than the number has. -/
theorem encode_of_lt (fits : value < 128 ^ (passes + 1)) :
    encode (passes + 2) value = encode (passes + 1) value := by
  induction passes generalizing value with
  | zero =>
      have small : value < 128 := by simpa using fits
      rw [encode_small small, encode_small small]
  | succ passes ih =>
      by_cases small : value < 128
      · rw [encode_small small, encode_small small]
      · rw [encode_large small, encode_large small, ih (high_lt fits)]

theorem length_encode_pos : 0 < (encode (passes + 1) value).length := by
  rw [encode_succ]
  split
  · exact Nat.zero_lt_one
  · exact Nat.succ_pos _

/-- What follows the first groups are the groups of the rest of the number. -/
theorem drop_encode {index : ℕ} (below : index < (encode passes value).length) :
    (encode passes value).drop index = encode (passes - index) (value / 128 ^ index) := by
  induction index generalizing passes value with
  | zero => simp
  | succ index ih =>
      cases passes with
      | zero => cases below
      | succ passes =>
          by_cases small : value < 128
          · rw [encode_small small] at below
            exact absurd below (Nat.not_lt.mpr (Nat.le_add_left _ _))
          · rw [encode_large small, List.length_cons] at below
            rw [encode_large small, List.drop_succ_cons, ih (Nat.lt_of_succ_lt_succ below),
              Nat.div_div_eq_div_mul, Nat.pow_succ, Nat.mul_comm, Nat.add_sub_add_right]

theorem decode_last (small : value < 128) :
    decode (UInt8.ofNat value :: rest) = some (value, rest) := by
  rw [decode_cons, toNat_last small, if_pos small]

theorem decode_group : decode (UInt8.ofNat (value % 128 + 128) :: rest) =
    (decode rest).map fun (high, rest) => (value % 128 + 128 * high, rest) := by
  have top : ¬value % 128 + 128 < 128 := by omega
  have low : (value % 128 + 128) % 128 = value % 128 := by omega
  rw [decode_cons, toNat_group, if_neg top, low]

/-- A number in range is read back, and the reader stops where it ends. -/
theorem decode_encode (fits : value < 128 ^ (passes + 1)) :
    decode (encode (passes + 1) value ++ rest) = some (value, rest) := by
  induction passes generalizing value with
  | zero =>
      have small : value < 128 := by simpa using fits
      rw [encode_small small, List.singleton_append, decode_last small]
  | succ passes ih =>
      by_cases small : value < 128
      · rw [encode_small small, List.singleton_append, decode_last small]
      · rw [encode_large small, List.cons_append, decode_group, ih (high_lt fits), Option.map_some]
        simp only [Nat.mod_add_div]

/-- The first bytes of a number are no number. -/
theorem decode_initial (fits : value < 128 ^ (passes + 1))
    (split : bytes ++ rest = encode (passes + 1) value) (cut : rest ≠ []) :
    decode bytes = none := by
  induction passes generalizing value bytes with
  | zero =>
      have small : value < 128 := by simpa using fits
      rw [encode_small small, List.append_eq_singleton_iff] at split
      rcases split with ⟨nothing, _⟩ | ⟨_, nothing⟩
      · rw [nothing]
        rfl
      · exact absurd nothing cut
  | succ passes ih =>
      cases bytes with
      | nil => rfl
      | cons byte bytes =>
          by_cases small : value < 128
          · rw [encode_small small, List.cons_append, List.cons.injEq,
              List.append_eq_nil_iff] at split
            exact absurd split.2.2 cut
          · rw [encode_large small, List.cons_append, List.cons.injEq] at split
            rw [split.1, decode_group, ih (high_lt fits) split.2, Option.map_none]

end MqttAccelero.Varint
