import Mathlib.Data.Nat.Notation
import Mathlib.Algebra.Order.Ring.Nat

/-!
# Conversion of units in fixed-width arithmetic

A count in one unit is converted to another one by a multiplication and a
division. In arithmetic of a fixed width the product may wrap, and then the
result has nothing to do with the count any more.
-/

namespace MqttAccelero.Scaling

/-- `value * up / down`, with the product taken modulo `modulus`. -/
def scale (modulus up down value : ℕ) : ℕ := value * up % modulus / down

variable {modulus up down unit value : ℕ}

theorem scale_of_fits (fits : value * up < modulus) :
    scale modulus up down value = value * up / down := by
  rw [scale, Nat.mod_eq_of_lt fits]

theorem scale_le (wide : 0 < modulus) : scale modulus up down value ≤ (modulus - 1) / down := by
  apply Nat.div_le_div_right
  exact Nat.le_sub_one_of_lt (Nat.mod_lt _ wide)

/-- Between equal units nothing is lost exactly if the product does not wrap. -/
theorem scale_eq_self_iff (positive : 0 < unit) (wide : 0 < modulus) :
    scale modulus unit unit value = value ↔ value * unit < modulus := by
  constructor
  · intro same
    by_contra wraps
    have shrinks : value * unit % modulus < value * unit :=
      (Nat.mod_lt _ wide).trans_le (Nat.le_of_not_lt wraps)
    have less : scale modulus unit unit value < value :=
      (Nat.div_lt_iff_lt_mul positive).mpr shrinks
    exact Nat.ne_of_lt less same
  · intro fits
    rw [scale_of_fits fits, Nat.mul_div_cancel _ positive]

end MqttAccelero.Scaling
