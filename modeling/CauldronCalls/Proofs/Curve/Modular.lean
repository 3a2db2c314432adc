import CauldronCalls.Curve.Modular
import Mathlib.FieldTheory.Finite.Basic

/-!
Residues as elements of the ring of integers modulo `m`, which is a field when `m` is a prime.
-/

namespace CauldronCalls.Modular

variable {m a b bits e : Nat}

-- One more squaring takes care of the lowest binary digit of the exponent.
theorem power_eq (h : e < 2 ^ bits) : power m a bits e = a ^ e % m := by
  induction bits generalizing e
  case zero =>
    obtain rfl : e = 0 := by simpa using h
    rw [power, pow_zero]
  case succ bits hi =>
    have hs : (a ^ (e / 2) % m) * (a ^ (e / 2) % m) % m = a ^ (2 * (e / 2)) % m := by
      rw [← Nat.mul_mod, ← pow_add, two_mul]
    rw [pow_succ] at h
    simp only [power, hi (e := e / 2) (by omega), hs]
    split
    case isTrue ho =>
      rw [Nat.mod_mul_mod, ← pow_succ]
      congr 2
      omega
    case isFalse =>
      congr 2
      omega

theorem cast_power (h : e < 2 ^ bits) : (power m a bits e : ZMod m) = (a : ZMod m) ^ e := by
  rw [power_eq h, ZMod.natCast_mod, Nat.cast_pow]

theorem subtract_lt (h : 0 < m) : subtract m a b < m :=
  Nat.mod_lt _ h

theorem cast_subtract (h : 0 < m) : (subtract m a b : ZMod m) = a - b := by
  have hb : b % m ≤ m := Nat.mod_lt b h |>.le
  rw [subtract, ZMod.natCast_mod, Nat.cast_add, Nat.cast_sub hb, ZMod.natCast_self, ZMod.natCast_mod]
  ring

-- Zero has the inverse zero on both sides.
theorem cast_inverse [hm : Fact m.Prime] (ht : 2 < m) (hl : m < 2 ^ 256) : (inverse m a : ZMod m) = (a : ZMod m)⁻¹ := by
  rw [inverse, cast_power (by omega)]
  by_cases ha : (a : ZMod m) = 0
  case pos => rw [ha, inv_zero, zero_pow (by omega)]
  case neg =>
    have hf := ZMod.pow_card_sub_one_eq_one ha
    have he : m - 1 = m - 2 + 1 := by omega
    rw [he, pow_succ] at hf
    exact eq_inv_of_mul_eq_one_left hf

end CauldronCalls.Modular
