import CauldronCalls.Proofs.Curve.Prime
import Mathlib.AlgebraicGeometry.EllipticCurve.Affine.Point
import Mathlib.GroupTheory.OrderOfElement

/-!
The computed operations on points are those of the group of a Weierstrass curve, and the generator has the order
that is claimed for it in this group.
-/

namespace CauldronCalls.Point

abbrev Coordinate := ZMod prime

def curve : WeierstrassCurve.Affine Coordinate :=
  ⟨0, 0, 0, 0, 7⟩

-- The computed form of a point of the curve: its coordinates are the least residues.
def ofCurve : curve.Point → Point
  | .zero       => infinity
  | .some x y _ => affine x.val y.val

@[simp]
theorem ofCurve_zero : ofCurve 0 = infinity :=
  rfl

theorem ofCurve_injective : Function.Injective ofCurve := by
  rintro (_ | ⟨x₁, y₁, h₁⟩) (_ | ⟨x₂, y₂, h₂⟩) h <;> simp_all [ofCurve, ZMod.val_injective prime |>.eq_iff]

variable {x y x₁ y₁ x₂ y₂ : Coordinate}

theorem eq_val {n : Nat} (hl : n < prime) (h : (n : Coordinate) = x) : n = x.val := by
  rw [← h, ZMod.val_natCast_of_lt hl]

theorem two_ne_zero : (2 : Coordinate) ≠ 0 := by
  decide +kernel

theorem negY_eq : curve.negY x y = -y := by
  simp [WeierstrassCurve.Affine.negY, curve]

theorem equation_iff : curve.Equation x y ↔ y ^ 2 = x ^ 3 + 7 := by
  simp [WeierstrassCurve.Affine.equation_iff, curve]

-- A cube's power by a third of `prime - 1` is one.
theorem cube_ne_neg_seven : x ^ 3 ≠ -7 := by
  intro h
  have hx : x ≠ 0 := by
    rintro rfl
    exact absurd h <| by decide +kernel
  have hp : (Modular.power prime 7 256 ((prime - 1) / 3) : Coordinate) = 1 := by
    rw [Modular.cast_power (by decide +kernel), ← ZMod.pow_card_sub_one_eq_one hx,
      show prime - 1 = 3 * ((prime - 1) / 3) by decide +kernel, pow_mul, h,
      Nat.mul_div_cancel_left _ (by decide), Even.neg_pow (by decide +kernel), Nat.cast_ofNat]
  exact absurd hp <| by decide +kernel

theorem y_ne_zero (h : curve.Equation x y) : y ≠ 0 := by
  rintro rfl
  have he := equation_iff.mp h
  exact cube_ne_neg_seven <| eq_neg_of_add_eq_zero_left <| by simpa using he.symm

-- No point is its own mirror image.
theorem ne_negY (h : curve.Equation x y) : y ≠ curve.negY x y := by
  intro he
  rw [negY_eq, eq_neg_iff_add_eq_zero, ← two_mul] at he
  exact y_ne_zero h <| mul_eq_zero.mp he |>.resolve_left two_ne_zero

theorem nonsingular (h : curve.Equation x y) : curve.Nonsingular x y :=
  curve.nonsingular_iff x y |>.mpr ⟨h, .inr <| ne_negY h⟩

theorem chord_eq (k n₁ m₁ n₂ : Nat) :
    chord k n₁ m₁ n₂ = affine (curve.addX n₁ n₂ k).val (curve.addY n₁ n₂ m₁ k).val := by
  have hp : 0 < prime := by decide
  have hx : (Modular.subtract prime (k * k) (n₁ + n₂) : Nat) = curve.addX n₁ n₂ k := by
    simp [WeierstrassCurve.Affine.addX, curve, Modular.cast_subtract hp]
    ring
  rw [chord, affine.injEq]
  refine ⟨eq_val (Modular.subtract_lt hp) hx, eq_val (Modular.subtract_lt hp) ?_⟩
  rw [Modular.cast_subtract hp, Nat.cast_mul, Modular.cast_subtract hp, hx, WeierstrassCurve.Affine.addY,
    WeierstrassCurve.Affine.negAddY, negY_eq]
  ring

theorem cast_inverse (n : Nat) : (Modular.inverse prime n : Coordinate) = (n : Coordinate)⁻¹ :=
  Modular.cast_inverse (by decide +kernel) (by decide +kernel)

theorem ofCurve_double (p : curve.Point) : ofCurve (p + p) = (ofCurve p).double := by
  match p with
  | .zero       => rfl
  | .some x y h =>
    have hy : y.val ≠ 0 := ZMod.val_ne_zero y |>.mpr <| y_ne_zero h.left
    rw [WeierstrassCurve.Affine.Point.add_self_of_Y_ne (ne_negY h.left), ofCurve, ofCurve, double, if_neg hy, chord_eq]
    have hs : (3 * x.val * x.val % prime * Modular.inverse prime (2 * y.val % prime) % prime : Nat)
        = curve.slope x x y y := by
      rw [WeierstrassCurve.Affine.slope_of_Y_ne rfl (ne_negY h.left), negY_eq]
      simp [cast_inverse, curve]
      ring
    simp only [hs, ZMod.natCast_val, ZMod.cast_id']
    rfl

theorem ofCurve_add (p q : curve.Point) : ofCurve (p + q) = (ofCurve p).add (ofCurve q) := by
  match p, q with
  | .zero, q                         =>
    rw [← WeierstrassCurve.Affine.Point.zero_def, zero_add]
    cases q <;> rfl
  | .some .., .zero                  => rfl
  | .some x₁ y₁ h₁, .some x₂ y₂ h₂ =>
    by_cases hx : x₁ = x₂
    case pos =>
      subst hx
      by_cases hy : y₁ = y₂
      case pos =>
        subst hy
        rw [ofCurve_double]
        simp [ofCurve, add]
      case neg =>
        have hn : y₁ = curve.negY x₁ y₂ := WeierstrassCurve.Affine.Y_eq_of_X_eq h₁.left h₂.left rfl |>.resolve_left hy
        rw [WeierstrassCurve.Affine.Point.add_of_Y_eq rfl hn]
        simp [ofCurve, add, ZMod.val_injective prime |>.eq_iff, hy]
    case neg =>
      have hv : x₁.val ≠ x₂.val := ZMod.val_injective prime |>.ne hx
      rw [WeierstrassCurve.Affine.Point.add_of_X_ne hx, ofCurve, ofCurve, ofCurve, add, if_neg hv, chord_eq]
      have hs : (Modular.subtract prime y₂.val y₁.val * Modular.inverse prime (Modular.subtract prime x₂.val x₁.val)
          % prime : Nat) = curve.slope x₁ x₂ y₁ y₂ := by
        have hp : 0 < prime := by decide
        rw [WeierstrassCurve.Affine.slope_of_X_ne hx, ← neg_div_neg_eq]
        simp [cast_inverse, Modular.cast_subtract hp, div_eq_mul_inv]
      simp only [hs, ZMod.natCast_val, ZMod.cast_id']
      rfl

-- Each binary digit of the factor doubles the multiple, and a digit that is one adds the point.
theorem ofCurve_nsmul {bits k : Nat} (p : curve.Point) (h : k < 2 ^ bits) :
    ofCurve (k • p) = (ofCurve p).multiply bits k := by
  induction bits generalizing k
  case zero =>
    obtain rfl : k = 0 := by simpa using h
    rw [zero_nsmul, multiply, ofCurve_zero]
  case succ bits hi =>
    rw [pow_succ] at h
    have hd : k = k / 2 + k / 2 + k % 2 := by omega
    rw [multiply, ← hi (k := k / 2) (by omega), ← ofCurve_double, ← add_nsmul]
    split
    case isTrue ho => rw [← ofCurve_add, ← succ_nsmul, ← ho, ← hd]
    case isFalse ho => rw [show k / 2 + k / 2 = k by omega]

-- The generator as a point of the curve.
def base : curve.Point :=
  .some 0x79be667ef9dcbbac55a06295ce870b07029bfcdb2dce28d959f2815b16f81798
    0x483ada7726a3c4655da4fbfc0e1108a8fd17b448a68554199c47d08ffb10d4b8
    (nonsingular <| equation_iff.mpr <| by decide +kernel)

theorem ofCurve_base : ofCurve base = generator := by
  decide +kernel

theorem ofCurve_nsmul_base {k : Nat} (h : k < 2 ^ 256) : ofCurve (k • base) = ofScalar k := by
  rw [ofCurve_nsmul base h, ofCurve_base, ofScalar]

theorem ofScalar_order : ofScalar order = infinity := by
  decide +kernel

theorem addOrderOf_base : addOrderOf base = order := by
  refine addOrderOf_eq_prime (ofCurve_injective ?_) (WeierstrassCurve.Affine.Point.some_ne_zero _)
  rw [ofCurve_nsmul_base (by decide +kernel), ofScalar_order, ofCurve_zero]

theorem nsmul_base_eq_iff {k l : Nat} : (k • base = l • base) ↔ ((k : ZMod order) = l) := by
  rw [nsmul_eq_nsmul_iff_modEq, addOrderOf_base, ZMod.natCast_eq_natCast_iff]

end CauldronCalls.Point
