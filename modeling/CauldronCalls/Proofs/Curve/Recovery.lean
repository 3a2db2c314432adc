import CauldronCalls.Curve.Signature
import CauldronCalls.Proofs.Curve.Group

/-!
What a signature is good for: whoever knows the digest can tell the public point from it. A signature and its
mirror image, of which signing chooses the one with the smaller `s`, are treated alike: they come from two secret
multiples that are inverse to each other.
-/

namespace CauldronCalls

namespace Point

-- A square root of each number that has one.
def root (n : Nat) : Nat :=
  Modular.power prime n 256 ((prime + 1) / 4)

-- The point above `x` whose second coordinate has the given parity, if the curve has a point there.
def lift? (x parity : Nat) : Option Point :=
  let square := (x * x * x + 7) % prime
  let y := root square
  if x < prime ∧ y * y % prime = square then
    some <| affine x (if y % 2 = parity then y else prime - y)
  else none

end Point

namespace Signature

-- Whether the owner of the public point signed the digest.
def verifies (g : Signature) (digest : Bytes32) (q : Point) : Bool :=
  let z := digest.toNat % Point.order
  let w := Modular.inverse Point.order g.s
  match (Point.ofScalar (z * w % Point.order)).add (q.multiply 256 (g.r * w % Point.order)) with
  | .infinity   => false
  | .affine x _ => x % Point.order = g.r

-- The public point of the one who signed the digest.
def recover? (g : Signature) (digest : Bytes32) : Option Point :=
  if 0 < g.r ∧ g.r < Point.order ∧ 0 < g.s ∧ g.s < Point.order ∧ g.recovery < 4 then do
    let p ← Point.lift? (if g.recovery / 2 = 1 then g.r + Point.order else g.r) (g.recovery % 2)
    let z := digest.toNat % Point.order
    let w := Modular.inverse Point.order g.r
    let q := (Point.ofScalar (Modular.subtract Point.order 0 (z * w))).add (p.multiply 256 (g.s * w % Point.order))
    if q ≠ .infinity ∧ g.verifies digest q then some q else none
  else none

end Signature

namespace Point

variable {x y : Coordinate} {k u v n : Nat}

theorem root_lt : root n < prime := by
  rw [root, Modular.power_eq (by decide +kernel)]
  exact Nat.mod_lt _ <| by decide

-- Half of `prime - 1` more in the exponent changes no square's power.
theorem cast_root_sq (hy : y ≠ 0) (h : (n : Coordinate) = y ^ 2) : (root n : Coordinate) ^ 2 = y ^ 2 := by
  have he : 2 * ((prime + 1) / 4 * 2) = prime - 1 + 2 := by decide +kernel
  rw [root, Modular.cast_power (by decide +kernel), h, ← pow_mul, ← pow_mul, he, pow_add,
    ZMod.pow_card_sub_one_eq_one hy, one_mul]

theorem neg_val (hy : y ≠ 0) : (-y).val = prime - y.val := by
  rw [ZMod.neg_val, if_neg hy]

theorem lift?_val (h : curve.Equation x y) : lift? x.val (y.val % 2) = some (affine x.val y.val) := by
  have hy := y_ne_zero h
  set square := (x.val * x.val * x.val + 7) % prime with hs
  have hc : (square : Coordinate) = y ^ 2 := by
    rw [hs, equation_iff.mp h]
    simp
    ring
  have hr := cast_root_sq hy hc
  have hq : root square * root square % prime = square := by
    refine Nat.mod_eq_of_modEq ?_ (Nat.mod_lt _ <| by decide)
    rw [← ZMod.natCast_eq_natCast_iff, Nat.cast_mul, hc, ← hr, sq]
  -- The root is `y` or its opposite, which have different parities.
  have hp : (if root square % 2 = y.val % 2 then root square else prime - root square) = y.val := by
    have ho : prime % 2 = 1 := by decide
    have hv := y.val_lt
    have hz : y.val ≠ 0 := ZMod.val_ne_zero y |>.mpr hy
    rcases sq_eq_sq_iff_eq_or_eq_neg.mp hr with hr | hr
    · rw [eq_val root_lt hr, if_pos rfl]
    · rw [eq_val root_lt hr, neg_val hy, if_neg (by omega)]
      omega
  rw [lift?, if_pos ⟨x.val_lt, hq⟩, hp]

-- What verification and recovery compute: a combination of the generator and one of its multiples.
theorem ofScalar_add_multiply (hu : u < order) (hv : v < order) :
    (ofScalar u).add ((ofCurve (k • base)).multiply 256 v) = ofCurve ((u + v * k) • base) := by
  have ho : order < 2 ^ 256 := by decide +kernel
  rw [← ofCurve_nsmul_base (by omega), ← ofCurve_nsmul _ (by omega), ← ofCurve_add, add_nsmul, mul_nsmul']

end Point

namespace Signature

theorem cast_inverse (n : Nat) : (Modular.inverse Point.order n : ZMod Point.order) = (n : ZMod Point.order)⁻¹ :=
  Modular.cast_inverse (by decide +kernel) (by decide +kernel)

theorem cast_ne_zero {n : Nat} (hp : 0 < n) (hl : n < Point.order) : (n : ZMod Point.order) ≠ 0 := by
  rw [Ne, ZMod.natCast_eq_zero_iff]
  exact Nat.not_dvd_of_pos_of_lt hp hl

end Signature

namespace PrivateKey

variable (key : PrivateKey)

theorem publicPoint_eq : key.publicPoint = Point.ofCurve (key.scalar • Point.base) := by
  have ho : Point.order < 2 ^ 256 := by decide +kernel
  rw [publicPoint, Point.ofCurve_nsmul_base (key.scalar_lt_order.trans ho)]

theorem publicPoint_ne_infinity : key.publicPoint ≠ .infinity := by
  rw [publicPoint_eq, ← Point.ofCurve_zero, Point.ofCurve_injective.ne_iff, ← zero_nsmul Point.base, Ne,
    Point.nsmul_base_eq_iff, Nat.cast_zero]
  exact Signature.cast_ne_zero key.scalar_pos key.scalar_lt_order

end PrivateKey

namespace Signature

-- The signature comes from the secret multiple `k` of the generator, which is the point `(x, y)`.
structure ComesFrom (g : Signature) (key : PrivateKey) (digest : Bytes32) (k : Nat) (x y : Point.Coordinate) :
    Prop where
  k_le        : k ≤ Point.order
  equation    : Point.curve.Equation x y
  nsmul_base  : k • Point.base = .some x y (Point.nonsingular equation)
  r_eq        : g.r = x.val % Point.order
  r_pos       : 0 < g.r
  s_pos       : 0 < g.s
  s_lt        : g.s < Point.order
  recovery_eq : g.recovery = y.val % 2 + if g.r = x.val then 0 else 2
  s_mul       : (g.s * k : ZMod Point.order) = digest.toNat + g.r * key.scalar

variable {g : Signature} {key : PrivateKey} {digest : Bytes32} {k : Nat} {x y : Point.Coordinate}

namespace ComesFrom

-- The opposite point has the other parity, which is what the recovery number's lowest bit says.
theorem mirror (h : g.ComesFrom key digest k x y) :
    ComesFrom ⟨g.r, Point.order - g.s, g.recovery ^^^ 1⟩ key digest (Point.order - k) x (-y) where
  k_le := Nat.sub_le ..
  equation := by
    rw [← Point.negY_eq (x := x), WeierstrassCurve.Affine.equation_neg]
    exact h.equation
  nsmul_base := by
    have hs : (Point.order - k) • Point.base + k • Point.base = 0 := by
      rw [← add_nsmul, Nat.sub_add_cancel h.k_le, ← Point.addOrderOf_base, addOrderOf_nsmul_eq_zero]
    rw [eq_neg_of_add_eq_zero_left hs, h.nsmul_base, WeierstrassCurve.Affine.Point.neg_some]
    simp only [Point.negY_eq]
  r_eq := h.r_eq
  r_pos := h.r_pos
  s_pos := by
    have := h.s_lt
    simp only
    omega
  s_lt := by
    have := h.s_pos
    have := h.s_lt
    simp only
    omega
  recovery_eq := by
    have hy := Point.y_ne_zero h.equation
    have hv := y.val_lt
    have ho : Point.prime % 2 = 1 := by decide
    have hp : (-y).val % 2 = 1 - y.val % 2 := by
      rw [Point.neg_val hy]
      omega
    simp only [h.recovery_eq, hp]
    rcases Nat.mod_two_eq_zero_or_one y.val with hm | hm <;> rw [hm] <;> split <;> rfl
  s_mul := by
    rw [← h.s_mul, Nat.cast_sub h.s_lt.le, Nat.cast_sub h.k_le, ZMod.natCast_self]
    ring

theorem r_lt (h : g.ComesFrom key digest k x y) : g.r < Point.order := by
  rw [h.r_eq]
  exact Nat.mod_lt _ <| by decide

theorem recovery_lt (h : g.ComesFrom key digest k x y) : g.recovery < 4 := by
  rw [h.recovery_eq]
  split <;> omega

theorem lift?_eq (h : g.ComesFrom key digest k x y) :
    Point.lift? (if g.recovery / 2 = 1 then g.r + Point.order else g.r) (g.recovery % 2)
      = some (Point.ofCurve (k • Point.base)) := by
  have hy := h.recovery_eq
  have hr : g.r = x.val ∨ g.r + Point.order = x.val := by
    have hp : Point.prime < 2 * Point.order := by decide +kernel
    have hx := x.val_lt
    rw [h.r_eq]
    by_cases hl : x.val < Point.order
    case pos => exact .inl <| Nat.mod_eq_of_lt hl
    case neg =>
      rw [Nat.mod_eq_sub_mod (by omega), Nat.mod_eq_of_lt (by omega)]
      omega
  have hp : g.recovery % 2 = y.val % 2 := by
    split at hy <;> omega
  have hx : (if g.recovery / 2 = 1 then g.r + Point.order else g.r) = x.val := by
    split at hy <;> split <;> omega
  rw [hx, hp, Point.lift?_val h.equation, h.nsmul_base, Point.ofCurve]

theorem verifies (h : g.ComesFrom key digest k x y) : g.verifies digest key.publicPoint := by
  have hs := cast_ne_zero h.s_pos h.s_lt
  have hp : 0 < Point.order := by decide
  have hk : ∀ u v : Nat, (u : ZMod Point.order) = digest.toNat * (g.s : ZMod Point.order)⁻¹ →
      (v : ZMod Point.order) = g.r * (g.s : ZMod Point.order)⁻¹ →
      (u + v * key.scalar) • Point.base = k • Point.base := by
    intro u v hu hv
    rw [Point.nsmul_base_eq_iff]
    push_cast
    rw [hu, hv]
    field_simp
    rw [← h.s_mul]
  rw [Signature.verifies, key.publicPoint_eq]
  simp only [Point.ofScalar_add_multiply (Nat.mod_lt _ hp) (Nat.mod_lt _ hp)]
  rw [hk _ _ (by simp [cast_inverse]) (by simp [cast_inverse]), h.nsmul_base]
  simp [Point.ofCurve, h.r_eq]

theorem recover?_eq (h : g.ComesFrom key digest k x y) : g.recover? digest = some key.publicPoint := by
  have hr := cast_ne_zero h.r_pos h.r_lt
  have hp : 0 < Point.order := by decide
  have hk : ∀ u v : Nat, (u : ZMod Point.order) = -(digest.toNat * (g.r : ZMod Point.order)⁻¹) →
      (v : ZMod Point.order) = g.s * (g.r : ZMod Point.order)⁻¹ →
      (u + v * k) • Point.base = key.scalar • Point.base := by
    intro u v hu hv
    rw [Point.nsmul_base_eq_iff]
    push_cast
    rw [hu, hv]
    field_simp
    rw [h.s_mul]
    ring
  rw [recover?, if_pos ⟨h.r_pos, h.r_lt, h.s_pos, h.s_lt, h.recovery_lt⟩, h.lift?_eq]
  simp only [Option.bind_eq_bind, Option.bind_some,
    Point.ofScalar_add_multiply (Modular.subtract_lt hp) (Nat.mod_lt _ hp)]
  rw [hk _ _ (by simp [cast_inverse, Modular.cast_subtract hp]) (by simp [cast_inverse]), ← key.publicPoint_eq,
    if_pos ⟨key.publicPoint_ne_infinity, h.verifies⟩]

end ComesFrom

theorem lowered_comesFrom {r s recovery : Nat} (h : ComesFrom ⟨r, s, recovery⟩ key digest k x y) :
    ∃ k x y, (lowered r s recovery).ComesFrom key digest k x y := by
  rw [lowered]
  split
  case isTrue  => exact ⟨_, _, _, h.mirror⟩
  case isFalse => exact ⟨_, _, _, h⟩

theorem lowered_s_le {r s recovery : Nat} : (lowered r s recovery).s ≤ (Point.order - 1) / 2 := by
  have ho : Point.order % 2 = 1 := by decide
  rw [lowered]
  split <;> simp only <;> omega

theorem ofNonce?_comesFrom (hp : 0 < k) (hl : k < Point.order) (h : ofNonce? key digest k = some g) :
    (∃ k x y, g.ComesFrom key digest k x y) ∧ g.s ≤ (Point.order - 1) / 2 := by
  have hb : k < 2 ^ 256 := hl.trans <| by decide +kernel
  rw [ofNonce?, ← Point.ofCurve_nsmul_base hb] at h
  cases hk : k • Point.base with
  | zero         => simp [hk, Point.ofCurve] at h
  | some x y hxy =>
    simp only [hk, Point.ofCurve] at h
    split at h
    case isTrue => cases h
    case isFalse hz =>
      obtain rfl := Option.some.inj h
      rw [not_or] at hz
      refine ⟨lowered_comesFrom (k := k) (x := x) (y := y) ⟨hl.le, hxy.left, hk, rfl, Nat.pos_of_ne_zero hz.1,
        Nat.pos_of_ne_zero hz.2, Nat.mod_lt _ (by decide), rfl, ?_⟩, lowered_s_le⟩
      have hk := cast_ne_zero hp hl
      simp only [ZMod.natCast_mod, Nat.cast_mul, Nat.cast_add, cast_inverse]
      field_simp

-- The key one signs the zero digest with the generator itself as its secret multiple.
example : (ofNonce? ⟨1, by decide, by decide⟩ (FixedBytes.zero 32) 1).isSome := by decide +kernel

theorem Nonce.scalar?_bounds {attempts : Nat} {n : Nonce} (h : n.scalar? attempts = some k) :
    (0 < k) ∧ (k < Point.order) := by
  induction attempts generalizing n
  case zero => cases h
  case succ attempts hi =>
    simp only [scalar?] at h
    split at h
    case isTrue hk =>
      cases h
      exact hk
    case isFalse => exact hi h

theorem sign?_comesFrom (h : sign? key digest = some g) :
    (∃ k x y, g.ComesFrom key digest k x y) ∧ g.s ≤ (Point.order - 1) / 2 := by
  have ⟨k, hk, h⟩ := Option.bind_eq_some_iff.mp h
  have ⟨hp, hl⟩ := Nonce.scalar?_bounds hk
  exact ofNonce?_comesFrom hp hl h

end Signature

end CauldronCalls
