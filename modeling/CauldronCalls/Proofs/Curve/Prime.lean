import CauldronCalls.Curve.Point
import CauldronCalls.Proofs.Curve.Modular
import Mathlib.NumberTheory.LucasPrimality

/-!
The order of the curve's field and the order of its group are primes. After Lucas, a number is a prime if some
root has the order of its predecessor; a certificate gives the root and the prime factors of the predecessor,
and the factors have certificates of their own.
-/

namespace CauldronCalls

-- By trial division, which is enough below `40000`.
def isSmallPrime (n : Nat) : Bool :=
  2 ≤ n && n < 40000 && (List.range 200).all fun d => d < 2 || n ≤ d || n % d != 0

theorem prime_of_isSmallPrime {n : Nat} (h : isSmallPrime n) : n.Prime := by
  simp only [isSmallPrime, Bool.and_eq_true, Bool.or_eq_true, decide_eq_true_eq, List.all_eq_true, List.mem_range,
    bne_iff_ne, ne_eq] at h
  obtain ⟨⟨ht, hl⟩, h⟩ := h
  by_contra hn
  have hf := Nat.minFac_sq_le_self (by omega) hn
  have hp := Nat.minFac_prime (n := n) (by omega) |>.two_le
  have hs : n.minFac < 200 := by nlinarith
  have hd := Nat.mod_eq_zero_of_dvd n.minFac_dvd
  rcases h _ hs with (h | h) | h
  · omega
  · nlinarith
  · exact h hd

-- The factors of the number's predecessor come with their exponents.
structure Certificate where
  number : Nat
  root : Nat
  factors : List (Nat × Nat)

namespace Certificate

def bits (c : Certificate) : Nat :=
  c.number.log2 + 1

def power (c : Certificate) (e : Nat) : Nat :=
  Modular.power c.number c.root c.bits e

-- Whether the certificate proves its number a prime, when the known numbers are primes.
def holds (known : List Nat) (c : Certificate) : Bool :=
  2 ≤ c.number &&
  c.factors.all (fun (q, _) => isSmallPrime q || q ∈ known) &&
  (c.factors.map fun (q, e) => q ^ e).prod == c.number - 1 &&
  c.power (c.number - 1) == 1 &&
  c.factors.all fun (q, _) => c.power ((c.number - 1) / q) != 1

-- Each certificate may use the numbers of those before it.
def hold : List Nat → List Certificate → Bool
  | _, []          => true
  | known, c :: cs => c.holds known && hold (c.number :: known) cs

variable {c : Certificate} {cs : List Certificate} {known : List Nat} {e : Nat}

theorem power_eq_one_iff (ht : 2 ≤ c.number) (he : e ≤ c.number - 1) :
    (c.power e = 1) ↔ ((c.root : ZMod c.number) ^ e = 1) := by
  have hb : e < 2 ^ c.bits := by
    have := Nat.lt_log2_self (n := c.number)
    rw [bits]
    omega
  rw [power, Modular.power_eq hb, ← Nat.cast_pow, ← Nat.cast_one (R := ZMod c.number),
    ZMod.natCast_eq_natCast_iff', Nat.one_mod_eq_one.mpr (by omega)]

theorem prime_of_holds (hk : ∀ q ∈ known, q.Prime) (h : c.holds known) : c.number.Prime := by
  simp only [holds, Bool.and_eq_true, Bool.or_eq_true, decide_eq_true_eq, List.all_eq_true, beq_iff_eq, bne_iff_ne,
    ne_eq] at h
  obtain ⟨⟨⟨⟨ht, hf⟩, hp⟩, ho⟩, hn⟩ := h
  refine lucas_primality _ (c.root : ZMod c.number) (power_eq_one_iff ht le_rfl |>.mp ho) fun q hq hd h => ?_
  rw [← hp] at hd
  have ⟨_, hm, hd⟩ := Prime.dvd_prod_iff hq.prime |>.mp hd
  have ⟨⟨f, _⟩, hm, he⟩ := List.mem_map.mp hm
  have hfp : f.Prime := hf _ hm |>.elim prime_of_isSmallPrime (hk _ ·)
  obtain rfl : q = f := Nat.prime_dvd_prime_iff_eq hq hfp |>.mp <| hq.dvd_of_dvd_pow (he ▸ hd)
  exact hn _ hm <| power_eq_one_iff ht (Nat.div_le_self ..) |>.mpr h

theorem prime_of_hold (hk : ∀ q ∈ known, q.Prime) (h : hold known cs) : ∀ c ∈ cs, c.number.Prime := by
  induction cs generalizing known
  case nil => simp
  case cons c cs hi =>
    rw [hold, Bool.and_eq_true] at h
    have hc := prime_of_holds hk h.1
    exact List.forall_mem_cons.mpr ⟨hc, hi (List.forall_mem_cons.mpr ⟨hc, hk⟩) h.2⟩

end Certificate

namespace Point

def certificates : List Certificate := [
  ⟨41201, 3, [(2, 4), (5, 2), (103, 1)]⟩,
  ⟨85831, 3, [(2, 1), (3, 1), (5, 1), (2861, 1)]⟩,
  ⟨96557, 2, [(2, 2), (101, 1), (239, 1)]⟩,
  ⟨120233, 3, [(2, 3), (7, 1), (19, 1), (113, 1)]⟩,
  ⟨305873, 3, [(2, 4), (7, 1), (2731, 1)]⟩,
  ⟨1206781, 10, [(2, 2), (3, 1), (5, 1), (20113, 1)]⟩,
  ⟨1627771, 3, [(2, 1), (3, 1), (5, 1), (29, 1), (1871, 1)]⟩,
  ⟨4681609, 23, [(2, 3), (3, 1), (97, 1), (2011, 1)]⟩,
  ⟨7240687, 3, [(2, 1), (3, 1), (1206781, 1)]⟩,
  ⟨13331831, 13, [(2, 1), (5, 1), (971, 1), (1373, 1)]⟩,
  ⟨44706919, 6, [(2, 1), (3, 1), (797, 1), (9349, 1)]⟩,
  ⟨107590001, 3, [(2, 4), (5, 4), (7, 1), (29, 1), (53, 1)]⟩,
  ⟨545358713, 5, [(2, 3), (41, 1), (59, 1), (28181, 1)]⟩,
  ⟨297159362677, 2, [(2, 2), (3, 2), (11, 1), (461, 1), (1627771, 1)]⟩,
  ⟨107361793816595537, 3, [(2, 4), (16699, 1), (85831, 1), (4681609, 1)]⟩,
  ⟨173378833005251801, 6, [(2, 3), (5, 2), (2621, 1), (24809, 1), (13331831, 1)]⟩,
  ⟨174723607534414371449, 3, [(2, 3), (17, 1), (59, 1), (4051, 1), (120233, 1), (44706919, 1)]⟩,
  ⟨22149492674086928081353, 5, [(2, 3), (3, 1), (5323, 1), (173378833005251801, 1)]⟩,
  ⟨132896956044521568488119, 6, [(2, 1), (3, 1), (22149492674086928081353, 1)]⟩,
  ⟨29047611873442575647497758179, 2, [(2, 1), (293, 1), (305873, 1), (545358713, 1), (297159362677, 1)]⟩,
  ⟨341948486974166000522343609283189, 2, [(2, 2), (3, 3), (109, 1), (29047611873442575647497758179, 1)]⟩,
  ⟨255515944373312847190720520512484175977, 3, [(2, 3), (7, 2), (11, 1), (1627, 1), (2657, 1), (4423, 1),
    (41201, 1), (96557, 1), (7240687, 1), (107590001, 1)]⟩,
  ⟨205115282021455665897114700593932402728804164701536103180137503955397371, 10, [(2, 1), (3, 1), (5, 1),
    (29, 2), (31, 1), (7723, 1), (132896956044521568488119, 1), (255515944373312847190720520512484175977, 1)]⟩,
  ⟨Point.order, 7, [(2, 6), (3, 1), (149, 1), (631, 1), (107361793816595537, 1), (174723607534414371449, 1),
    (341948486974166000522343609283189, 1)]⟩,
  ⟨Point.prime, 3, [(2, 1), (3, 1), (7, 1), (13441, 1),
    (205115282021455665897114700593932402728804164701536103180137503955397371, 1)]⟩]

theorem certificates_hold : Certificate.hold [] certificates := by
  decide +kernel

theorem prime_of_certified {p : Nat} (h : p ∈ certificates.map Certificate.number) : p.Prime := by
  have ⟨c, hc, he⟩ := List.mem_map.mp h
  exact he ▸ Certificate.prime_of_hold (by simp) certificates_hold c hc

theorem prime_prime : prime.Prime :=
  prime_of_certified <| by decide +kernel

theorem order_prime : order.Prime :=
  prime_of_certified <| by decide +kernel

instance : Fact prime.Prime :=
  ⟨prime_prime⟩

instance : Fact order.Prime :=
  ⟨order_prime⟩

end Point

end CauldronCalls
