import CauldronCalls.Amount
import CauldronCalls.Proofs.Bytes

/-!
Amounts as the words of signed slots, and what such a word comes to when a batch is run. The two sentinels stand for
the outputs that the step before has left, and any other word for itself. The main statement is that the word of an
amount comes to what the amount means, and that no amount goes without a word but the literals that would read as
negative numbers.
-/

namespace CauldronCalls

namespace OutputSlot

theorem toNat_sentinel (s : OutputSlot) : s.sentinel.toNat = 2 ^ 256 - s.depth := by
  cases s <;> decide

theorem toInt_sentinel (s : OutputSlot) : s.sentinel.toInt = -s.depth := by
  cases s <;> decide

theorem eq_sentinel_iff {s : OutputSlot} {v : BitVec 256} : v = s.sentinel ↔ v.toInt = -s.depth := by
  rw [← toInt_sentinel, BitVec.toInt_inj]

end OutputSlot

namespace Amount

variable {a b : Amount} {n v value1 value2 : Uint256}

theorem toSigned?_literal_of_lt (h : n.toNat < 2 ^ 255) : (literal n).toSigned? = some n := by
  have hm : n.msb = false := by rw [BitVec.msb_eq_decide, decide_eq_false (by omega)]
  simp [toSigned?, hm]

theorem toSigned?_literal_of_ge (h : 2 ^ 255 ≤ n.toNat) : (literal n).toSigned? = none := by
  have hm : n.msb = true := by rw [BitVec.msb_eq_decide, decide_eq_true h]
  simp [toSigned?, hm]

theorem toSigned?_eq_none_iff : a.toSigned? = none ↔ ∃ n, (a = literal n) ∧ 2 ^ 255 ≤ n.toNat := by
  constructor
  case mp =>
    intro h
    cases a
    case prior     => contradiction
    case literal n =>
      refine ⟨n, rfl, ?_⟩
      by_contra hn
      rw [toSigned?_literal_of_lt (Nat.lt_of_not_le hn)] at h
      contradiction
  case mpr =>
    rintro ⟨n, rfl, hn⟩
    exact toSigned?_literal_of_ge hn

-- The two sentinels stand for the outputs of an earlier action, every other word for itself.
def ofWord (w : Bytes32) : Amount :=
  if Uint256.ofWord w = OutputSlot.one.sentinel then prior .one
  else if Uint256.ofWord w = OutputSlot.two.sentinel then prior .two
  else literal (Uint256.ofWord w)

-- The most significant bit keeps the literals away from the sentinels.
theorem ne_sentinel {v : Uint256} (h : v.msb = false) (s : OutputSlot) : v ≠ s.sentinel := by
  intro hv
  have hs : s.sentinel.msb = true := by cases s <;> decide
  simp [hv, hs] at h

theorem ofWord_toWord {a : Amount} {v : Uint256} (h : a.toSigned? = some v) : ofWord v.toWord = a := by
  rw [ofWord, Uint256.ofWord_toWord]
  cases a
  case literal =>
    simp only [toSigned?] at h
    split at h
    case isTrue => contradiction
    case isFalse hm =>
      cases h
      have hm := Bool.eq_false_iff.mpr hm
      rw [if_neg (ne_sentinel hm _), if_neg (ne_sentinel hm _)]
  case prior s =>
    cases h
    cases s <;> decide

theorem toSigned?_inj (ha : a.toSigned? = some v) (hb : b.toSigned? = some v) : a = b := by
  rw [← ofWord_toWord ha, ofWord_toWord hb]

-- The word of an amount in a signed slot.
def word : Amount → BitVec 256
  | literal v => v
  | prior s   => s.sentinel

theorem word_of_toSigned? {a : Amount} {v : Uint256} (h : a.toSigned? = some v) : a.word = v := by
  cases a
  case prior s => exact Option.some.inj h
  case literal n =>
    rw [toSigned?] at h
    split at h <;> cases h
    rfl

-- Reading a word as an amount loses nothing.
theorem word_ofWord (w : Bytes32) : (ofWord w).word = Uint256.ofWord w := by
  rw [ofWord]
  split
  case isTrue h => exact h.symm
  case isFalse =>
    split
    case isTrue h  => exact h.symm
    case isFalse _ => rfl

-- What an amount means where the two outputs that are kept are `value1` and `value2`.
def meaning (value1 value2 : Uint256) : Amount → Uint256
  | literal n  => n
  | prior .one => value1
  | prior .two => value2

theorem resolve_eq (value1 value2 v : Uint256) :
    resolve value1 value2 v = if v.toInt = -1 then value1 else if v.toInt = -2 then value2 else v := by
  simp only [resolve, OutputSlot.eq_sentinel_iff]
  rfl

-- To resolve a word is to read it as an amount and to take what that means.
theorem resolve_ofWord (w : Bytes32) :
    resolve value1 value2 (Uint256.ofWord w) = (ofWord w).meaning value1 value2 := by
  rw [resolve, ofWord]
  split_ifs <;> rfl

-- An amount has a word unless it is a literal from `2 ^ 255` on. The word comes to what the amount means, whatever the
-- outputs are, and it is the word of no other amount.
theorem toSigned?_resolves (a : Amount) :
    (a.toSigned? = none ↔ ∃ n, (a = literal n) ∧ 2 ^ 255 ≤ n.toNat) ∧
    (∀ v : Uint256, a.toSigned? = some v →
      (∀ value1 value2, resolve value1 value2 (Uint256.ofWord v.toWord) = a.meaning value1 value2) ∧
      (∀ b : Amount, b.toSigned? = some v → b = a)) ∧
    (∀ value1 value2 v : Uint256,
      resolve value1 value2 v = if v.toInt = -1 then value1 else if v.toInt = -2 then value2 else v) := by
  refine ⟨toSigned?_eq_none_iff, ?word, resolve_eq⟩
  case word =>
    intro v h
    refine ⟨fun value1 value2 => ?_, fun b hb => toSigned?_inj hb h⟩
    rw [resolve_ofWord, ofWord_toWord h]

-- The largest literal that has a word, and the second output.
theorem toSigned?_resolves_largest :
    ((literal (BitVec.intMax 256)).toSigned? = some (BitVec.intMax 256)) ∧
    (resolve 5 7 (Uint256.ofWord (Uint256.toWord (BitVec.intMax 256))) = BitVec.intMax 256) ∧
    ((prior .two).toSigned? = some (BitVec.ofInt 256 (-2))) ∧
    (resolve 5 7 (Uint256.ofWord (Uint256.toWord (BitVec.ofInt 256 (-2)))) = 7) ∧
    (∀ a : Amount, a.toSigned? = some (BitVec.ofInt 256 (-2)) → a = prior .two) := by
  have hl : (literal (BitVec.intMax 256)).toSigned? = some (BitVec.intMax 256) := by decide
  have hp : (prior .two).toSigned? = some (BitVec.ofInt 256 (-2)) := rfl
  have ⟨hl', _⟩ := toSigned?_resolves _ |>.right.left _ hl
  have ⟨hp', hu⟩ := toSigned?_resolves _ |>.right.left _ hp
  exact ⟨hl, hl' 5 7, hp, hp' 5 7, hu⟩

end Amount

end CauldronCalls
