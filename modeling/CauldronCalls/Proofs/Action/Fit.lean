import CauldronCalls.Proofs.Action.RoundTrip
import CauldronCalls.Proofs.Outcome

/-!
Which arguments fit which slots. A list of arguments is bound just if there is one argument for each slot and
each of them fits; a literal that is too large for the first slot is reported as such.
-/

namespace CauldronCalls

open Outcome

-- Shapes have to agree with the type of the slot, and numbers have to be in its range.
def Argument.Fits : Argument → ParamType → Prop
  | address _, .address          => True
  | bool _, .bool                => True
  | uint n, .uint8               => n.toNat ≤ 255
  | uint _, .uint256             => True
  | amount (.literal n), .int256 => n.toNat < 2 ^ 255
  | amount (.prior _), .int256   => True
  | word _, .bytes32             => True
  | bytes _, .bytes              => True
  | addresses _, .addressArray   => True
  | uints _, .uint256Array       => True
  | _, _                         => False

theorem Amount.toSigned?_some_iff (x : Amount) :
    (∃ v, x.toSigned? = some v) ↔ (Argument.amount x).Fits .int256 := by
  cases x
  case prior s => exact iff_of_true ⟨_, rfl⟩ trivial
  case literal n =>
    by_cases hn : n.toNat < 2 ^ 255
    case pos => exact iff_of_true ⟨n, toSigned?_literal_of_lt hn⟩ hn
    case neg =>
      rw [toSigned?_literal_of_ge (Nat.le_of_not_lt hn)]
      exact iff_of_false (fun ⟨_, h⟩ => nomatch h) hn

namespace Param

variable {p : Param} {ps : List Param} {a : Argument} {as : List Argument}

theorem fit_ok_iff : (∃ i, p.fit a = .ok i) ↔ a.Fits p.type := by
  cases a
  case amount x =>
    cases ht : p.type
    case int256 =>
      rw [← x.toSigned?_some_iff]
      cases hx : x.toSigned? <;> simp [fit, ht, hx]
    all_goals cases x <;> simp [fit, ht, Argument.Fits]
  case uint n =>
    by_cases hn : n.toNat ≤ 255 <;> cases ht : p.type <;> simp [fit, ht, Argument.Fits, hn]
  all_goals cases ht : p.type <;> simp [fit, ht, Argument.Fits]

theorem fitAll_ok_iff (hl : as.length = ps.length) :
    (∃ is, fitAll ps as = .ok is) ↔ as.Forall₂ (fun a p => a.Fits p.type) ps := by
  induction ps generalizing as <;> cases as <;> simp only [List.length_cons, List.length_nil] at hl
  case nil.nil => exact iff_of_true ⟨_, rfl⟩ .nil
  case cons.cons p ps hi a as =>
    rw [List.forall₂_cons, ← fit_ok_iff, ← hi (by omega)]
    constructor
    case mp =>
      intro ⟨is, h⟩
      have ⟨i, js, hf, hj, _⟩ := fitAll_cons h
      exact ⟨⟨i, hf⟩, ⟨js, hj⟩⟩
    case mpr =>
      intro ⟨⟨i, hf⟩, ⟨js, hj⟩⟩
      exact ⟨i :: js, by simp only [fitAll, hf, hj]; rfl⟩
  all_goals contradiction

theorem fit_oversized {n : Uint256} (ht : p.type = .int256) (hn : 2 ^ 255 ≤ n.toNat) :
    p.fit (.amount (.literal n)) = .error (.oversizedLiteral p.name) := by
  rw [fit, if_pos ht, Amount.toSigned?_literal_of_ge hn]

end Param

namespace Descriptor

variable {d : Descriptor} {v : Uint256} {as : List Argument}

theorem bind_ok_iff :
    (∃ a, d.bind v as = .ok a) ↔ as.Forall₂ (fun a p => a.Fits p.type) d.params := by
  by_cases hl : as.length = d.params.length
  case pos =>
    rw [← Param.fitAll_ok_iff hl]
    cases hf : Param.fitAll d.params as <;> simp [bind, hl, hf]
  case neg =>
    refine iff_of_false ?_ (hl ·.length_eq)
    simp [bind, hl]

theorem bind_oversized {name : String} {ps : List Param} {n : Uint256} (hp : d.params = ⟨name, .int256⟩ :: ps)
    (hl : as.length = ps.length) (hn : 2 ^ 255 ≤ n.toNat) :
    d.bind v (.amount (.literal n) :: as) = .error (.argumentMismatch d.kind (.oversizedLiteral name)) := by
  have hf : Param.fitAll d.params (.amount (.literal n) :: as) = .error (.oversizedLiteral name) := by
    rw [hp, Param.fitAll, Param.fit_oversized rfl hn]
    rfl
  rw [bind, hf, hp, List.length_cons, List.length_cons, hl, if_neg (· rfl)]

end Descriptor

end CauldronCalls
