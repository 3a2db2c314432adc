import CauldronCalls.Proofs.Action.Fit
import CauldronCalls.Proofs.Compiler.Groups

/-!
Which intents have no call, and why. A part is refused for its own sake only: for a swapper that has no call
data, or for a literal amount that does not fit its signed slot. The main statement lists the errors of a
compiler with the intents that get them.
-/

namespace CauldronCalls

open Outcome

theorem Cauldron.bound_ok_iff {c : Cauldron} {s : Step} (hv : s.descriptor.minVersion = .v1) :
    (∃ a, c.bound s = .ok a) ↔ s.args.Forall₂ (fun a p => a.Fits p.type) s.descriptor.params := by
  rw [c.bound_eq_bind hv, Descriptor.bind_ok_iff]

namespace Part

-- Why a part is refused, whatever stands beside it.
inductive Refused (w : Swapper) : Part → CompileError → Prop
  | swapper {s : Address} {l : Leverage} (hk : w.kind ≠ .simpleSwap) :
    Refused w (leverage s l) (.unsupportedSwapper w.kind)
  | leverage {s : Address} {l : Leverage} (hk : w.kind = .simpleSwap) (hn : 2 ^ 255 ≤ l.amount.toNat) :
    Refused w (leverage s l) (.argumentMismatch .borrow (.oversizedLiteral "amount"))
  | borrow {s : Address} {b : Borrow} (hn : 2 ^ 255 ≤ b.amount.toNat) :
    Refused w (borrow s b) (.argumentMismatch .borrow (.oversizedLiteral "amount"))
  | remove {s : Address} {r : RemoveCollateral} (hn : 2 ^ 255 ≤ r.amount.toNat) :
    Refused w (remove s r) (.argumentMismatch .removeCollateral (.oversizedLiteral "share"))

variable {c : Cauldron} {w : Swapper} {p : Part} {ss : List Step} {e : CompileError}

theorem minVersion_steps (h : p.steps w = .ok ss) : ∀ s ∈ ss, s.descriptor.minVersion = .v1 := by
  cases p
  case leverage =>
    rw [steps_leverage h]
    simp [ActionKind.step, ActionKind.descriptor, ActionKind.minVersion]
  all_goals
    cases h
    simp [ActionKind.step, ActionKind.descriptor, ActionKind.minVersion, MasterContractApproval.steps,
      AddCollateral.steps, Borrow.steps, Repay.steps, RemoveCollateral.steps]

theorem steps_leverage_ok {s : Address} {l : Leverage} (hk : w.kind = .simpleSwap) :
    ∃ ss, (leverage s l).steps w = .ok ss := by
  simp only [steps, Leverage.steps, hk]
  exact ⟨_, rfl⟩

theorem steps_of_not_refused (h : ∀ e, ¬p.Refused w e) : ∃ ss, p.steps w = .ok ss := by
  cases p
  case leverage => exact steps_leverage_ok <| Decidable.not_not.mp fun hk => h _ <| .swapper hk
  all_goals exact ⟨_, rfl⟩

theorem fits_steps (h : p.steps w = .ok ss) (hn : ∀ e, ¬p.Refused w e) :
    ∀ s ∈ ss, s.args.Forall₂ (fun a p => a.Fits p.type) s.descriptor.params := by
  cases p
  case approval a =>
    have hv : (BitVec.ofNat 256 a.v.toNat).toNat ≤ 255 := by
      have := a.v.toNat_lt
      rw [BitVec.toNat_ofNat]
      omega
    cases h
    simpa [MasterContractApproval.steps, ActionKind.step, ActionKind.descriptor, ActionKind.params, Argument.Fits]
      using hv
  case leverage s l =>
    have hk : w.kind = .simpleSwap := Decidable.not_not.mp fun hk => hn _ <| .swapper hk
    have hn : l.amount.toNat < 2 ^ 255 := Nat.lt_of_not_le fun h => hn _ <| .leverage hk h
    rw [steps_leverage h]
    simpa [ActionKind.step, ActionKind.descriptor, ActionKind.params, Argument.Fits] using hn
  case borrow s b =>
    have hn : b.amount.toNat < 2 ^ 255 := Nat.lt_of_not_le fun h => hn _ <| .borrow h
    cases h
    simpa [Borrow.steps, ActionKind.step, ActionKind.descriptor, ActionKind.params, Argument.Fits] using hn
  case remove s r =>
    have hn : r.amount.toNat < 2 ^ 255 := Nat.lt_of_not_le fun h => hn _ <| .remove h
    cases h
    simpa [RemoveCollateral.steps, ActionKind.step, ActionKind.descriptor, ActionKind.params, Argument.Fits] using hn
  all_goals
    cases h
    simp [AddCollateral.steps, Repay.steps, ActionKind.step, ActionKind.descriptor, ActionKind.params, Argument.Fits]

theorem group_ok (h : ∀ e, ¬p.Refused w e) : ∃ as, c.group (p.steps w) = .ok as := by
  have ⟨ss, hs⟩ := steps_of_not_refused h
  have hm : ∃ as, ss.mapM c.bound = .ok as := mapM_ok_iff.mpr fun s hm =>
    Cauldron.bound_ok_iff (minVersion_steps hs s hm) |>.mpr <| fits_steps hs h s hm
  have ⟨as, ha⟩ := hm
  exact ⟨as, Cauldron.group_eq_ok.mpr ⟨ss, hs, ha⟩⟩

-- A part whose first step has a literal that is too large for its first slot.
theorem group_oversized {k : ActionKind} {n : Uint256} {as : List Argument} {name : String} {ps : List Param}
    (h : p.steps w = .ok (k.step (.amount (.literal n) :: as) :: ss)) (hv : k.minVersion = .v1)
    (hp : k.params = ⟨name, .int256⟩ :: ps) (hl : as.length = ps.length) (hn : 2 ^ 255 ≤ n.toNat) :
    c.group (p.steps w) = .error (.argumentMismatch k (.oversizedLiteral name)) := by
  rw [h]
  refine mapM_cons_eq_error.mpr <| .inl ?_
  rw [c.bound_eq_bind hv]
  exact Descriptor.bind_oversized hp hl hn

theorem group_error (h : p.Refused w e) : c.group (p.steps w) = .error e := by
  cases h
  case swapper s l hk =>
    have hs : (leverage s l).steps w = .error (.unsupportedSwapper w.kind) := by
      simp only [steps, Leverage.steps]
      cases hw : w.kind <;> first | contradiction | rfl
    rw [hs]
    rfl
  case leverage s l hk hn =>
    obtain ⟨ss, hs⟩ := steps_leverage_ok (s := s) (l := l) hk
    rw [steps_leverage hs] at hs
    exact group_oversized hs rfl rfl rfl hn
  case borrow hn => exact group_oversized rfl rfl rfl rfl hn
  case remove hn => exact group_oversized rfl rfl rfl rfl hn

theorem group_error_iff : c.group (p.steps w) = .error e ↔ p.Refused w e := by
  refine ⟨?mp, group_error⟩
  case mp =>
    intro h
    by_contra hn
    have hr : ∀ e', ¬p.Refused w e' := by
      intro e' he
      have := h.symm.trans (group_error he)
      cases this
      exact hn he
    have ⟨as, ha⟩ := group_ok (c := c) hr
    rw [ha] at h
    contradiction

end Part

namespace Intent

variable {w : Swapper} {i : Intent} {p q : Part} {d e : CompileError}

-- Only the last part of an intent can be refused.
theorem refused_unique (hp : p ∈ i.parts) (hq : q ∈ i.parts) (hd : p.Refused w d) (he : q.Refused w e) :
    p = q := by
  rcases i with ⟨_, _ | _, _ | _ | _⟩ <;> cases hd <;> cases he <;>
    simp_all [parts, Operation.parts]

theorem OnlyBorrows.parts_eq {b : Borrow} (h : i.OnlyBorrows b) : i.parts = [.borrow i.sender b] := by
  rw [parts, h.approval, h.operation]
  rfl

end Intent

namespace Compiler

variable {c : Compiler} {i : Intent} {e : CompileError}

theorem actions_error_iff :
    c.actions i = .error e ↔ ∃ p ∈ i.parts, p.Refused c.cauldron.leverageSwapper e := by
  have hm {d : CompileError} (h : i.parts.mapM c.group = .error d) :
      ∃ p ∈ i.parts, p.Refused c.cauldron.leverageSwapper d := by
    obtain ⟨before, p, after, hs, _, hd⟩ := mapM_eq_error_iff.mp h
    exact ⟨p, hs ▸ List.mem_append_right _ List.mem_cons_self, Part.group_error_iff.mp hd⟩
  rw [actions_eq_flatten, map_eq_error]
  refine ⟨hm, ?mpr⟩
  case mpr =>
    intro ⟨p, hp, he⟩
    have hg : c.group p = .error e := Part.group_error he
    obtain ⟨as, h⟩ | ⟨d, h⟩ := ok_or_error (i.parts.mapM c.group)
    case inl =>
      have ⟨a, ha⟩ := mapM_ok_iff.mp ⟨as, h⟩ p hp
      rw [hg] at ha
      contradiction
    case inr =>
      obtain ⟨q, hq, hd⟩ := hm h
      cases Intent.refused_unique hp hq he hd
      have hd : c.group p = .error d := Part.group_error hd
      cases hd.symm.trans hg
      exact h

-- Why an intent has no call.
inductive Refuses (c : Compiler) (i : Intent) : CompileError → Prop
  | empty (h : i.parts = []) :
    c.Refuses i .emptyIntent
  | swapper {l : Leverage} (h : .leverage i.sender l ∈ i.parts)
      (hk : c.cauldron.leverageSwapper.kind ≠ .simpleSwap) :
    c.Refuses i (.unsupportedSwapper c.cauldron.leverageSwapper.kind)
  | leverage {l : Leverage} (h : .leverage i.sender l ∈ i.parts)
      (hk : c.cauldron.leverageSwapper.kind = .simpleSwap) (hn : 2 ^ 255 ≤ l.amount.toNat) :
    c.Refuses i (.argumentMismatch .borrow (.oversizedLiteral "amount"))
  -- A direct call takes every amount.
  | borrow {b : Borrow} (h : .borrow i.sender b ∈ i.parts)
      (hd : c.directBorrow = true → ¬i.OnlyBorrows b) (hn : 2 ^ 255 ≤ b.amount.toNat) :
    c.Refuses i (.argumentMismatch .borrow (.oversizedLiteral "amount"))
  | remove {r : RemoveCollateral} (h : .remove i.sender r ∈ i.parts) (hn : 2 ^ 255 ≤ r.amount.toNat) :
    c.Refuses i (.argumentMismatch .removeCollateral (.oversizedLiteral "share"))

theorem refuses_of_refused {p : Part} (hp : p ∈ i.parts) (he : p.Refused c.cauldron.leverageSwapper e)
    (hd : c.directBorrow = true → ∀ b, ¬i.OnlyBorrows b) : c.Refuses i e := by
  cases he
  case swapper hk =>
    cases Intent.sender_of_mem_parts hp rfl
    exact .swapper hp hk
  case leverage hk hn =>
    cases Intent.sender_of_mem_parts hp rfl
    exact .leverage hp hk hn
  case borrow hn =>
    cases Intent.sender_of_mem_parts hp rfl
    exact .borrow hp (fun h => hd h _) hn
  case remove hn =>
    cases Intent.sender_of_mem_parts hp rfl
    exact .remove hp hn

theorem refused_of_refuses (h : c.Refuses i e) (hp : i.parts ≠ []) :
    ∃ p ∈ i.parts, p.Refused c.cauldron.leverageSwapper e := by
  cases h
  case empty h            => contradiction
  case swapper l h hk     => exact ⟨_, h, .swapper hk⟩
  case leverage l h hk hn => exact ⟨_, h, .leverage hk hn⟩
  case borrow b h _ hn    => exact ⟨_, h, .borrow hn⟩
  case remove r h hn      => exact ⟨_, h, .remove hn⟩

theorem not_refuses_direct {b : Borrow} (hb : i.OnlyBorrows b) (hd : c.directBorrow = true) : ¬c.Refuses i e := by
  have hp := hb.parts_eq
  intro h
  cases h
  case borrow b' h hn _ =>
    rw [hp, List.mem_singleton] at h
    cases h
    exact hn hd hb
  all_goals simp_all

theorem compile_error_iff : c.compile i = .error e ↔ c.Refuses i e := by
  obtain ⟨hp, hc⟩ | ⟨b, hb, hd, hc⟩ | ⟨hp, hd, hc⟩ := c.compile_cases i <;> rw [hc]
  case inl =>
    constructor
    case mp =>
      intro h
      cases h
      exact .empty hp
    case mpr =>
      intro h
      cases h
      case empty => rfl
      all_goals simp_all
  case inr.inl => exact iff_of_false (fun h => nomatch h) (not_refuses_direct hb hd)
  case inr.inr =>
    rw [map_eq_error, actions_error_iff]
    constructor
    case mp  => exact fun ⟨p, hp, he⟩ => refuses_of_refused hp he hd
    case mpr => exact fun h => refused_of_refuses h hp

-- The errors of a compiler, the intents that get them, and the text of a literal that does not fit. Every
-- other intent compiles, and so does every one that only gives an approval, deposits or repays.
theorem compile_refuses (c : Compiler) (i : Intent) :
    (∀ e, c.compile i = .error e ↔ c.Refuses i e) ∧
    ((∃ x, c.compile i = .ok x) ↔ ∀ e, ¬c.Refuses i e) ∧
    ((Misfit.oversizedLiteral "amount").message = "`amount` literal does not fit int256") ∧
    ((Misfit.oversizedLiteral "share").message = "`share` literal does not fit int256") ∧
    (i.parts ≠ [] → (∀ b, .borrow i.sender b ∉ i.parts) → (∀ r, .remove i.sender r ∉ i.parts) →
      (∀ l, .leverage i.sender l ∉ i.parts) → ∃ x, c.compile i = .ok x) ∧
    (∀ k required actual, c.compile i ≠ .error (.unsupportedVersion k required actual)) ∧
    (∀ actions values datas, c.compile i ≠ .error (.outOfStep actions values datas)) := by
  have hok : (∃ x, c.compile i = .ok x) ↔ ∀ e, ¬c.Refuses i e := by
    simp only [← compile_error_iff]
    cases c.compile i <;> simp
  refine ⟨fun _ => compile_error_iff, hok, by decide, by decide, ?accepted, ?version, ?step⟩
  case accepted =>
    intro hp hb hr hl
    rw [hok]
    intro e he
    cases he
    case empty h        => exact hp h
    case swapper h _    => exact hl _ h
    case leverage h _ _ => exact hl _ h
    case borrow h _ _   => exact hb _ h
    case remove h _     => exact hr _ h
  case version =>
    intro _ _ _ h
    cases compile_error_iff.mp h
  case step =>
    intro _ _ _ h
    cases compile_error_iff.mp h

-- The swapper is looked at before the amount.
theorem compile_refuses_swapper :
    (mk ⟨"", 1, 0, ⟨.zero, .v1⟩, ⟨.zero, .swapper⟩⟩ true).compile
      ⟨.zero, none, .addCollateralAndLeverage none (some ⟨BitVec.ofNat 256 (2 ^ 255), 4, none⟩)⟩ =
        .error (.unsupportedSwapper .swapper) := by
  refine compile_refuses _ _ |>.left _ |>.mpr ?_
  exact .swapper (l := ⟨BitVec.ofNat 256 (2 ^ 255), 4, none⟩) List.mem_cons_self (by decide)

end Compiler

end CauldronCalls
