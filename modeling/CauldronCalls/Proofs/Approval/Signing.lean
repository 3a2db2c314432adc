import CauldronCalls.Approval
import CauldronCalls.Proofs.Bytes
import CauldronCalls.Proofs.Curve.Recovery

/-!
What an approval that was signed is good for: its signature names the user to everyone who knows the request.
-/

namespace CauldronCalls

def MasterContractApproval.signature (a : MasterContractApproval) : Signature :=
  ⟨a.r.toNat, a.s.toNat, a.v.toNat - 27⟩

-- The approval grants what was requested, and its signature recovers to the key that controls the user's address.
structure MasterContractApproval.Authentic (a : MasterContractApproval) (r : ApprovalRequest) (key : PrivateKey) :
    Prop where
  user           : a.user = r.user
  masterContract : a.masterContract = r.masterContract
  approved       : a.approved = r.approved
  r_pos          : 0 < a.r.toNat
  r_lt           : a.r.toNat < Point.order
  s_pos          : 0 < a.s.toNat
  -- Of a signature and its mirror image only the one with the smaller `s` is accepted on chain.
  s_le           : a.s.toNat ≤ (Point.order - 1) / 2
  le_v           : 27 ≤ a.v.toNat
  v_le           : a.v.toNat ≤ 27 + 3
  recovers       : a.signature.recover? r.digest = some key.publicPoint
  address        : key.publicPoint.address = r.user

namespace ApprovalRequest

variable (r : ApprovalRequest) (key : PrivateKey)

theorem sign_foreign (h : key.address ≠ r.user) : r.sign key = .error (.foreignKey key.address r.user) := by
  rw [sign, if_neg h]

variable {r key}

theorem sign_eq_ok {a : MasterContractApproval} (h : r.sign key = .ok a) :
    (key.address = r.user) ∧ ∃ g, Signature.sign? key r.digest = some g ∧
      a = ⟨r.user, r.masterContract, r.approved, UInt8.ofNat (27 + g.recovery), FixedBytes.ofNat 32 g.r,
        FixedBytes.ofNat 32 g.s⟩ := by
  rw [sign] at h
  split at h
  case isFalse => cases h
  case isTrue hu =>
    split at h
    case h_1 => cases h
    case h_2 g hg =>
      cases h
      exact ⟨hu, g, hg, rfl⟩

theorem authentic_of_sign {a : MasterContractApproval} (h : r.sign key = .ok a) : a.Authentic r key := by
  obtain ⟨hu, g, hg, rfl⟩ := sign_eq_ok h
  have ⟨⟨_, _, _, hc⟩, hs⟩ := Signature.sign?_comesFrom hg
  have ho : Point.order < 256 ^ 32 := by decide +kernel
  have hr := FixedBytes.toNat_ofNat <| hc.r_lt.trans ho
  have hn := FixedBytes.toNat_ofNat <| hc.s_lt.trans ho
  have hl := hc.recovery_lt
  have hv : (UInt8.ofNat (27 + g.recovery)).toNat = 27 + g.recovery := by
    rw [UInt8.toNat_ofNat', Nat.mod_eq_of_lt (by omega)]
  refine ⟨rfl, rfl, rfl, ?_, ?_, ?_, ?_, ?_, ?_, ?_, hu⟩ <;>
    simp only [MasterContractApproval.signature, hr, hn, hv, Nat.add_sub_cancel_left]
  · exact hc.r_pos
  · exact hc.r_lt
  · exact hc.s_pos
  · exact hs
  · omega
  · omega
  · exact hc.recover?_eq

-- Only the user's own key signs, and every approval it signs is authentic.
theorem sign_authentic (r : ApprovalRequest) (key : PrivateKey) :
    (key.address ≠ r.user → r.sign key = .error (.foreignKey key.address r.user)) ∧
    ∀ a, r.sign key = .ok a → a.Authentic r key :=
  ⟨sign_foreign r key, fun _ => authentic_of_sign⟩

end ApprovalRequest

end CauldronCalls
