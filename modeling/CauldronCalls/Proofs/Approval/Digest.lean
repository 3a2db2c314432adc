import CauldronCalls.Approval
import CauldronCalls.Proofs.Bytes

/-!
What the digest of an approval commits to. The main statement is that different requests have different digests,
unless two of the strings that are hashed on the way collide. Nothing is assumed of the hash.
-/

namespace CauldronCalls

namespace Keccak

-- Two different strings among `xs` have the same hash.
def Collide (xs : List Bytes) : Prop :=
  ∃ x ∈ xs, ∃ y ∈ xs, x ≠ y ∧ hash x = hash y

theorem eq_or_collide {xs : List Bytes} {x y : Bytes} (hx : x ∈ xs) (hy : y ∈ xs) (h : hash x = hash y) :
    x = y ∨ Collide xs := by
  by_cases he : x = y
  case pos => exact .inl he
  case neg => exact .inr ⟨x, hx, y, hy, he, h⟩

-- The hash of a string, which is put on record.
def recorded (bs : Bytes) : StateM (List Bytes) Bytes32 := do
  modify (· ++ [bs])
  pure (hash bs)

end Keccak

namespace ApprovalRequest

-- The digest, with every string that is hashed for it put on record.
def recordedDigest (r : ApprovalRequest) : StateM (List Bytes) Bytes32 := do
  let domainType ← Keccak.recorded <|
    Bytes.ofString "EIP712Domain(string name,uint256 chainId,address verifyingContract)"
  let domainName ← Keccak.recorded <| Bytes.ofString "BentoBox V1"
  let domain ← Keccak.recorded <|
    domainType.toList ++ domainName.toList ++ Bytes.bigEndian 32 r.chainId.toNat ++ r.bentobox.toWord.toList
  let messageType ← Keccak.recorded <| Bytes.ofString <|
    "SetMasterContractApproval(string warning,address user,address masterContract," ++ "bool approved,uint256 nonce)"
  let warning ← Keccak.recorded <| Bytes.ofString <| warning r.approved
  let message ← Keccak.recorded <|
    messageType.toList ++ warning.toList ++ r.user.toWord.toList ++ r.masterContract.toWord.toList ++
      Bytes.bigEndian 32 r.approved.toNat ++ r.nonce.toWord.toList
  Keccak.recorded <| [0x19, 0x01] ++ domain.toList ++ message.toList

-- The strings that are hashed while the digest is computed, in order.
def hashed (r : ApprovalRequest) : List Bytes :=
  (r.recordedDigest.run []).2

theorem recordedDigest_eq (r : ApprovalRequest) : (r.recordedDigest.run []).1 = r.digest :=
  rfl

variable (r s : ApprovalRequest)

theorem domain_mem_hashed : r.domain ∈ r.hashed :=
  List.mem_of_getElem? (i := 2) rfl

theorem message_mem_hashed : r.message ∈ r.hashed :=
  List.mem_of_getElem? (i := 5) rfl

theorem preimage_mem_hashed : r.preimage ∈ r.hashed :=
  List.mem_of_getElem? (i := 6) rfl

variable {r s}

-- Every field fills a place of its own in one of the two buffers, so that the buffers tell the fields.
theorem preimage_inj (h : r.preimage = s.preimage) :
    (Keccak.hash r.domain = Keccak.hash s.domain) ∧ (Keccak.hash r.message = Keccak.hash s.message) := by
  have ⟨hd, hm⟩ := List.append_inj' h (by simp [FixedBytes.length_toList])
  have ⟨_, hd⟩ := List.append_inj' hd (by simp [FixedBytes.length_toList])
  exact ⟨FixedBytes.toList_inj hd, FixedBytes.toList_inj hm⟩

theorem domain_inj (h : r.domain = s.domain) : (r.chainId = s.chainId) ∧ (r.bentobox = s.bentobox) := by
  have ⟨h, hb⟩ := List.append_inj' h (by simp [FixedBytes.length_toList])
  have ⟨_, hc⟩ := List.append_inj' h (by simp)
  have hc := congrArg Bytes.toNat hc
  have hr := r.chainId.toNat_lt
  have hs := s.chainId.toNat_lt
  rw [Bytes.toNat_bigEndian, Bytes.toNat_bigEndian, Nat.mod_eq_of_lt (by omega), Nat.mod_eq_of_lt (by omega)] at hc
  exact ⟨UInt64.toNat_inj.mp hc, Address.toWord_inj <| FixedBytes.toList_inj hb⟩

-- The flag stands in the buffer twice: by its warning's hash, and as a word. The word is enough.
theorem message_inj (h : r.message = s.message) :
    (r.user = s.user) ∧ (r.masterContract = s.masterContract) ∧ (r.approved = s.approved) ∧ (r.nonce = s.nonce) := by
  have ⟨h, hn⟩ := List.append_inj' h (by simp [FixedBytes.length_toList])
  have ⟨h, ha⟩ := List.append_inj' h (by simp)
  have ⟨h, hm⟩ := List.append_inj' h (by simp [FixedBytes.length_toList])
  have ⟨_, hu⟩ := List.append_inj' h (by simp [FixedBytes.length_toList])
  have ha : r.approved = s.approved := by
    have ha := congrArg Bytes.toNat ha
    rw [Bytes.toNat_bigEndian, Bytes.toNat_bigEndian] at ha
    cases hr : r.approved <;> cases hs : s.approved <;> simp [hr, hs] at ha ⊢
  refine ⟨?_, ?_, ha, ?_⟩
  · exact Address.toWord_inj <| FixedBytes.toList_inj hu
  · exact Address.toWord_inj <| FixedBytes.toList_inj hm
  · exact Uint256.toWord_inj <| FixedBytes.toList_inj hn

theorem eq_of_domain_message (hd : r.domain = s.domain) (hm : r.message = s.message) : r = s := by
  have ⟨hc, hb⟩ := domain_inj hd
  have ⟨hu, hm, ha, hn⟩ := message_inj hm
  cases r
  cases s
  simp_all

-- Equal digests are those of equal requests, or else there is a collision to show for it.
theorem digest_commits (r s : ApprovalRequest) :
    (r.digest = s.digest ↔ r = s) ∨ Keccak.Collide (r.hashed ++ s.hashed) := by
  by_cases hc : Keccak.Collide (r.hashed ++ s.hashed)
  case pos => exact .inr hc
  case neg =>
    have same {x y : Bytes} (hx : x ∈ r.hashed) (hy : y ∈ s.hashed) (h : Keccak.hash x = Keccak.hash y) : x = y :=
      Keccak.eq_or_collide (List.mem_append_left _ hx) (List.mem_append_right _ hy) h |>.resolve_right hc
    refine .inl ⟨?_, congrArg digest⟩
    intro h
    have hp := same r.preimage_mem_hashed s.preimage_mem_hashed h
    have ⟨hd, hm⟩ := preimage_inj hp
    apply eq_of_domain_message
    · exact same r.domain_mem_hashed s.domain_mem_hashed hd
    · exact same r.message_mem_hashed s.message_mem_hashed hm

end ApprovalRequest

end CauldronCalls
