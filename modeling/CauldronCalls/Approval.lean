import CauldronCalls.Intent
import CauldronCalls.KeyText

/-!
Signing master-contract approvals. The digest is that of structured data by EIP-712: it commits to a domain,
the contract that holds the balances on one chain, and to a message.
-/

namespace CauldronCalls

-- All that an approval's digest commits to.
structure ApprovalRequest where
  chainId : UInt64
  bentobox : Address
  user : Address
  masterContract : Address
  approved : Bool
  -- The number of approvals that the user has signed before.
  nonce : Uint256
deriving DecidableEq

namespace ApprovalRequest

def hashText (s : String) : Bytes :=
  (Keccak.hash (Bytes.ofString s)).toList

def warning (approved : Bool) : String :=
  if approved then "Give FULL access to funds in (and approved to) BentoBox?" else "Revoke access to BentoBox?"

def domain (r : ApprovalRequest) : Bytes :=
  hashText "EIP712Domain(string name,uint256 chainId,address verifyingContract)" ++
  hashText "BentoBox V1" ++
  Bytes.bigEndian 32 r.chainId.toNat ++
  r.bentobox.toWord.toList

def message (r : ApprovalRequest) : Bytes :=
  hashText ("SetMasterContractApproval(string warning,address user,address masterContract," ++
    "bool approved,uint256 nonce)") ++
  hashText (warning r.approved) ++
  r.user.toWord.toList ++
  r.masterContract.toWord.toList ++
  Bytes.bigEndian 32 r.approved.toNat ++
  r.nonce.toWord.toList

def preimage (r : ApprovalRequest) : Bytes :=
  [0x19, 0x01] ++ (Keccak.hash r.domain).toList ++ (Keccak.hash r.message).toList

def digest (r : ApprovalRequest) : Bytes32 :=
  Keccak.hash r.preimage

end ApprovalRequest

inductive SigningError where
  | foreignKey (signer user : Address)
  | noSignature
deriving DecidableEq

def SigningError.message : SigningError → String
  | foreignKey signer user =>
    s!"approval signing failed: key controls {signer.checksummed}, approval is for {user.checksummed}"
  | noSignature            => "approval signing failed: signature error"

-- Signs a request with the user's own key; another key's signature would be refused on chain.
def ApprovalRequest.sign (r : ApprovalRequest) (key : PrivateKey) :
    Except SigningError MasterContractApproval :=
  if key.address = r.user then
    match Signature.sign? key r.digest with
    | none   => .error .noSignature
    | some g => .ok ⟨r.user, r.masterContract, r.approved, UInt8.ofNat (27 + g.recovery),
        FixedBytes.ofNat 32 g.r, FixedBytes.ofNat 32 g.s⟩
  else .error (.foreignKey key.address r.user)

-- A request whose user may be left open; it is then the one whose key signs.
structure ApprovalDraft where
  chainId : UInt64
  bentobox : Address
  user : Option Address
  masterContract : Address
  approved : Bool
  nonce : Uint256
deriving DecidableEq

def ApprovalDraft.request (d : ApprovalDraft) (key : PrivateKey) : ApprovalRequest :=
  ⟨d.chainId, d.bentobox, d.user.getD key.address, d.masterContract, d.approved, d.nonce⟩

end CauldronCalls
