import ZkUnderwrite.Contract.Policy

/-!
# Claims

A claim is a request with a journal of the right length, together with who authorises it and which
proofs the router accepts when it is made. A list of claims is made one after the other, with no
other call in between.
-/

namespace ZkUnderwrite.Contract
open ByteString

variable {τ : Type}

structure Claim where
  borrower : Address
  sealBytes : Bytes
  journal : BytesN journalLen
  authorized : Address → Bool
  verify : Address → Bytes → BytesN 32 → BytesN 32 → Bool

namespace Claim

def invocation (c : Claim) : Invocation :=
  ⟨c.authorized, c.verify, .requestCredit c.borrower c.sealBytes c.journal.val⟩

def values (c : Claim) : Journal := Journal.parse c.journal

def nullifier (c : Claim) : BytesN 32 := c.values.nullifier

/-- The claim is authorised and its proof is accepted. -/
structure Proven (P : Platform τ) (p : Policy) (c : Claim) : Prop where
  authorized : c.authorized c.borrower = true
  proof : c.verify p.router c.sealBytes p.imageId (P.sha256 c.journal.val) = true

/-- Moreover the claim passes all policy checks in the state `w`, and the borrower is not the
contract itself. -/
structure Passes (P : Platform τ) (w : World τ) (p : Policy) (c : Claim) : Prop
    extends Proven P p c where
  policy : policyError w p c.values = none
  not_self : P.currentContractAddress ≠ c.borrower

end Claim

def claimStep (P : Platform τ) (w : World τ) (c : Claim) : Except Fault Ret × World τ :=
  invoke P c.invocation w

abbrev paidClaims (P : Platform τ) (w : World τ) (cs : List Claim) : List Claim :=
  Machine.accepted (claimStep P) Except.isOk w cs

abbrev afterClaims (P : Platform τ) (w : World τ) (cs : List Claim) : World τ :=
  Machine.final (claimStep P) w cs

end ZkUnderwrite.Contract
