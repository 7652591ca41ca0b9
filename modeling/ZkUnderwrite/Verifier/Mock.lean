import ZkUnderwrite.Verifier.Host

/-!
# The mock verifier

A verifier for development: its seals are a selector and a claim digest, with no proof in them.
-/

namespace ZkUnderwrite.Verifier
open ByteString Contract

/-- The persistent entry under `DataKey::Selector`. -/
structure MockVerifier where
  selector : Option Bytes
deriving DecidableEq

namespace MockVerifier
variable (sha256 keccak256 : Bytes → BytesN 32)

def constructor (selector : BytesN 4) : MockVerifier := ⟨some selector.val⟩

def readSelector (m : MockVerifier) : Except VerifierError Bytes :=
  match m.selector with
  | some selector => .ok selector
  | none => .error .invalidSelector

def mockProveClaim (m : MockVerifier) (claimDigest : BytesN 32) : Except VerifierError Receipt := do
  let selector ← m.readSelector
  return ⟨selector ++ claimDigest.val, claimDigest⟩

def mockProve (m : MockVerifier) (imageId journalDigest : BytesN 32) : Except VerifierError Receipt :=
  m.mockProveClaim (claimDigest sha256 imageId journalDigest)

def verifyIntegrity (m : MockVerifier) (receipt : Receipt) : Except VerifierError Unit := do
  if receipt.sealBytes.length < 4 then throw .malformedSeal
  let expectedSelector ← m.readSelector
  let selector := slice receipt.sealBytes 0 4
  if selector ≠ expectedSelector then throw .invalidSelector
  let sealHash := keccak256 (receipt.sealBytes.drop 4)
  let claimHash := keccak256 receipt.claimDigest.val
  if sealHash ≠ claimHash then throw .invalidProof
  return ()

def verify (m : MockVerifier) (sealBytes : Bytes) (imageId journal : BytesN 32) :
    Except VerifierError Unit :=
  m.verifyIntegrity keccak256 ⟨sealBytes, claimDigest sha256 imageId journal⟩

def answer (m : MockVerifier) : Query → Except Fault Unit
  | .verify s i j => (m.verify sha256 keccak256 s i j).mapError .error
  | .verifyIntegrity r => (m.verifyIntegrity keccak256 r).mapError .error

end MockVerifier

end ZkUnderwrite.Verifier
