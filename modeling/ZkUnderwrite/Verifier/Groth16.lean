import Mathlib.Data.ZMod.Basic
import ZkUnderwrite.Verifier.Host

/-!
# The Groth16 verifier

The contract at the bottom of the stack: it takes a seal apart, turns the claim digest into public
signals and asks the host for the pairing check. The host's BN254 functions are a structure of
functions on encoded points, which fail on bytes that are not a point.
-/

namespace ZkUnderwrite.Verifier
open ByteString Contract

/-- The order of the scalar field of BN254. -/
def bn254Order : Nat :=
  21888242871839275222246405745257275088548364400416034343698204186575808495617

abbrev Fr := ZMod bn254Order

/-- `env.crypto().bn254()` and the conversions of its types; `none` is a trap of the host. -/
structure Bn254 where
  frFromBytes : BytesN 32 → Fr
  g1Neg : BytesN 64 → Option (BytesN 64)
  g1Mul : BytesN 64 → Fr → Option (BytesN 64)
  g1Add : BytesN 64 → BytesN 64 → Option (BytesN 64)
  pairingCheck : List (BytesN 64) → List (BytesN 128) → Option Bool

def publicInputsLen : Nat := 5

def icLen : Nat := publicInputsLen + 1

def selectorSize : Nat := 4
def fieldElementSize : Nat := 32
def g1Size : Nat := fieldElementSize * 2
def g2Size : Nat := fieldElementSize * 4
def proofSize : Nat := g1Size + g2Size + g1Size
def sealSize : Nat := selectorSize + proofSize

/-! ## Seals -/

structure Groth16Proof where
  a : BytesN 64
  b : BytesN 128
  c : BytesN 64
deriving DecidableEq

structure Groth16Seal where
  selector : BytesN 4
  proof : Groth16Proof
deriving DecidableEq

/-- `try_into().map_err(|_| VerifierError::MalformedSeal)`. -/
def tryInto (n : Nat) (b : Bytes) : Except VerifierError (BytesN n) :=
  match BytesN.ofBytes n b with
  | some v => .ok v
  | none => .error .malformedSeal

def Groth16Proof.tryFrom (value : Bytes) : Except VerifierError Groth16Proof := do
  if value.length ≠ proofSize then throw .malformedSeal
  let a ← tryInto 64 (slice value 0 g1Size)
  let b ← tryInto 128 (slice value g1Size g2Size)
  let c ← tryInto 64 (value.drop (g1Size + g2Size))
  return ⟨a, b, c⟩

def Groth16Seal.tryFrom (value : Bytes) : Except VerifierError Groth16Seal := do
  if value.length ≠ sealSize then throw .malformedSeal
  let selector ← tryInto 4 (slice value 0 selectorSize)
  let proof ← Groth16Proof.tryFrom (value.drop selectorSize)
  return ⟨selector, proof⟩

/-! ## The contract -/

structure VerificationKey where
  alpha : BytesN 64
  beta : BytesN 128
  gamma : BytesN 128
  delta : BytesN 128
  ic : List (BytesN 64)
  length_ic : ic.length = icLen
deriving DecidableEq

/-- The constants that the build embeds in the contract. -/
structure Groth16Verifier where
  selector : BytesN 4
  version : String
  controlRoot0 : BytesN 16
  controlRoot1 : BytesN 16
  bn254ControlId : BytesN 32
  verificationKey : VerificationKey
deriving DecidableEq

namespace Groth16Verifier
variable (B : Bn254) (sha256 : Bytes → BytesN 32) (v : Groth16Verifier)

/-- A trap of the host ends the call. -/
def orTrap {α : Type} : Option α → Except Fault α
  | some a => .ok a
  | none => .error .trap

/-- `bytes[16..32].copy_from_slice(half)` on 32 zero bytes. -/
def padLeft (half : BytesN 16) : BytesN 32 :=
  ⟨List.replicate 16 0 ++ half.val, by simp [half.length_eq]⟩

/-- The bytes `[off, off + 16)` of the reversed digest. -/
def reversedHalf (digest : BytesN 32) (off : Nat) (h : off + 16 ≤ 32) : BytesN 16 :=
  ⟨slice digest.val.reverse off 16,
    length_slice (by rw [List.length_reverse, digest.length_eq]; exact h)⟩

def splitDigest (digest : BytesN 32) : BytesN 32 × BytesN 32 :=
  (padLeft (reversedHalf digest 16 (by decide)), padLeft (reversedHalf digest 0 (by decide)))

/-- The loop of `verify_proof` that accumulates `vk_x`. -/
def accumulate (vkX : BytesN 64) : List (Fr × BytesN 64) → Except Fault (BytesN 64)
  | [] => .ok vkX
  | (s, p) :: terms => do
      let prod ← orTrap (B.g1Mul p s)
      accumulate (← orTrap (B.g1Add vkX prod)) terms

def verifyProof (proof : Groth16Proof) (pubSignals : List Fr) : Except Fault Bool := do
  let vk := v.verificationKey
  if pubSignals.length + 1 ≠ vk.ic.length then throw (.error .malformedPublicInputs)
  let ic₀ ← orTrap vk.ic.head?
  let vkX ← accumulate B ic₀ (pubSignals.zip (vk.ic.drop 1))
  let negA ← orTrap (B.g1Neg proof.a)
  orTrap (B.pairingCheck [negA, vk.alpha, vkX, proof.c] [proof.b, vk.beta, vk.gamma, vk.delta])

def publicSignals (claimDigest : BytesN 32) : List Fr :=
  [B.frFromBytes (padLeft v.controlRoot0), B.frFromBytes (padLeft v.controlRoot1),
    B.frFromBytes (splitDigest claimDigest).1, B.frFromBytes (splitDigest claimDigest).2,
    B.frFromBytes v.bn254ControlId]

def verifyIntegrity (receipt : Receipt) : Except Fault Unit := do
  let groth16Seal ← (Groth16Seal.tryFrom receipt.sealBytes).mapError .error
  if groth16Seal.selector ≠ v.selector then throw (.error .invalidSelector)
  match ← verifyProof B v groth16Seal.proof (publicSignals B v receipt.claimDigest) with
  | true => return ()
  | false => throw (.error .invalidProof)

def verify (sealBytes : Bytes) (imageId journal : BytesN 32) : Except Fault Unit :=
  verifyIntegrity B v ⟨sealBytes, claimDigest sha256 imageId journal⟩

/-- The contract's answer to either query. -/
def answer : Query → Except Fault Unit
  | .verify s i j => verify B sha256 v s i j
  | .verifyIntegrity r => verifyIntegrity B v r

end Groth16Verifier

end ZkUnderwrite.Verifier
