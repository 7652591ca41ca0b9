import ZkUnderwrite.Lib.Hex
import ZkUnderwrite.Verifier.Groth16

/-!
# The build of the Groth16 verifier

What `build.rs` makes of the file of parameters, and the constants that the contract includes from it. What
is taken from arkworks and from the compiler is a structure of functions; the conversions whose failure
ends the build give `none`.
-/

namespace ZkUnderwrite.Verifier.Build
open ByteString

/-- The modulus of the field of the coordinates of BN254. -/
def bn254Modulus : Nat :=
  21888242871839275222246405745257275088696311157297823662689037894645226208583

abbrev Fq := ZMod bn254Modulus

@[ext] structure Fq2 where
  c0 : Fq
  c1 : Fq
deriving DecidableEq

/-- `Fq::from_str`, and the checks that `G1Affine::new` and `G2Affine::new` make of the coordinates. -/
structure Ark where
  fqFromStr : String → Option Fq
  isG1 : Fq → Fq → Bool
  isG2 : Fq2 → Fq2 → Bool

@[ext] structure G1Affine (A : Ark) where
  x : Fq
  y : Fq
  valid : A.isG1 x y = true

@[ext] structure G2Affine (A : Ark) where
  x : Fq2
  y : Fq2
  valid : A.isG2 x y = true

def G1Affine.new (A : Ark) (x y : Fq) : Option (G1Affine A) :=
  if h : A.isG1 x y = true then some ⟨x, y, h⟩ else none

def G2Affine.new (A : Ark) (x y : Fq2) : Option (G2Affine A) :=
  if h : A.isG2 x y = true then some ⟨x, y, h⟩ else none

/-! ## The parameters -/

structure PointG1Json where
  x : String
  y : String
deriving DecidableEq, Repr

structure PointG2Json where
  x1 : String
  x2 : String
  y1 : String
  y2 : String
deriving DecidableEq, Repr

structure VerificationKeyJson where
  alpha : PointG1Json
  beta : PointG2Json
  gamma : PointG2Json
  delta : PointG2Json
  ic : List PointG1Json
deriving DecidableEq, Repr

structure VerifierParameters where
  version : String
  controlRoot : String
  bn254ControlId : String
  verificationKey : VerificationKeyJson
deriving DecidableEq, Repr

@[ext] structure VerificationKey (A : Ark) where
  alpha : G1Affine A
  beta : G2Affine A
  gamma : G2Affine A
  delta : G2Affine A
  ic : List (G1Affine A)

section
variable (A : Ark)

/-- `new` checks the point, so that the assertion after it cannot fail. -/
def PointG1Json.toG1Affine (self : PointG1Json) : Option (G1Affine A) := do
  let x ← A.fqFromStr self.x
  let y ← A.fqFromStr self.y
  G1Affine.new A x y

def PointG2Json.toG2Affine (self : PointG2Json) : Option (G2Affine A) := do
  let xIm ← A.fqFromStr self.x1
  let xRe ← A.fqFromStr self.x2
  let yIm ← A.fqFromStr self.y1
  let yRe ← A.fqFromStr self.y2
  G2Affine.new A ⟨xRe, xIm⟩ ⟨yRe, yIm⟩

def VerificationKeyJson.toVerificationKey (self : VerificationKeyJson) :
    Option (VerificationKey A) := do
  let alpha ← self.alpha.toG1Affine A
  let beta ← self.beta.toG2Affine A
  let gamma ← self.gamma.toG2Affine A
  let delta ← self.delta.toG2Affine A
  let ic ← self.ic.mapM fun point => point.toG1Affine A
  return ⟨alpha, beta, gamma, delta, ic⟩

end

variable {A : Ark}

/-! ## Bytes of points -/

/-- `serialize_uncompressed` writes the canonical number of the element, least significant byte
first. -/
def serializeUncompressed (f : Fq) : BytesN 32 :=
  ⟨(beBytes 32 f.val).reverse, by rw [List.length_reverse, length_beBytes]⟩

/-- The `fq_to_be_bytes` of the hashing utilities. -/
def hashedFqToBeBytes (f : Fq) : Bytes := (serializeUncompressed f).val.reverse

/-- The `fq_to_be_bytes` of `build.rs`. -/
def fqToBeBytes (f : Fq) : BytesN 32 := .ofNat 32 f.val

def serializeG1Point (p : G1Affine A) : BytesN 64 :=
  ⟨(fqToBeBytes p.x).val ++ (fqToBeBytes p.y).val, by simp [BytesN.length_eq]⟩

def serializeG2Point (p : G2Affine A) : BytesN 128 :=
  ⟨(fqToBeBytes p.x.c1).val ++ (fqToBeBytes p.x.c0).val ++ (fqToBeBytes p.y.c1).val ++
    (fqToBeBytes p.y.c0).val, by simp [BytesN.length_eq]⟩

/-! ## Digests -/

section
variable (sha256 : Bytes → BytesN 32)

def hashG1Point (p : G1Affine A) : BytesN 32 :=
  sha256 (hashedFqToBeBytes p.x ++ hashedFqToBeBytes p.y)

def hashG2Point (p : G2Affine A) : BytesN 32 :=
  sha256 (hashedFqToBeBytes p.x.c1 ++ hashedFqToBeBytes p.x.c0 ++ hashedFqToBeBytes p.y.c1 ++
    hashedFqToBeBytes p.y.c0)

def computeVkDigest (vk : VerificationKey A) : Option (BytesN 32) := do
  let icList ← taggedIter sha256 "risc0_groth16.VerifyingKey.IC" (vk.ic.map (hashG1Point sha256))
  taggedStruct sha256 "risc0_groth16.VerifyingKey"
    [hashG1Point sha256 vk.alpha, hashG2Point sha256 vk.beta, hashG2Point sha256 vk.gamma,
      hashG2Point sha256 vk.delta, icList]

def decodeDigest (s : String) : Option (BytesN 32) := (hexDecode (asBytes s)).bind (BytesN.ofBytes 32)

def reverseDigest (d : BytesN 32) : BytesN 32 :=
  ⟨d.val.reverse, by rw [List.length_reverse, d.length_eq]⟩

/-- `tag_struct` in `compute_selector`: the digest whose first four bytes are the selector. -/
def parametersDigest (controlRoot bn254ControlId : String) (vkDigest : BytesN 32) :
    Option (BytesN 32) := do
  let controlRoot ← decodeDigest controlRoot
  let bn254ControlId ← decodeDigest bn254ControlId
  taggedStruct sha256 "risc0.Groth16ReceiptVerifierParameters"
    [controlRoot, reverseDigest bn254ControlId, vkDigest]

def firstFour (d : BytesN 32) : BytesN 4 :=
  ⟨slice d.val 0 4, length_slice (by rw [d.length_eq]; decide)⟩

def computeSelector (controlRoot bn254ControlId : String) (vkDigest : BytesN 32) :
    Option (BytesN 4) :=
  (parametersDigest sha256 controlRoot bn254ControlId vkDigest).map firstFour

end

/-! ## The files -/

/-- The slices panic on fewer than 32 bytes. -/
def computeControlRoots (controlRoot : String) : Option (BytesN 16 × BytesN 16) := do
  let bytes := (← hexDecode (asBytes controlRoot)).reverse
  let controlRoot0 ← BytesN.ofBytes 16 (slice bytes 16 16)
  let controlRoot1 ← BytesN.ofBytes 16 (slice bytes 0 16)
  return (controlRoot0, controlRoot1)

/-- The key as `verification_key.rs` has it. -/
def verificationKeyBytes (vk : VerificationKey A) (h : vk.ic.length = icLen) :
    Verifier.VerificationKey where
  alpha := serializeG1Point vk.alpha
  beta := serializeG2Point vk.beta
  gamma := serializeG2Point vk.gamma
  delta := serializeG2Point vk.delta
  ic := vk.ic.map serializeG1Point
  length_ic := (List.length_map _).trans h

/-- The digest whose first bytes the build takes for the selector. -/
def VerifierParameters.digest (A : Ark) (sha256 : Bytes → BytesN 32) (params : VerifierParameters) :
    Option (BytesN 32) := do
  let vk ← params.verificationKey.toVerificationKey A
  let vkDigest ← computeVkDigest sha256 vk
  parametersDigest sha256 params.controlRoot params.bn254ControlId vkDigest

/-- What `main` writes: the values of the array literals, and the text of `version.rs`. -/
structure Generated where
  selector : BytesN 4
  versionCode : String
  controlRoot0 : BytesN 16
  controlRoot1 : BytesN 16
  bn254ControlId : BytesN 32
  verificationKey : Verifier.VerificationKey
deriving DecidableEq

/-- `format!("\"{}\"", s)`: nothing in the text is escaped. -/
def quoted (s : String) : String := "\"" ++ s ++ "\""

def main (A : Ark) (sha256 : Bytes → BytesN 32) (params : VerifierParameters) : Option Generated := do
  let vk ← params.verificationKey.toVerificationKey A
  if h : vk.ic.length = icLen then
    let vkDigest ← computeVkDigest sha256 vk
    let selector ← computeSelector sha256 params.controlRoot params.bn254ControlId vkDigest
    let (controlRoot0, controlRoot1) ← computeControlRoots params.controlRoot
    let bn254ControlId ← decodeDigest params.bn254ControlId
    return ⟨selector, quoted params.version, controlRoot0, controlRoot1, bn254ControlId,
      verificationKeyBytes vk h⟩
  else none

/-! ## The constants of the contract -/

/-- A printable ASCII character other than the quote and the backslash. -/
def plainChar (c : Char) : Bool := 32 ≤ c.toNat && c.toNat < 127 && c.toNat ≠ 34 && c.toNat ≠ 92

def plain (s : String) : Bool := s.toList.all plainChar

/-- What the constant `VERSION` is when the contract includes a text, if it compiles then. Between quotes
plain characters stand for themselves. -/
structure Compiler where
  strConst : String → Option String
  strConst_quoted : ∀ {s}, plain s = true → strConst (quoted s) = some s

def Generated.constants (g : Generated) (version : String) : Groth16Verifier :=
  ⟨g.selector, version, g.controlRoot0, g.controlRoot1, g.bn254ControlId, g.verificationKey⟩

/-- The contract that the build script and the compiler make from a file of parameters. -/
def contract (A : Ark) (R : Compiler) (sha256 : Bytes → BytesN 32) (params : VerifierParameters) :
    Option Groth16Verifier := do
  let g ← main A sha256 params
  let version ← R.strConst g.versionCode
  return g.constants version

end ZkUnderwrite.Verifier.Build
