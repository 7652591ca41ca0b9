import ZkUnderwrite.Contract.Storage
import ZkUnderwrite.Lib.BigEndian
import ZkUnderwrite.Lib.Digest

/-!
# Receipts

The types that the verifier contracts exchange, and the digests that a claim and its output have. The
host's SHA-256 is a parameter.
-/

namespace ZkUnderwrite.Verifier
open ByteString Contract

inductive VerifierError where
  | invalidProof
  | malformedPublicInputs
  | malformedSeal
  | invalidSelector
  | alreadyInitialized
  | selectorRemoved
  | selectorInUse
  | selectorUnknown
deriving DecidableEq, Repr

structure Receipt where
  sealBytes : Bytes
  claimDigest : BytesN 32
deriving DecidableEq

inductive SystemExitCode where
  | halted
  | paused
  | systemSplit
deriving DecidableEq, Repr

/-- `as u8`. -/
def SystemExitCode.toByte : SystemExitCode → UInt8
  | .halted => 0
  | .paused => 1
  | .systemSplit => 2

structure ExitCode where
  system : SystemExitCode
  user : BytesN 8
deriving DecidableEq

structure Output where
  journalDigest : BytesN 32
  assumptionsDigest : BytesN 32
deriving DecidableEq

structure ReceiptClaim where
  preStateDigest : BytesN 32
  postStateDigest : BytesN 32
  exitCode : ExitCode
  input : BytesN 32
  output : BytesN 32
deriving DecidableEq

inductive VerifierEntry where
  | active (verifier : Address)
  | tombstone
deriving DecidableEq

def zeroDigest : BytesN 32 := BytesN.replicate 32 0

/-! ## Digests -/

namespace Output

def tagDigest : BytesN 32 :=
  ⟨[0x77, 0xea, 0xfe, 0xb3, 0x66, 0xa7, 0x8b, 0x47, 0x74, 0x7d, 0xe0, 0xd7, 0xbb, 0x17, 0x62, 0x84,
    0x08, 0x5f, 0xf5, 0x56, 0x48, 0x87, 0x00, 0x9a, 0x5b, 0xe6, 0x3d, 0xa3, 0x2d, 0x35, 0x59, 0xd4],
    rfl⟩

/-- The bytes that `digest` hashes. -/
def preimage (o : Output) : Bytes :=
  tagDigest.val ++ o.journalDigest.val ++ o.assumptionsDigest.val ++ [0x02, 0x00]

def digest (sha256 : Bytes → BytesN 32) (o : Output) : BytesN 32 := sha256 o.preimage

end Output

namespace ReceiptClaim

def postStateDigestHalted : BytesN 32 :=
  ⟨[0xa3, 0xac, 0xc2, 0x71, 0x17, 0x41, 0x89, 0x96, 0x34, 0x0b, 0x84, 0xe5, 0xa9, 0x0f, 0x3e, 0xf4,
    0xc4, 0x9d, 0x22, 0xc7, 0x9e, 0x44, 0xaa, 0xd8, 0x22, 0xec, 0x9c, 0x31, 0x3e, 0x1e, 0xb8, 0xe2],
    rfl⟩

def tagDigest : BytesN 32 :=
  ⟨[0xcb, 0x1f, 0xef, 0xcd, 0x1f, 0x2d, 0x9a, 0x64, 0x97, 0x5c, 0xbb, 0xbf, 0x6e, 0x16, 0x1e, 0x29,
    0x14, 0x43, 0x4b, 0x0c, 0xbb, 0x99, 0x60, 0xb8, 0x4d, 0xf5, 0xd7, 0x17, 0xe8, 0x6b, 0x48, 0xaf],
    rfl⟩

def new (sha256 : Bytes → BytesN 32) (imageId journalDigest : BytesN 32) : ReceiptClaim where
  preStateDigest := imageId
  postStateDigest := postStateDigestHalted
  exitCode := ⟨.halted, BytesN.replicate 8 0⟩
  input := zeroDigest
  output := Output.digest sha256 ⟨journalDigest, zeroDigest⟩

/-- The bytes that `digest` hashes. Of the user exit code only the byte at index 3 is among them. -/
def preimage (c : ReceiptClaim) : Bytes :=
  tagDigest.val ++ c.input.val ++ c.preStateDigest.val ++ c.postStateDigest.val ++ c.output.val ++
    [c.exitCode.system.toByte, 0, 0, 0] ++ [c.exitCode.user.val.getD 3 0, 0, 0, 0] ++ [0x04, 0x00]

def digest (sha256 : Bytes → BytesN 32) (c : ReceiptClaim) : BytesN 32 := sha256 c.preimage

end ReceiptClaim

/-- What `verify` proves of a receipt: `ReceiptClaim::new(image_id, journal).digest()`. -/
def claimDigest (sha256 : Bytes → BytesN 32) (imageId journalDigest : BytesN 32) : BytesN 32 :=
  (ReceiptClaim.new sha256 imageId journalDigest).digest sha256

/-! ## The hashing of the build scripts -/

/-- `tagged_struct`; `none` is the panic on more than 65535 fields. -/
def taggedStruct (sha256 : Bytes → BytesN 32) (tag : String) (down : List (BytesN 32)) :
    Option (BytesN 32) :=
  if down.length < 2 ^ 16 then
    some (sha256 ((sha256 (asBytes tag)).val ++ blocks down ++ (beBytes 2 down.length).reverse))
  else none

def taggedListCons (sha256 : Bytes → BytesN 32) (tag : String) (head tail : BytesN 32) :
    Option (BytesN 32) :=
  taggedStruct sha256 tag [head, tail]

def taggedIter (sha256 : Bytes → BytesN 32) (tag : String) (iter : List (BytesN 32)) :
    Option (BytesN 32) :=
  iter.foldr (fun elem listDigest => listDigest.bind (taggedListCons sha256 tag elem))
    (some zeroDigest)

end ZkUnderwrite.Verifier
