import ZkUnderwrite.Lib.Files
import ZkUnderwrite.Lib.Hex
import ZkUnderwrite.Issuer.Statement

/-!
# The issuer's commands

`run_keygen` and `run_sign` with their files. Reading, writing and changing permissions may fail at
any file, and an error leaves the files as the steps before it left them.
-/

namespace ZkUnderwrite.Issuer
open ByteString Serde Transaction FileSystem

structure Path where
  dir : String
  name : String
deriving DecidableEq, Repr

def signingKeyFile : String := "issuer_signing.bin"
def pubkeyFile : String := "issuer_pubkey.bin"
def statementFile : String := "statement.json"
def signatureFile : String := "signature.bin"

def expectedMonths : Nat := 3

inductive IoError where
  | notFound
  | other (kind : String)
deriving DecidableEq, Repr

structure SerdeError where
  kind : String
deriving DecidableEq, Repr

inductive IssuerError where
  | readFile (path : Path) (source : IoError)
  | writeFile (path : Path) (source : IoError)
  | setPermissions (path : Path) (source : IoError)
  | invalidKeyLength (path : Path) (expected actual : Nat)
  | invalidMonthCount (expected actual : Nat)
  | invalidIncome (value : String) (source : ParseIntError)
  | serialize (source : SerdeError)
deriving DecidableEq, Repr

/-- The crates the library calls: `sha2`, `ed25519_dalek` and `serde_json`. -/
structure Crates where
  sha256 : Bytes → BytesN 32
  verifyingKey : BytesN 32 → BytesN 32
  sign : BytesN 32 → Bytes → BytesN 64
  toVec : Statement → Except SerdeError Bytes

/-- The system a command runs on: its files' faults, its clock in seconds since the epoch, and the
bytes that its random generator gives. -/
structure Os where
  disk : Disk Path IoError
  unix : Bool
  now : Int
  random : BytesN 32

abbrev Directory := Files Path Bytes

abbrev Command (α : Type) := Txn IssuerError Directory α

variable (C : Crates) (os : Os)

def readFile (path : Path) : Command Bytes :=
  Txn.mapError (.readFile path) (FileSystem.read os.disk path)

def writeFile (path : Path) (bytes : Bytes) : Command Unit :=
  Txn.mapError (.writeFile path) (FileSystem.write os.disk path bytes)

def restrictPermissions (path : Path) : Command Unit :=
  if os.unix then Txn.mapError (.setPermissions path) (FileSystem.setMode os.disk path 0o600)
  else pure ()

/-- A clock before the epoch counts as the epoch. -/
def currentUnixTime : UInt64 := UInt64.ofNat os.now.toNat

def parseIncome (s : String) : Except IssuerError UInt64 :=
  (parseU64 s).mapError (.invalidIncome s)

def parseIncomes (raw : List String) : Except IssuerError (List UInt64) :=
  if raw.length ≠ expectedMonths then .error (.invalidMonthCount expectedMonths raw.length)
  else raw.mapM parseIncome

def serializeStatement (st : Statement) : Except IssuerError Bytes :=
  (C.toVec st).mapError .serialize

structure KeygenReport where
  pubkeyHex : String
  pubkeyHashHex : String
deriving DecidableEq, Repr

structure SignReport where
  statementLen : Nat
deriving DecidableEq, Repr

def runKeygen (dir : String) : Command KeygenReport := do
  let sk := os.random
  let vk := C.verifyingKey sk
  let signingKeyPath : Path := ⟨dir, signingKeyFile⟩
  writeFile os signingKeyPath sk.val
  restrictPermissions os signingKeyPath
  let pubkeyPath : Path := ⟨dir, pubkeyFile⟩
  writeFile os pubkeyPath vk.val
  let hash := C.sha256 vk.val
  return ⟨hexText vk.val, hexText hash.val⟩

def signingKey (path : Path) (bytes : Bytes) : Except IssuerError (BytesN 32) :=
  match BytesN.ofBytes 32 bytes with
  | some sk => .ok sk
  | none => .error (.invalidKeyLength path 32 bytes.length)

def runSign (dir subjectId issuer : String) (incomesRaw : List String) (issuedAt : Option UInt64) :
    Command SignReport := do
  let incomes ← MonadExcept.ofExcept (parseIncomes incomesRaw)
  let issuedAt := issuedAt.getD (currentUnixTime os)
  let signingKeyPath : Path := ⟨dir, signingKeyFile⟩
  let skBytes ← readFile os signingKeyPath
  let sk ← MonadExcept.ofExcept (signingKey signingKeyPath skBytes)
  let statement := buildStatement subjectId issuer incomes issuedAt
  let bytes ← MonadExcept.ofExcept (serializeStatement C statement)
  let sig := C.sign sk bytes
  writeFile os ⟨dir, statementFile⟩ bytes
  writeFile os ⟨dir, signatureFile⟩ sig.val
  return ⟨bytes.length⟩

end ZkUnderwrite.Issuer
