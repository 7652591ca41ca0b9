import ZkUnderwrite.Lib.Transaction
import ZkUnderwrite.Verifier.Receipt

/-!
# What the verifier contracts ask for

The host and the libraries under the verifier contracts: authorisation, calls to another verifier, and
the ownership and pause modules. The libraries are not part of the repository: each is a structure of
functions with the documented facts about them that the contracts rely on.
-/

namespace ZkUnderwrite.Verifier
open ByteString Transaction Contract

inductive EmergencyStopError where
  | unauthorized
  | verifierNotSet
  | invalidProofOfExploit
  | unpauseNotAllowed
deriving DecidableEq, Repr

inductive Fault where
  | error (e : VerifierError)
  | emergencyStop (e : EmergencyStopError)
  | enforcedPause
  | unauthorized (a : Address)
  | ownerNotSet
  /-- An error of the ownership library or a failing host function. -/
  | trap
  /-- The address holds no contract, or none with this function. -/
  | missing
  | reentry
  | depth
deriving DecidableEq, Repr

/-- The two entry points of `RiscZeroVerifierInterface` with their arguments. -/
inductive Query where
  | verify (sealBytes : Bytes) (imageId journal : BytesN 32)
  | verifyIntegrity (receipt : Receipt)
deriving DecidableEq

namespace Query

def sealBytes : Query → Bytes
  | .verify s _ _ => s
  | .verifyIntegrity r => r.sealBytes

/-- The digest whose proof the query asks for. -/
def claimDigest (sha256 : Bytes → BytesN 32) : Query → BytesN 32
  | .verify _ imageId journal => Verifier.claimDigest sha256 imageId journal
  | .verifyIntegrity r => r.claimDigest

end Query

/-- `RiscZeroVerifierClient`: what a call of the verifier at an address leads to. An error of the callee
is an error of the caller. -/
abbrev Client := Address → Query → Except Fault Unit

/-! ## The libraries -/

inductive OwnableCall where
  | transferOwnership (newOwner : Address) (liveUntilLedger : UInt32)
  | acceptOwnership
  | renounceOwnership
deriving DecidableEq

/-- `stellar_access::ownable` over a state `O`. A call that the library admits in a ledger asks for the
authorisation of one address and then leads to a new state. -/
structure Ownable (O : Type) where
  setOwner : Address → O
  getOwner : O → Option Address
  call : OwnableCall → UInt32 → O → Option (Address × O)

/-- `stellar_contract_utils::pausable`. Pausing what is paused fails or changes nothing. -/
structure Pausable where
  pause : Bool → Option Bool
  pause_false : pause false = some true
  pause_true : ∀ {b}, pause true = some b → b = true

structure Library (O : Type) extends Ownable O, Pausable

/-! ## Authorisation -/

/-- One call of a contract: which addresses authorise it, the ledger it runs in, and the verifiers it
can call. -/
structure Env where
  authorized : Address → Bool
  ledger : UInt32
  client : Client

abbrev Host (σ α : Type) := Txn Fault σ α

section
variable {σ α : Type}

def Env.requireAuth (env : Env) (a : Address) : Host σ Unit :=
  if env.authorized a then pure () else throw (.unauthorized a)

/-- `enforce_owner_auth`, which `only_owner` puts before a function. -/
def Env.enforceOwnerAuth (env : Env) (owner : Option Address) : Host σ Address :=
  match owner with
  | some a => do env.requireAuth a; return a
  | none => throw .ownerNotSet

/-- A function of the ownership library on the part `get` of the contract's storage. -/
def Env.ownableCall {O : Type} (env : Env) (L : Ownable O) (c : OwnableCall) (get : σ → O)
    (set : O → σ → σ) : Host σ Unit := do
  match L.call c env.ledger (get (← MonadState.get)) with
  | some (a, o) => do env.requireAuth a; modify (set o)
  | none => throw .trap

end

end ZkUnderwrite.Verifier
