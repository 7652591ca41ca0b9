import ZkUnderwrite.Contract.Storage
import ZkUnderwrite.Lib.Transaction

/-!
# What the timelock controller asks for

The controller's storage, and the host and libraries under it: the ledger's time, authorisation, calls
of other contracts, the access-control library and the primitives of the governance library. The
libraries are not part of the repository; what the controller relies on is stated with them. `V` is the
host's type of values, `A` the state of the access-control library and `ω` that of all other contracts.
-/

namespace ZkUnderwrite.Timelock
open ByteString Transaction Contract

structure Symbol where
  name : String
deriving DecidableEq, Repr

def proposerRole : Symbol := ⟨"proposer"⟩
def executorRole : Symbol := ⟨"executor"⟩
def cancellerRole : Symbol := ⟨"canceller"⟩
def bootstrapAdminRole : Symbol := ⟨"bootstrap"⟩

def zeroBytes32 : BytesN 32 := BytesN.replicate 32 0

structure Operation (V : Type) where
  target : Address
  function : Symbol
  args : List V
  predecessor : BytesN 32
  salt : BytesN 32
deriving DecidableEq

structure OperationMeta where
  predecessor : BytesN 32
  salt : BytesN 32
  executor : Option Address
deriving DecidableEq

inductive OperationState where
  | unset
  | waiting
  | ready
  | done
deriving DecidableEq, Repr

inductive TimelockError where
  | operationAlreadyScheduled
  | insufficientDelay
  | invalidOperationState
  | unexecutedPredecessor
  | unauthorized
  | minDelayNotSet
deriving DecidableEq, Repr

inductive Fault where
  | timelock (e : TimelockError)
  | batchLengthMismatch
  /-- `executor must be present when executors are configured`. -/
  | missingExecutor
  | missingRole (role : Symbol) (a : Address)
  | adminNotSet
  /-- An error of the access-control library. -/
  | accessControl
  | unauthorized (a : Address)
  /-- A call of a contract that is already running. -/
  | reentry
  /-- An error of the contract called. -/
  | callee
  /-- An integer overflow, which the release profile turns into a panic. -/
  | overflow
deriving DecidableEq, Repr

inductive Event (V : Type) where
  | callSalt (id salt : BytesN 32)
  | batchCallScheduled (id : BytesN 32) (index : Nat) (target : Address) (function : Symbol)
      (args : List V) (predecessor salt : BytesN 32) (delay : UInt32)
  | batchCallExecuted (id : BytesN 32) (index : Nat) (target : Address) (function : Symbol)
      (args : List V) (predecessor salt : BytesN 32)

/-- The controller's storage, the other contracts and the events published. `timestamps` holds the
entries under `TimelockStorageKey::Timestamp(id)`. -/
structure World (V A ω : Type) where
  timestamps : BytesN 32 → Option UInt64
  minDelay : Option UInt32
  access : A
  outer : ω
  events : List (Event V)

namespace World
variable {V A ω : Type}

def setTimestamp (w : World V A ω) (id : BytesN 32) (t : UInt64) : World V A ω :=
  { w with timestamps := Function.update w.timestamps id (some t) }

def removeTimestamp (w : World V A ω) (id : BytesN 32) : World V A ω :=
  { w with timestamps := Function.update w.timestamps id none }

def setMinDelay (w : World V A ω) (d : UInt32) : World V A ω := { w with minDelay := some d }

def setAccess (w : World V A ω) (a : A) : World V A ω := { w with access := a }

def setOuter (w : World V A ω) (o : ω) : World V A ω := { w with outer := o }

def publish (w : World V A ω) (e : Event V) : World V A ω := { w with events := w.events ++ [e] }

end World

/-- `stellar_access::access_control` over a state `A`. `manage` is the trait that the controller exposes:
a function that the library admits asks for the authorisation of one address and leads to a new state. -/
structure AccessControl (V A : Type) where
  empty : A
  getAdmin : A → Option Address
  hasRole : A → Symbol → Address → Bool
  memberCount : A → Symbol → Nat
  setAdmin : Address → A → A
  setRoleAdminNoAuth : Symbol → Symbol → A → A
  grantRoleNoAuth : Address → Symbol → A → A
  manage : Symbol → List V → UInt32 → A → Option (Address × A)
  hasRole_empty : ∀ r a, hasRole empty r a = false
  getAdmin_setAdmin : ∀ a s, getAdmin (setAdmin a s) = some a
  hasRole_setAdmin : ∀ b s r a, hasRole (setAdmin b s) r a = hasRole s r a
  getAdmin_setRoleAdminNoAuth : ∀ r r' s, getAdmin (setRoleAdminNoAuth r r' s) = getAdmin s
  hasRole_setRoleAdminNoAuth : ∀ q q' s r a, hasRole (setRoleAdminNoAuth q q' s) r a = hasRole s r a
  getAdmin_grantRoleNoAuth : ∀ a r s, getAdmin (grantRoleNoAuth a r s) = getAdmin s
  hasRole_grantRoleNoAuth : ∀ b q s r a,
    hasRole (grantRoleNoAuth b q s) r a = (decide (a = b ∧ r = q) || hasRole s r a)
  memberCount_eq_zero : ∀ s r, memberCount s r = 0 ↔ ∀ a, hasRole s r a = false

/-- The host and the primitives of `stellar_governance::timelock`. An entry other than
`DONE_TIMESTAMP` is the time from which its operation is ready. -/
structure Base (V A : Type) where
  currentContractAddress : Address
  keccak256 : Bytes → BytesN 32
  targetsToXdr : List Address → Bytes
  functionsToXdr : List Symbol → Bytes
  argsListToXdr : List (List V) → Bytes
  access : AccessControl V A
  doneTimestamp : UInt64
  getOperationState : Option UInt64 → UInt64 → OperationState
  state_none : ∀ now, getOperationState none now = .unset
  state_done : ∀ now, getOperationState (some doneTimestamp) now = .done
  state_pending : ∀ {t}, doneTimestamp < t → ∀ now,
    getOperationState (some t) now = if now < t then .waiting else .ready

abbrev Host (V A ω α : Type) := Txn Fault (World V A ω) α

inductive AuthContext (V : Type) where
  | contract (contract : Address) (fnName : Symbol) (args : List V)
  | other
deriving DecidableEq

/-- The arguments that an executor authorises in `__check_auth`. -/
structure ExecuteIntent (V : Type) where
  contract : Address
  fnName : Symbol
  args : List V
  predecessor : BytesN 32
  salt : BytesN 32

/-- What is given with one call: the ledger's close time, in seconds since the Unix epoch and so past the
marker of a done operation, who authorises the call, the contexts with the signature that an
authorisation entry for the controller itself carries, and what a call of another contract returns and
leaves behind. -/
structure Env {V A : Type} (B : Base V A) (ω : Type) where
  timestamp : UInt64
  live : B.doneTimestamp < timestamp
  ledger : UInt32
  authorized : Address → Bool
  authorizedForArgs : Address → ExecuteIntent V → Bool
  selfAuth : Option (List (AuthContext V) × List OperationMeta)
  invoke : Address → Symbol → List V → ω → Option (V × ω)

end ZkUnderwrite.Timelock
