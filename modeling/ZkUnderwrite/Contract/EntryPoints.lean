import ZkUnderwrite.Lib.Machine
import ZkUnderwrite.Contract.Journal

/-!
# The entry points

Each definition follows the function of the same name step by step, with its writes at the places
where the source makes them. `invoke` is a call from outside: the host undoes the writes of a call
that fails.
-/

namespace ZkUnderwrite.Contract
open ByteString Transaction

variable {τ : Type}

def assertInit : Host τ Unit := do
  if !(← instanceHas .admin) then panicWithError .notInitialized

def init (env : Env τ) (admin router : Address) (expectedImageId : BytesN 32) (usdc : Address)
    (requiredThreshold : UInt64) (creditAmount : Int) : Host τ Unit := do
  if ← instanceHas .admin then panicWithError .alreadyInitialized
  if creditAmount ≤ 0 then panicWithError .invalidCreditAmount
  if requiredThreshold = 0 then panicWithError .invalidThreshold
  if expectedImageId = BytesN.replicate 32 0 then panicWithError .invalidImageId
  env.requireAuth admin
  instanceSet .admin admin
  instanceSet .router router
  instanceSet .imageId expectedImageId
  instanceSet .usdc usdc
  instanceSet .requiredThreshold requiredThreshold
  instanceSet .creditAmount creditAmount

def registerIssuer (env : Env τ) (issuerPubkeyHash : BytesN 32) : Host τ Unit := do
  assertInit
  let admin : Address ← unwrapOrPanic (← instanceGet .admin) .notInitialized
  env.requireAuth admin
  persistentSet (.issuer issuerPubkeyHash) true
  publish ⟨"iss_reg", .bytesN issuerPubkeyHash, .address admin⟩

def unregisterIssuer (env : Env τ) (issuerHash : BytesN 32) : Host τ Unit := do
  assertInit
  let admin : Address ← unwrapOrPanic (← instanceGet .admin) .notInitialized
  env.requireAuth admin
  persistentRemove (.issuer issuerHash)
  publish ⟨"iss_unreg", .bytesN issuerHash, .address admin⟩

def proposeAdmin (env : Env τ) (newAdmin : Address) : Host τ Unit := do
  assertInit
  let admin : Address ← unwrapOrPanic (← instanceGet .admin) .notInitialized
  env.requireAuth admin
  instanceSet .pendingAdmin newAdmin
  publish ⟨"adm_prop", .address admin, .address newAdmin⟩

def acceptAdmin (env : Env τ) : Host τ Unit := do
  assertInit
  let pending : Address ← unwrapOrPanic (← instanceGet .pendingAdmin) .noPendingAdmin
  env.requireAuth pending
  let oldAdmin : Address ← unwrapOrPanic (← instanceGet .admin) .notInitialized
  instanceSet .admin pending
  instanceRemove .pendingAdmin
  publish ⟨"adm_acc", .address oldAdmin, .address pending⟩

def cancelAdminProposal (env : Env τ) : Host τ Unit := do
  assertInit
  let admin : Address ← unwrapOrPanic (← instanceGet .admin) .notInitialized
  env.requireAuth admin
  let pending : Address ← unwrapOrPanic (← instanceGet .pendingAdmin) .noPendingAdmin
  instanceRemove .pendingAdmin
  publish ⟨"adm_cncl", .address admin, .address pending⟩

def requestCredit (env : Env τ) (borrower : Address) (sealBytes journal : Bytes) :
    Host τ Int := do
  env.requireAuth borrower
  assertInit
  -- 1. Check the journal shape before spending a verifier call on it.
  if journal.length ≠ journalLen then panicWithError .badJournalLength
  -- 2. Verify the proof against the stored image id.
  let imageId : BytesN 32 ← unwrapOrPanic (← instanceGet .imageId) .notInitialized
  let router : Address ← unwrapOrPanic (← instanceGet .router) .notInitialized
  let journalDigest := env.sha256 journal
  env.routerVerify router sealBytes imageId journalDigest
  -- 3. Parse the proven journal bytes.
  let issuerHash ← MonadExcept.ofExcept (readBytes32 journal offIssuerHash)
  let threshold ← MonadExcept.ofExcept (readU64Be journal offThreshold)
  let meets ← unwrapOrPanic journal[offMeets.toNat]? .badJournal
  let nullifier ← MonadExcept.ofExcept (readBytes32 journal offNullifier)
  let _period ← MonadExcept.ofExcept (readU64Be journal offPeriod)
  -- 4. Policy checks.
  if !(← persistentHas (.issuer issuerHash)) then panicWithError .issuerNotRegistered
  let required : UInt64 ← unwrapOrPanic (← instanceGet .requiredThreshold) .notInitialized
  if threshold < required then panicWithError .thresholdTooLow
  if meets ≠ 1 then panicWithError .incomeBelowThreshold
  if ← persistentHas (.nullifier nullifier) then panicWithError .nullifierAlreadyUsed
  persistentSet (.nullifier nullifier) true
  -- 5. Disburse the credit line from the contract's treasury.
  let amount : Int ← unwrapOrPanic (← instanceGet .creditAmount) .notInitialized
  let usdc : Address ← unwrapOrPanic (← instanceGet .usdc) .notInitialized
  env.tokenTransfer usdc env.currentContractAddress borrower amount
  persistentSet (.creditLine borrower) amount
  publish ⟨"credit", .address borrower, .i128 amount⟩
  return amount

def creditLine (borrower : Address) : Host τ Int := do
  let amount : Option Int ← persistentGet (.creditLine borrower)
  return amount.getD 0

/-! ## Calls from outside -/

inductive Call where
  | init (admin router : Address) (expectedImageId : BytesN 32) (usdc : Address)
      (requiredThreshold : UInt64) (creditAmount : Int)
  | registerIssuer (issuerPubkeyHash : BytesN 32)
  | unregisterIssuer (issuerHash : BytesN 32)
  | proposeAdmin (newAdmin : Address)
  | acceptAdmin
  | cancelAdminProposal
  | requestCredit (borrower : Address) (sealBytes journal : Bytes)
  | creditLine (borrower : Address)
deriving DecidableEq

inductive Ret where
  | unit
  | amount (n : Int)
deriving DecidableEq

def perform (env : Env τ) : Call → Host τ Ret
  | .init a r im u t c => do init env a r im u t c; return .unit
  | .registerIssuer h => do registerIssuer env h; return .unit
  | .unregisterIssuer h => do unregisterIssuer env h; return .unit
  | .proposeAdmin a => do proposeAdmin env a; return .unit
  | .acceptAdmin => do acceptAdmin env; return .unit
  | .cancelAdminProposal => do cancelAdminProposal env; return .unit
  | .requestCredit b s j => return .amount (← requestCredit env b s j)
  | .creditLine b => return .amount (← creditLine b)

/-- One call: who authorised it, which proofs a router accepts during it, and what is called. -/
structure Invocation where
  authorized : Address → Bool
  verify : Address → Bytes → BytesN 32 → BytesN 32 → Bool
  call : Call

def Invocation.env (P : Platform τ) (i : Invocation) : Env τ :=
  { P with authorized := i.authorized, verify := i.verify }

def invoke (P : Platform τ) (i : Invocation) (w : World τ) : Except Fault Ret × World τ :=
  atomically (perform (i.env P) i.call) w

/-! ## Runs -/

/-- A call of the contract, or any activity of the token contracts outside it. -/
inductive Input (τ : Type) where
  | call (i : Invocation)
  | token (t : τ)

def step (P : Platform τ) (w : World τ) : Input τ → Option (Except Fault Ret) × World τ
  | .call i => (some (invoke P i w).1, (invoke P i w).2)
  | .token t => (none, w.setToken t)

def World.empty (t : τ) : World τ := ⟨Storage.empty, t, [], []⟩

def Reachable (P : Platform τ) (w : World τ) : Prop :=
  ∃ t, Machine.Reachable (step P) (World.empty t) w

end ZkUnderwrite.Contract
