import ZkUnderwrite.Verifier.Router

/-!
# The emergency stop

A wrapper around one verifier that can be paused and never resumed: by its owner, or by anyone who has
a proof of the zero claim that the verifier accepts.
-/

namespace ZkUnderwrite.Verifier
open ByteString Transaction Contract

structure EmergencyStop (O : Type) where
  ownable : O
  verifier : Option Address
  paused : Bool

namespace EmergencyStop
variable {O : Type} (L : Library O) (env : Env)

def setOwnable (o : O) (e : EmergencyStop O) : EmergencyStop O := { e with ownable := o }

def setPaused (b : Bool) (e : EmergencyStop O) : EmergencyStop O := { e with paused := b }

def constructor (verifier owner : Address) : EmergencyStop O :=
  ⟨L.setOwner owner, some verifier, false⟩

def getVerifier (e : EmergencyStop O) : Except Fault Address :=
  match e.verifier with
  | some verifier => .ok verifier
  | none => .error (.emergencyStop .verifierNotSet)

def whenNotPaused (e : EmergencyStop O) : Except Fault Unit :=
  if e.paused then .error .enforcedPause else .ok ()

/-- `verify` and `verify_integrity` pass a query on to the wrapped verifier. -/
def forward (client : Client) (e : EmergencyStop O) (q : Query) : Except Fault Unit := do
  e.whenNotPaused
  let verifier ← e.getVerifier
  client verifier q

def verify (client : Client) (e : EmergencyStop O) (sealBytes : Bytes) (imageId journal : BytesN 32) :
    Except Fault Unit :=
  forward client e (.verify sealBytes imageId journal)

def verifyIntegrity (client : Client) (e : EmergencyStop O) (receipt : Receipt) : Except Fault Unit :=
  forward client e (.verifyIntegrity receipt)

/-- `pausable::pause`. -/
def libraryPause : Host (EmergencyStop O) Unit := do
  match L.pause (← get).paused with
  | some b => modify (setPaused b)
  | none => throw .enforcedPause

def estop : Host (EmergencyStop O) Unit := do
  let _ ← env.enforceOwnerAuth (L.getOwner (← get).ownable)
  libraryPause L

def estopWithReceipt (receipt : Receipt) : Host (EmergencyStop O) Unit := do
  MonadExcept.ofExcept (← get).whenNotPaused
  if receipt.claimDigest ≠ zeroDigest then throw (.emergencyStop .invalidProofOfExploit)
  -- A receipt that the verifier rejects ends the call with the verifier's error.
  MonadExcept.ofExcept (verifyIntegrity env.client (← get) receipt)
  libraryPause L

def pause (caller : Address) : Host (EmergencyStop O) Unit := do
  let owner ← env.enforceOwnerAuth (L.getOwner (← get).ownable)
  if owner ≠ caller then throw (.emergencyStop .unauthorized)
  libraryPause L

def unpause (_caller : Address) : Host (EmergencyStop O) Unit :=
  throw (.emergencyStop .unpauseNotAllowed)

inductive Call where
  | getVerifier
  | estop
  | estopWithReceipt (receipt : Receipt)
  | verify (sealBytes : Bytes) (imageId journal : BytesN 32)
  | verifyIntegrity (receipt : Receipt)
  | paused
  | pause (caller : Address)
  | unpause (caller : Address)
  | getOwner
  | ownable (c : OwnableCall)
deriving DecidableEq

def perform : Call → Host (EmergencyStop O) Ret
  | .getVerifier => do return .address (← MonadExcept.ofExcept (← get).getVerifier)
  | .estop => do estop L env; return .unit
  | .estopWithReceipt r => do estopWithReceipt L env r; return .unit
  | .verify s i j => do MonadExcept.ofExcept (verify env.client (← get) s i j); return .unit
  | .verifyIntegrity r => do MonadExcept.ofExcept (verifyIntegrity env.client (← get) r); return .unit
  | .paused => do return .bool (← get).paused
  | .pause c => do pause L env c; return .unit
  | .unpause c => do unpause c; return .unit
  | .getOwner => do return .owner (L.getOwner (← get).ownable)
  | .ownable c => do env.ownableCall L.toOwnable c EmergencyStop.ownable setOwnable; return .unit

end EmergencyStop

end ZkUnderwrite.Verifier
