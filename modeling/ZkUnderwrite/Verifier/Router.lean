import ZkUnderwrite.Verifier.Host

/-!
# The verifier router

A mapping from selectors to verifiers that its owner extends and shrinks. A selector that was removed
stays a tombstone.
-/

namespace ZkUnderwrite.Verifier
open ByteString Transaction Contract

/-- What the entry points of the router and of the emergency stop return. -/
inductive Ret where
  | unit
  | address (a : Address)
  | entry (e : Option VerifierEntry)
  | owner (a : Option Address)
  | bool (b : Bool)
deriving DecidableEq

structure Router (O : Type) where
  ownable : O
  /-- The persistent entries under `DataKey::Verifier(selector)`. -/
  verifiers : BytesN 4 → Option VerifierEntry

namespace Router
variable {O : Type} (L : Library O) (env : Env)

def setOwnable (o : O) (r : Router O) : Router O := { r with ownable := o }

def setEntry (selector : BytesN 4) (e : VerifierEntry) (r : Router O) : Router O :=
  { r with verifiers := Function.update r.verifiers selector (some e) }

def constructor (owner : Address) : Router O := ⟨L.setOwner owner, fun _ => none⟩

def onlyOwner : Host (Router O) Unit := do
  let _ ← env.enforceOwnerAuth (L.getOwner (← get).ownable)

def addVerifier (selector : BytesN 4) (verifier : Address) : Host (Router O) Unit := do
  onlyOwner L env
  match (← get).verifiers selector with
  | some .tombstone => throw (.error .selectorRemoved)
  | some (.active _) => throw (.error .selectorInUse)
  | none => modify (setEntry selector (.active verifier))

def removeVerifier (selector : BytesN 4) : Host (Router O) Unit := do
  onlyOwner L env
  match (← get).verifiers selector with
  | none => throw (.error .selectorUnknown)
  | some _ => modify (setEntry selector .tombstone)

def getVerifier (r : Router O) (selector : BytesN 4) : Except VerifierError Address :=
  match r.verifiers selector with
  | some .tombstone => .error .selectorRemoved
  | some (.active address) => .ok address
  | none => .error .selectorUnknown

def selectorFromSeal (sealBytes : Bytes) : Except VerifierError (BytesN 4) :=
  if h : sealBytes.length < 4 then .error .malformedSeal
  else .ok ⟨slice sealBytes 0 4, length_slice (by omega)⟩

def getVerifierFromSeal (r : Router O) (sealBytes : Bytes) : Except VerifierError Address := do
  r.getVerifier (← selectorFromSeal sealBytes)

/-- `verify` and `verify_integrity` pass a query on to the verifier that its seal selects. -/
def forward (client : Client) (r : Router O) (q : Query) : Except Fault Unit := do
  let verifier ← (r.getVerifierFromSeal q.sealBytes).mapError .error
  client verifier q

def verify (client : Client) (r : Router O) (sealBytes : Bytes) (imageId journal : BytesN 32) :
    Except Fault Unit :=
  forward client r (.verify sealBytes imageId journal)

def verifyIntegrity (client : Client) (r : Router O) (receipt : Receipt) : Except Fault Unit :=
  forward client r (.verifyIntegrity receipt)

inductive Call where
  | addVerifier (selector : BytesN 4) (verifier : Address)
  | removeVerifier (selector : BytesN 4)
  | getVerifierBySelector (selector : BytesN 4)
  | verifiers (selector : BytesN 4)
  | getVerifierFromSeal (sealBytes : Bytes)
  | verify (sealBytes : Bytes) (imageId journal : BytesN 32)
  | verifyIntegrity (receipt : Receipt)
  | getOwner
  | ownable (c : OwnableCall)
deriving DecidableEq

def perform : Call → Host (Router O) Ret
  | .addVerifier s v => do addVerifier L env s v; return .unit
  | .removeVerifier s => do removeVerifier L env s; return .unit
  | .getVerifierBySelector s => do
      return .address (← MonadExcept.ofExcept (((← get).getVerifier s).mapError Fault.error))
  | .verifiers s => do return .entry ((← get).verifiers s)
  | .getVerifierFromSeal b => do
      return .address (← MonadExcept.ofExcept (((← get).getVerifierFromSeal b).mapError Fault.error))
  | .verify s i j => do MonadExcept.ofExcept (verify env.client (← get) s i j); return .unit
  | .verifyIntegrity r => do MonadExcept.ofExcept (verifyIntegrity env.client (← get) r); return .unit
  | .getOwner => do return .owner (L.getOwner (← get).ownable)
  | .ownable c => do env.ownableCall L.toOwnable c Router.ownable setOwnable; return .unit

end Router

end ZkUnderwrite.Verifier
