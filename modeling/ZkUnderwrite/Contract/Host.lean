import ZkUnderwrite.Lib.Transaction
import ZkUnderwrite.Contract.Storage

/-!
# The host

What the contract asks of the Soroban host: authorisation, storage, events, the SHA-256 function,
and calls to the verifier router and to the token contract. The router and the token are not part
of the contract: a call's router verdicts are arbitrary, and the token contracts are a state `τ`
with an arbitrary `transfer`.
-/

namespace ZkUnderwrite.Contract
open ByteString Transaction

inductive Fault where
  | contract (e : Error)
  | unauthorized (a : Address)
  | verifier
  | transfer
  /-- An integer overflow, which the release profile turns into a panic. -/
  | overflow
deriving DecidableEq, Repr

inductive Val where
  | address (a : Address)
  | bytesN (b : BytesN 32)
  | i128 (n : Int)
deriving DecidableEq

/-- An event with the topics `(symbol, topic)`. -/
structure Event where
  symbol : String
  topic : Val
  data : Val
deriving DecidableEq

structure RouterCall where
  router : Address
  sealBytes : Bytes
  imageId : BytesN 32
  journalDigest : BytesN 32
deriving DecidableEq

/-- What a call can change: the contract's storage, the state of the token contracts, the events
published and the router calls made. -/
structure World (τ : Type) where
  storage : Storage
  token : τ
  events : List Event
  routerCalls : List RouterCall

namespace World
variable {τ : Type}

def setInstance (w : World τ) (k : DataKey) (v : k.Value) : World τ :=
  { w with storage := { w.storage with inst := w.storage.inst.set k v } }

def removeInstance (w : World τ) (k : DataKey) : World τ :=
  { w with storage := { w.storage with inst := w.storage.inst.remove k } }

def setPersistent (w : World τ) (k : DataKey) (v : k.Value) : World τ :=
  { w with storage := { w.storage with pers := w.storage.pers.set k v } }

def removePersistent (w : World τ) (k : DataKey) : World τ :=
  { w with storage := { w.storage with pers := w.storage.pers.remove k } }

def setToken (w : World τ) (t : τ) : World τ := { w with token := t }

def publish (w : World τ) (e : Event) : World τ := { w with events := w.events ++ [e] }

def logRouterCall (w : World τ) (c : RouterCall) : World τ :=
  { w with routerCalls := w.routerCalls ++ [c] }

end World

/-- What is the same in every call: the contract's own address, SHA-256 and the token contracts.
`balance u t a` is what `a` holds of the token `u`. -/
structure Platform (τ : Type) where
  currentContractAddress : Address
  sha256 : Bytes → BytesN 32
  balance : Address → τ → Address → Int
  transfer : Address → τ → Address → Address → Int → Option τ

/-- The environment of one call: who authorised it and which proofs a router accepts during it. -/
structure Env (τ : Type) extends Platform τ where
  authorized : Address → Bool
  verify : Address → Bytes → BytesN 32 → BytesN 32 → Bool

abbrev Host (τ α : Type) := Txn Fault (World τ) α

section
variable {τ α : Type}

def panicWithError (e : Error) : Host τ α := throw (.contract e)

def instanceHas (k : DataKey) : Host τ Bool := do return (← get).storage.inst.has k

def instanceGet (k : DataKey) : Host τ (Option k.Value) := do return (← get).storage.inst k

def instanceSet (k : DataKey) (v : k.Value) : Host τ Unit := modify (·.setInstance k v)

def instanceRemove (k : DataKey) : Host τ Unit := modify (·.removeInstance k)

def persistentHas (k : DataKey) : Host τ Bool := do return (← get).storage.pers.has k

def persistentGet (k : DataKey) : Host τ (Option k.Value) := do return (← get).storage.pers k

def persistentSet (k : DataKey) (v : k.Value) : Host τ Unit := modify (·.setPersistent k v)

def persistentRemove (k : DataKey) : Host τ Unit := modify (·.removePersistent k)

/-- `unwrap_or_else(|| panic_with_error!(env, e))`. -/
def unwrapOrPanic (o : Option α) (e : Error) : Host τ α :=
  match o with
  | some a => pure a
  | none => panicWithError e

def publish (e : Event) : Host τ Unit := modify (·.publish e)

def Env.requireAuth (env : Env τ) (a : Address) : Host τ Unit :=
  if env.authorized a then pure () else throw (.unauthorized a)

def Env.routerVerify (env : Env τ) (router : Address) (sealBytes : Bytes)
    (imageId journalDigest : BytesN 32) : Host τ Unit := do
  modify (·.logRouterCall ⟨router, sealBytes, imageId, journalDigest⟩)
  if env.verify router sealBytes imageId journalDigest then pure () else throw .verifier

def Env.tokenTransfer (env : Env τ) (usdc sender receiver : Address) (amount : Int) :
    Host τ Unit := do
  match env.transfer usdc (← get).token sender receiver amount with
  | some t => modify (·.setToken t)
  | none => throw .transfer

end

end ZkUnderwrite.Contract
