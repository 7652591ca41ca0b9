import ZkUnderwrite.Lib.Machine
import ZkUnderwrite.Verifier.EmergencyStop
import ZkUnderwrite.Verifier.Groth16
import ZkUnderwrite.Verifier.Mock

/-!
# The verifier contracts at their addresses

A network holds one contract at an address. A query goes from contract to contract until a verifier
answers it; the host refuses a call of a contract that is already running and a call that is too deep.
Anyone may deploy a contract at a free address and call any contract.
-/

namespace ZkUnderwrite.Verifier
open ByteString Transaction Contract

inductive Instance (O : Type) where
  | router (r : Router O)
  | emergencyStop (e : EmergencyStop O)
  | groth16 (v : Groth16Verifier)
  | mock (m : MockVerifier)

abbrev Net (O : Type) := Address → Option (Instance O)

/-- The host and the libraries under all contracts of the network. -/
structure Chain (O : Type) where
  library : Library O
  sha256 : Bytes → BytesN 32
  keccak256 : Bytes → BytesN 32
  bn254 : Bn254
  depthLimit : Nat

inductive Creation where
  | router (owner : Address)
  | emergencyStop (verifier owner : Address)
  | groth16 (v : Groth16Verifier)
  | mock (selector : BytesN 4)

inductive Call where
  | router (c : Router.Call)
  | emergencyStop (c : EmergencyStop.Call)
deriving DecidableEq

/-- What is given with one call of the network: who authorises it, the ledger, and how the contracts
answer that are not part of the network. -/
structure Context where
  authorized : Address → Bool
  ledger : UInt32
  foreign : Client

namespace Chain
variable {O : Type} (P : Chain O)

/-- A query to the contract at an address, with the contracts that are running above it. -/
def query (foreign : Client) (net : Net O) : Nat → List Address → Client
  | 0, _, _, _ => .error .depth
  | depth + 1, stack, a, q =>
      if a ∈ stack then .error .reentry
      else match net a with
        | some (.router r) => r.forward (query foreign net depth (a :: stack)) q
        | some (.emergencyStop e) => e.forward (query foreign net depth (a :: stack)) q
        | some (.groth16 v) => v.answer P.bn254 P.sha256 q
        | some (.mock m) => m.answer P.sha256 P.keccak256 q
        | none => foreign a q

/-- The environment of a call of the contract at `a`. -/
def env (x : Context) (net : Net O) (a : Address) : Env where
  authorized := x.authorized
  ledger := x.ledger
  client := P.query x.foreign net P.depthLimit [a]

def invoke (x : Context) (a : Address) (c : Call) (net : Net O) : Except Fault Ret × Net O :=
  match net a, c with
  | some (.router r), .router c =>
      let out := atomically (Router.perform P.library (P.env x net a) c) r
      (out.1, Function.update net a (some (.router out.2)))
  | some (.emergencyStop e), .emergencyStop c =>
      let out := atomically (EmergencyStop.perform P.library (P.env x net a) c) e
      (out.1, Function.update net a (some (.emergencyStop out.2)))
  | _, _ => (.error .missing, net)

def create : Creation → Instance O
  | .router owner => .router (Router.constructor P.library owner)
  | .emergencyStop verifier owner =>
      .emergencyStop (EmergencyStop.constructor P.library verifier owner)
  | .groth16 v => .groth16 v
  | .mock selector => .mock (MockVerifier.constructor selector)

def deploy (a : Address) (c : Creation) (net : Net O) : Except Fault Ret × Net O :=
  match net a with
  | some _ => (.error .trap, net)
  | none => (.ok .unit, Function.update net a (some (P.create c)))

end Chain

/-! ## Runs -/

inductive Input where
  | deploy (a : Address) (c : Creation)
  | call (x : Context) (a : Address) (c : Call)

namespace Chain
variable {O : Type} (P : Chain O)

def step (net : Net O) : Input → Except Fault Ret × Net O
  | .deploy a c => P.deploy a c net
  | .call x a c => P.invoke x a c net

end Chain

def Net.empty {O : Type} : Net O := fun _ => none

abbrev Turn (O : Type) := Machine.Turn (Net O) Input (Except Fault Ret)

section
variable {O : Type} (P : Chain O)

abbrev run (is : List Input) : Net O := Machine.final P.step Net.empty is

abbrev history (is : List Input) : List (Turn O) := Machine.turns P.step Net.empty is

/-- The turn is a successful call `c` of the contract at `a`. -/
def Calls (a : Address) (c : Call) (t : Turn O) : Prop :=
  ∃ x ret, t.input = .call x a c ∧ t.output = .ok ret

/-- The turn deploys a contract at `a`. -/
def Deploys (a : Address) (c : Creation) (t : Turn O) : Prop :=
  ∃ ret, t.input = .deploy a c ∧ t.output = .ok ret

def Adds (a : Address) (s : BytesN 4) (v : Address) (t : Turn O) : Prop :=
  Calls a (.router (.addVerifier s v)) t

def Removes (a : Address) (s : BytesN 4) (t : Turn O) : Prop :=
  Calls a (.router (.removeVerifier s)) t

/-- The owner that the router at `a` has when the turn begins authorises the turn. -/
def RouterOwned (a : Address) (t : Turn O) : Prop :=
  ∃ x c r o, t.input = .call x a c ∧ t.before a = some (.router r) ∧
    P.library.getOwner r.ownable = some o ∧ x.authorized o = true

/-- The calls that pause. -/
def EmergencyStop.Call.stops : EmergencyStop.Call → Bool
  | .estop | .pause _ | .estopWithReceipt _ => true
  | _ => false

def Stops (a : Address) (t : Turn O) : Prop := ∃ c, c.stops = true ∧ Calls a (.emergencyStop c) t

end

/-! ## Views -/

/-- The entry of the router at an address. -/
def Net.entry {O : Type} (net : Net O) (a : Address) (selector : BytesN 4) : Option VerifierEntry :=
  match net a with
  | some (.router r) => r.verifiers selector
  | _ => none

/-- The address holds an emergency stop that is paused. -/
def Net.stopped {O : Type} (net : Net O) (a : Address) : Prop :=
  ∃ e, net a = some (.emergencyStop e) ∧ e.paused = true

end ZkUnderwrite.Verifier
