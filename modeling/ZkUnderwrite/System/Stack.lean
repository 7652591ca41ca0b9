import ZkUnderwrite.Lib.Projection
import ZkUnderwrite.System.Deployment
import ZkUnderwrite.Verifier.Network

/-!
# The contract above the verifier network

The whole system with the verifier contracts in it: a request of credit asks the router at the address
that the contract stores, and the router answers in the state that the network then has. Anyone may sign,
prove, deploy verifiers and call any contract, in any order.
-/

namespace ZkUnderwrite.System
open ByteString Contract

variable {τ O : Type}

structure Stack (τ O : Type) where
  sys : Sys τ
  net : Verifier.Net O

def Stack.empty (t : τ) : Stack τ O := ⟨Sys.empty t, Verifier.Net.empty⟩

structure Installation (τ O : Type) extends Deployment τ where
  chain : Verifier.Chain O
  chain_sha256 : chain.sha256 = crates.sha256

inductive Act (τ : Type) where
  | sign (pk : BytesN 32) (message : Bytes)
  | prove (inp : Guest.Input)
  | token (t : τ)
  | credit (authorized : Address → Bool) (foreign : Verifier.Client) (c : Contract.Call)
  | verifier (i : Verifier.Input)

inductive Outcome where
  | contract (r : Option (Except Contract.Fault Contract.Ret))
  | verifier (r : Except Verifier.Fault Verifier.Ret)

abbrev StackTurn (τ O : Type) := Machine.Turn (Stack τ O) (Act τ) Outcome

namespace Installation
variable (I : Installation τ O)

/-- The verdict of the router at an address, in a call that the contract makes. -/
def verify (foreign : Verifier.Client) (net : Verifier.Net O) (router : Address) (sealBytes : Bytes)
    (imageId journalDigest : BytesN 32) : Bool :=
  (I.chain.query foreign net I.chain.depthLimit [I.platform.currentContractAddress] router
    (.verify sealBytes imageId journalDigest)).toBool

def move (s : Stack τ O) : Act τ → Option (Move τ)
  | .sign pk message => some (.sign pk message)
  | .prove inp => some (.prove inp)
  | .token t => some (.contract (.token t))
  | .credit authorized foreign c =>
      some (.contract (.call ⟨authorized, I.verify foreign s.net, c⟩))
  | .verifier _ => none

/-- What an act asks of the network. The address of the contract is taken. -/
def input : Act τ → Option Verifier.Input
  | .verifier (.deploy a c) =>
      if a = I.platform.currentContractAddress then none else some (.deploy a c)
  | .verifier (.call x a c) => some (.call x a c)
  | _ => none

def step (s : Stack τ O) (act : Act τ) : Outcome × Stack τ O :=
  match I.move s act with
  | some m =>
      (.contract (I.toDeployment.step s.sys m).1, { s with sys := (I.toDeployment.step s.sys m).2 })
  | none =>
      match I.input act with
      | some i => (.verifier (I.chain.step s.net i).1, { s with net := (I.chain.step s.net i).2 })
      | none => (.verifier (.error .trap), s)

abbrev run (t₀ : τ) (acts : List (Act τ)) : Stack τ O := Machine.final I.step (Stack.empty t₀) acts

abbrev history (t₀ : τ) (acts : List (Act τ)) : List (StackTurn τ O) :=
  Machine.turns I.step (Stack.empty t₀) acts

end Installation

/-- A request of credit that is paid: the borrower, the seal and the journal. -/
def paid (t : StackTurn τ O) : Option (Address × Bytes × Bytes) :=
  match t.input, t.output with
  | .credit _ _ (.requestCredit b sealBytes j), .contract (some (.ok _)) => some (b, sealBytes, j)
  | _, _ => none

end ZkUnderwrite.System
