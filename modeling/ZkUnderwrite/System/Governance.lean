import ZkUnderwrite.System.Verification
import ZkUnderwrite.Timelock.Theorems

/-!
# The timelock controller above the system

The timelock controller with the whole system as its other contracts. The controller calls a contract with
its own authorisation; when anyone else calls one, the host asks `__check_auth` for it.
-/

namespace ZkUnderwrite.System
open ByteString Contract Transaction
open Timelock (Governance Setup Waited)
open Schedule (Executed)

variable {V A τ O : Type}

structure Governed (V A τ O : Type) extends Installation τ O where
  gov : Governance V A (Stack τ O)
  /-- What a function name and arguments call for, at a verifier contract and at the credit contract. -/
  verifierCall : Timelock.Symbol → List V → Option Verifier.Call
  creditCall : Timelock.Symbol → List V → Option Contract.Call
  /-- The value that a call returns. -/
  result : Outcome → V

/-- What is given with one transaction. -/
structure Submission {V A : Type} (B : Timelock.Base V A) where
  timestamp : UInt64
  live : B.doneTimestamp < timestamp
  ledger : UInt32
  authorized : Address → Bool
  authorizedForArgs : Address → Timelock.ExecuteIntent V → Bool
  selfAuth : Option (List (Timelock.AuthContext V) × List Timelock.OperationMeta)
  foreign : Verifier.Client

def Outcome.ok : Outcome → Bool
  | .contract (some (.ok _)) => true
  | .verifier (.ok _) => true
  | _ => false

/-- A call of the controller, or an act of anyone. -/
inductive GovernedAct (K : Governed V A τ O) where
  | timelock (x : Submission K.gov.toBase) (c : Timelock.Call V)
  | outside (x : Submission K.gov.toBase) (act : Act τ)

namespace Governed
variable (K : Governed V A τ O) (x : Submission K.gov.toBase)

abbrev controller : Address := K.gov.currentContractAddress

/-- The call that the controller makes for an operation, as the direct caller. -/
def act (target : Address) (function : Timelock.Symbol) (args : List V) : Option (Act τ) :=
  let authorized := fun a => a = K.controller || x.authorized a
  if target = K.platform.currentContractAddress then
    (K.creditCall function args).map fun c => .credit authorized x.foreign c
  else
    (K.verifierCall function args).map fun c =>
      .verifier (.call ⟨authorized, x.ledger, x.foreign⟩ target c)

def invoke (target : Address) (function : Timelock.Symbol) (args : List V) (s : Stack τ O) :
    Option (V × Stack τ O) :=
  match K.act x target function args with
  | some act =>
      let out := K.toInstallation.step s act
      if out.1.ok then some (K.result out.1, out.2) else none
  | none => none

def env : Timelock.Env K.gov.toBase (Stack τ O) :=
  { x with invoke := K.invoke x }

/-- The controller's authorisation for a call of another contract that it does not make itself: an
authorisation entry for this contract that `__check_auth` accepts. -/
def authorizes (w : Timelock.World V A (Stack τ O)) (target : Address) : Bool :=
  match x.selfAuth with
  | some (contexts, contextMeta) =>
      contexts.any (fun
        | .contract contract _ _ => contract = target
        | .other => false) &&
      ((Timelock.checkAuth K.gov (K.env x) contextMeta contexts).exec w).1.toBool
  | none => false

/-- An act of anyone, with the authorisations that the host finds. -/
def authenticate (w : Timelock.World V A (Stack τ O)) : Act τ → Act τ
  | .credit authorized foreign c =>
      .credit (fun a => if a = K.controller then K.authorizes x w K.platform.currentContractAddress
        else authorized a) foreign c
  | .verifier (.call y a c) =>
      .verifier (.call { y with
        authorized := fun b => if b = K.controller then K.authorizes x w a else y.authorized b } a c)
  | act => act

/-- The input that an act is for the controller. The controller's address is taken. -/
def timelockInput (w : Timelock.World V A (Stack τ O)) : GovernedAct K → Timelock.Input K.gov
  | .timelock x c => .call (K.env x) c
  | .outside _ (.verifier (.deploy a c)) =>
      if a = K.controller then .outside w.outer
      else .outside (K.toInstallation.step w.outer (.verifier (.deploy a c))).2
  | .outside x act => .outside (K.toInstallation.step w.outer (K.authenticate x w act)).2

variable [DecidableEq V]

def step (w : Timelock.World V A (Stack τ O)) (act : GovernedAct K) :
    Except Timelock.Fault (Timelock.Ret V) × Timelock.World V A (Stack τ O) :=
  Timelock.step K.gov w (K.timelockInput w act)

abbrev run (s : Setup (Stack τ O)) (acts : List (GovernedAct K)) :
    Timelock.World V A (Stack τ O) :=
  Machine.final K.step (K.gov.start s) acts

/-- A run as the controller sees it. -/
def inputs (s : Setup (Stack τ O)) (acts : List (GovernedAct K)) : List (Timelock.Input K.gov) :=
  Machine.inputs K.step (fun w act => [K.timelockInput w act]) (K.gov.start s) acts

end Governed

/-! ## Authorisation by the controller -/

section
variable {K : Governed V A τ O} {x : Submission K.gov.toBase} {w : Timelock.World V A (Stack τ O)}

variable [DecidableEq V]

end

/-! ## Routing under the timelock -/

namespace GovernedSample
open Timelock.Sample (governance operation)

/-- A selector is its four bytes, and an address the number that its 32 bytes denote. -/
def verifierCall (f : Timelock.Symbol) : List Bytes → Option Verifier.Call
  | [s, v] =>
      if f = ⟨"add_verifier"⟩ then
        (BytesN.ofBytes 4 s).map fun s => .router (.addVerifier s ⟨beNat v⟩)
      else none
  | _ => none

def governed : Governed Bytes Timelock.Sample.Roles Contract.Ledger Verifier.Sample.Ownership where
  toInstallation := StackSample.installation
  gov := governance ⟨9⟩ _
  verifierCall := verifierCall
  creditCall _ _ := none
  result _ := []

def submit (timestamp : UInt64) (live : 1 < timestamp) : Submission governed.gov.toBase where
  timestamp := timestamp
  live := live
  ledger := 0
  authorized _ := true
  authorizedForArgs _ _ := true
  selfAuth := none
  foreign := StackSample.silent

def setup : Setup (Stack Contract.Ledger Verifier.Sample.Ownership) :=
  ⟨10, [⟨1⟩], [], none, Stack.empty Contract.Sample.ledger⟩

/-- The controller becomes the owner of a router, and a proposer schedules the first verifier. -/
def acts : List (GovernedAct governed) :=
  [.outside (submit 190 (by decide)) (.verifier (.deploy Contract.Sample.router (.router ⟨9⟩))),
    .timelock (submit 200 (by decide)) (.scheduleOp operation 10 ⟨1⟩)]

def execute : GovernedAct governed := .timelock (submit 210 (by decide)) (.executeOp operation none)

end GovernedSample

end ZkUnderwrite.System
