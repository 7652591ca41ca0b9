import ZkUnderwrite.Contract.Policy

/-!
# Histories

What the turns of a run tell: which calls succeeded, which nullifiers they paid, and how much left
the treasury.
-/

namespace ZkUnderwrite.Contract
open ByteString

variable {τ : Type}

abbrev Turn (τ : Type) := Machine.Turn (World τ) (Input τ) (Option (Except Fault Ret))

abbrev run (P : Platform τ) (t₀ : τ) (xs : List (Input τ)) : World τ :=
  Machine.final (step P) (World.empty t₀) xs

abbrev history (P : Platform τ) (t₀ : τ) (xs : List (Input τ)) : List (Turn τ) :=
  Machine.turns (step P) (World.empty t₀) xs

def succeeded (t : Turn τ) : Option Invocation :=
  match t.input, t.output with
  | .call i, some (.ok _) => some i
  | _, _ => none

/-- The turn is a successful call in `p`. -/
def does (p : Call → Bool) (t : Turn τ) : Bool := (succeeded t).any fun i => p i.call

def requested (t : Turn τ) : Option (Address × Bytes) :=
  match (succeeded t).map Invocation.call with
  | some (.requestCredit b _ j) => some (b, j)
  | _ => none

def grant (t : Turn τ) : Option Grant := (succeeded t).bind fun i => i.call.grant

def grants (ts : List (Turn τ)) : List Grant := ts.filterMap grant

namespace Call

def isInit : Call → Bool
  | .init .. => true
  | _ => false

def storesAdmin : Call → Bool
  | .init .. | .acceptAdmin => true
  | _ => false

def touchesPending : Call → Bool
  | .proposeAdmin _ | .acceptAdmin | .cancelAdminProposal => true
  | _ => false

def touchesIssuer (h : BytesN 32) (c : Call) : Bool :=
  c = .registerIssuer h || c = .unregisterIssuer h

end Call

/-- What the contract's balance of the token `u` loses in a turn, when the turn is a call. -/
def outflow (P : Platform τ) (u : Address) (t : Turn τ) : Int :=
  match t.input with
  | .call _ => P.balance u t.before.token P.currentContractAddress -
      P.balance u t.after.token P.currentContractAddress
  | .token _ => 0

def paidOut (P : Platform τ) (u : Address) (ts : List (Turn τ)) : Int :=
  (ts.map (outflow P u)).sum

end ZkUnderwrite.Contract
