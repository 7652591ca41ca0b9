import Mathlib.Data.Set.Function
import ZkUnderwrite.Contract.Claims
import ZkUnderwrite.Contract.History
import ZkUnderwrite.Guest.Lemmas.Main

/-!
# Issuers, provers and the contract together

The state of the whole system: the contract's world, the messages that each key has signed, and the
guest executions that committed a journal. Anyone may sign with a key of their own, execute the guest
on any input and call the contract, in any order.
-/

namespace ZkUnderwrite.System
open ByteString Contract Guest

variable {τ : Type}

/-- The contract and the guest, which compute the same SHA-256. -/
structure Deployment (τ : Type) where
  platform : Platform τ
  crates : Crates
  sha256_eq : platform.sha256 = crates.sha256

structure Execution where
  input : Guest.Input
  journal : Bytes
deriving DecidableEq

structure Sys (τ : Type) where
  world : World τ
  signed : List (BytesN 32 × Bytes)
  executions : List Execution

def Sys.empty (t : τ) : Sys τ := ⟨World.empty t, [], []⟩

inductive Move (τ : Type) where
  | sign (pk : BytesN 32) (message : Bytes)
  | prove (inp : Guest.Input)
  | contract (x : Contract.Input τ)

namespace Deployment
variable (D : Deployment τ)

def step (s : Sys τ) : Move τ → Option (Except Fault Ret) × Sys τ
  | .sign pk message => (none, { s with signed := (pk, message) :: s.signed })
  | .prove inp =>
      match main D.crates inp with
      | .ok journal => (none, { s with executions := ⟨inp, journal⟩ :: s.executions })
      | .error _ => (none, s)
  | .contract x =>
      ((Contract.step D.platform s.world x).1,
        { s with world := (Contract.step D.platform s.world x).2 })

abbrev history (t₀ : τ) (ms : List (Move τ)) :
    List (Machine.Turn (Sys τ) (Move τ) (Option (Except Fault Ret))) :=
  Machine.turns D.step (Sys.empty t₀) ms

/-! ## What is assumed -/

/-- Ed25519 verification succeeds only on what the key has signed. -/
def SignatureSound (s : Sys τ) (inp : Guest.Input) : Prop :=
  ∀ pk sig, inp.issuerPubkeyBytes = pk.val → inp.signatureBytes = sig.val →
    D.crates.verify pk inp.statementBytes sig = true → (pk, inp.statementBytes) ∈ s.signed

/-- The contract's router accepts a seal for the guest's image id only when some execution of the
guest has committed a journal with that digest. -/
def RouterSound (image : BytesN 32) (s : Sys τ) (i : Invocation) : Prop :=
  ∀ router sealBytes digest, s.world.router = some router →
    i.verify router sealBytes image digest = true →
    ∃ e ∈ s.executions, D.crates.sha256 e.journal = digest

/-- An `init` that succeeds installs the guest's image id. -/
def InitWith (image : BytesN 32) (s : Sys τ) (i : Invocation) : Prop :=
  ∀ admin router m usdc threshold amount r w',
    i.call = .init admin router m usdc threshold amount →
    invoke D.platform i s.world = (.ok r, w') → m = image

def Trusted (image : BytesN 32) (s : Sys τ) : Move τ → Prop
  | .sign _ _ => True
  | .prove inp => D.SignatureSound s inp
  | .contract (.call i) => D.RouterSound image s i ∧ D.InitWith image s i
  | .contract (.token _) => True

/-- The journals of a run: those that an execution commits and those that a request submits. -/
def journals (ms : List (Move τ)) : Set Bytes :=
  { j | (∃ inp, .prove inp ∈ ms ∧ main D.crates inp = .ok j) ∨
    ∃ i b s, .contract (.call i) ∈ ms ∧ i.call = .requestCredit b s j }

/-! ## What backs a request -/

/-- The execution `e` of the guest, on the statement `st` signed under `pk`, backs a request with
the journal `j` in the state `s` of a contract with the policy `p`. -/
structure Backs (s : Sys τ) (p : Policy) (j : Bytes) (e : Execution) (pk : BytesN 32)
    (st : Statement) : Prop where
  executed : e ∈ s.executions
  journal : e.journal = j
  committed : main D.crates e.input = .ok j
  parsed : D.crates.fromSlice e.input.statementBytes = some st
  signed : (pk, e.input.statementBytes) ∈ s.signed
  registered : s.world.registered (D.crates.sha256 pk.val) = true
  period_months : st.periodMonths.toNat = st.monthlyNetIncome.length
  months : 1 ≤ st.monthlyNetIncome.length
  positive : ∀ m ∈ st.monthlyNetIncome, 0 < m
  income : p.requiredThreshold.toNat * st.monthlyNetIncome.length ≤ st.exactSum

/-- The claim carries a journal that the guest commits for the statement `st`, signed under `pk`. -/
def Carries (pk : BytesN 32) (st : Statement) (c : Claim) : Prop :=
  ∃ inp sig, Accepts D.crates inp pk sig st ∧ main D.crates inp = .ok c.journal.val

end Deployment

def contractTurn (t : Machine.Turn (Sys τ) (Move τ) (Option (Except Fault Ret))) :
    Option (Contract.Turn τ) :=
  match t.input with
  | .contract x => some ⟨t.before.world, x, t.output, t.after.world⟩
  | _ => none

def requested (t : Machine.Turn (Sys τ) (Move τ) (Option (Except Fault Ret))) :
    Option (Address × Bytes) :=
  (contractTurn t).bind Contract.requested

end ZkUnderwrite.System
