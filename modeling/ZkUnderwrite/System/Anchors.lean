import ZkUnderwrite.System.Stack
import ZkUnderwrite.Verifier.Lemmas.Receipt

/-!
# What the system rests on

The assumptions under which a request that is paid is backed by a signed statement: signatures, the
soundness of the Groth16 proofs that the genuine verifier contracts accept, and an owner of the router who
adds nothing but genuine verifiers behind emergency stops.
-/

namespace ZkUnderwrite.System
open ByteString Contract
open Verifier (Groth16Verifier)

variable {τ O : Type}

/-- The guest's image id, the contract's router, the genuine verifiers, and what other programs than the
guest have been run to, by image id and journal. -/
structure Anchors where
  image : BytesN 32
  router : Address
  verifiers : Set Groth16Verifier
  others : Set (BytesN 32 × Bytes)

/-- A genuine verifier, behind any number of emergency stops. -/
inductive Leads (V : Set Groth16Verifier) (net : Verifier.Net O) : Address → Prop
  | verifier {a : Address} {v : Groth16Verifier} (here : net a = some (.groth16 v)) (genuine : v ∈ V) :
      Leads V net a
  | emergencyStop {a b : Address} {e : Verifier.EmergencyStop O}
      (here : net a = some (.emergencyStop e)) (wraps : e.verifier = some b) (rest : Leads V net b) :
      Leads V net a

namespace Installation
variable (I : Installation τ O) (A : Anchors)

/-- The digest of the claim that a program has run to a journal. -/
def claimDigest (image : BytesN 32) (j : Bytes) : BytesN 32 :=
  Verifier.claimDigest I.crates.sha256 image (I.crates.sha256 j)

/-- A genuine verifier accepts the proof of a request only for the claim of a run: of the guest, which is
among the executions, or of another program. -/
def ProofSound (s : Stack τ O) (c : Contract.Call) : Prop :=
  ∀ b sl j, c = .requestCredit b sl j → ∀ v ∈ A.verifiers,
    v.answer I.chain.bn254 I.chain.sha256 (.verify sl A.image (I.crates.sha256 j)) = .ok () →
    (∃ e ∈ s.sys.executions, I.claimDigest A.image e.journal = I.claimDigest A.image j) ∨
      ∃ r ∈ A.others, r.1 ≠ A.image ∧ I.claimDigest r.1 r.2 = I.claimDigest A.image j

/-- An `init` that succeeds installs the guest's image id and the router. -/
def InitWith (s : Stack τ O) (i : Invocation) : Prop :=
  ∀ admin router m usdc threshold amount r w',
    i.call = .init admin router m usdc threshold amount →
    Contract.invoke I.platform i s.sys.world = (.ok r, w') → m = A.image ∧ router = A.router

/-- The owner of the router authorises the call. -/
def RouterOwner (s : Stack τ O) (x : Verifier.Context) : Prop :=
  ∃ r o, s.net A.router = some (.router r) ∧ I.chain.library.getOwner r.ownable = some o ∧
    x.authorized o = true

def Trusted (s : Stack τ O) : Act τ → Prop
  | .sign _ _ => True
  | .token _ => True
  | .prove inp => I.SignatureSound s.sys inp
  | .credit authorized foreign c =>
      I.ProofSound A s c ∧ I.InitWith A s ⟨authorized, I.verify foreign s.net, c⟩ ∧
        ∀ q, foreign A.router q ≠ .ok ()
  | .verifier (.deploy a c) => a = A.router → ∃ owner, c = .router owner
  | .verifier (.call x a c) => ∀ selector v, a = A.router → c = .router (.addVerifier selector v) →
      I.RouterOwner A s x → Leads A.verifiers s.net v

/-- The journals of a run: those that an execution commits and those that a request submits. -/
def journals (acts : List (Act τ)) : Set Bytes :=
  { j | (∃ inp, .prove inp ∈ acts ∧ Guest.main I.crates inp = .ok j) ∨
    ∃ authorized foreign b sl, .credit authorized foreign (.requestCredit b sl j) ∈ acts }

/-- The strings hashed in a run that must not collide: the journals and the claims. -/
def hashed (acts : List (Act τ)) : Set Bytes :=
  { x | x ∈ I.journals acts ∨
    (∃ j ∈ I.journals acts,
      x ∈ Verifier.claimInputs I.crates.sha256 A.image (I.crates.sha256 j)) ∨
    ∃ r ∈ A.others, x ∈ Verifier.claimInputs I.crates.sha256 r.1 (I.crates.sha256 r.2) }

end Installation

end ZkUnderwrite.System
