import ZkUnderwrite.Contract.EntryPoints

/-!
# Reading the state

The values that the state holds, the lender policy that `init` stores, and the five values of a
journal of the right length.
-/

namespace ZkUnderwrite.Contract
open ByteString

variable {τ : Type}

namespace World

def admin (w : World τ) : Option Address := w.storage.inst .admin
def pendingAdmin (w : World τ) : Option Address := w.storage.inst .pendingAdmin
def router (w : World τ) : Option Address := w.storage.inst .router
def imageId (w : World τ) : Option (BytesN 32) := w.storage.inst .imageId
def usdc (w : World τ) : Option Address := w.storage.inst .usdc
def requiredThreshold (w : World τ) : Option UInt64 := w.storage.inst .requiredThreshold
def creditAmount (w : World τ) : Option Int := w.storage.inst .creditAmount
def issuer (w : World τ) (h : BytesN 32) : Option Bool := w.storage.pers (.issuer h)
def registered (w : World τ) (h : BytesN 32) : Bool := w.storage.pers.has (.issuer h)
def spent (w : World τ) (n : BytesN 32) : Bool := w.storage.pers.has (.nullifier n)
def credit (w : World τ) (b : Address) : Option Int := w.storage.pers (.creditLine b)

end World

/-- A lender policy that `init` accepts. -/
structure Policy where
  router : Address
  imageId : BytesN 32
  usdc : Address
  requiredThreshold : UInt64
  creditAmount : Int
  imageId_ne : imageId ≠ BytesN.replicate 32 0
  requiredThreshold_ne : requiredThreshold ≠ 0
  creditAmount_pos : 0 < creditAmount

/-- The state holds an admin and the policy `p`. -/
structure Configured (w : World τ) (p : Policy) : Prop where
  admin : ∃ a, w.admin = some a
  router : w.router = some p.router
  imageId : w.imageId = some p.imageId
  usdc : w.usdc = some p.usdc
  requiredThreshold : w.requiredThreshold = some p.requiredThreshold
  creditAmount : w.creditAmount = some p.creditAmount

/-- Nothing is stored, or everything that `init` stores is. -/
def WellFormed (w : World τ) : Prop := w.storage = Storage.empty ∨ ∃ p, Configured w p

@[ext] structure Journal where
  issuerHash : BytesN 32
  threshold : UInt64
  meets : UInt8
  nullifier : BytesN 32
  period : UInt64
deriving DecidableEq

def Journal.parse (j : BytesN journalLen) : Journal where
  issuerHash := ⟨slice j.val 0 32, length_slice (by rw [j.length_eq]; decide)⟩
  threshold := UInt64.ofNat (beNat (slice j.val 32 8))
  meets := j.val.get ⟨40, by rw [j.length_eq]; decide⟩
  nullifier := ⟨slice j.val 41 32, length_slice (by rw [j.length_eq]; decide)⟩
  period := UInt64.ofNat (beNat (slice j.val 73 8))

/-- What a request asks to be paid: the borrower and the nullifier bytes `[41, 73)`. -/
structure Grant where
  borrower : Address
  nullifier : BytesN 32
deriving DecidableEq

def Call.grant : Call → Option Grant
  | .requestCredit b _ j => (BytesN.ofBytes 32 (slice j 41 32)).map fun n => ⟨b, n⟩
  | _ => none

theorem Journal.nullifier_parse (j : BytesN journalLen) :
    BytesN.ofBytes 32 (slice j.val 41 32) = some (parse j).nullifier :=
  BytesN.ofBytes_val (parse j).nullifier

/-- The first policy check that a journal fails. -/
def policyError (w : World τ) (p : Policy) (v : Journal) : Option Error :=
  if !w.registered v.issuerHash then some .issuerNotRegistered
  else if v.threshold < p.requiredThreshold then some .thresholdTooLow
  else if v.meets ≠ 1 then some .incomeBelowThreshold
  else if w.spent v.nullifier then some .nullifierAlreadyUsed
  else none

/-- The state after a successful `request_credit`. -/
def World.payOut (w : World τ) (p : Policy) (borrower : Address) (nullifier : BytesN 32) (t : τ) :
    World τ :=
  (((w.setPersistent (.nullifier nullifier) true).setToken t).setPersistent (.creditLine borrower)
    p.creditAmount).publish ⟨"credit", .address borrower, .i128 p.creditAmount⟩

/-- What a request does once the router has accepted its proof, by the values of its journal. -/
def settle (env : Env τ) (w : World τ) (p : Policy) (borrower : Address) (v : Journal) :
    Except Fault Int × World τ :=
  match policyError w p v with
  | some e => (.error (.contract e), w)
  | none =>
      match env.transfer p.usdc w.token env.currentContractAddress borrower p.creditAmount with
      | some t => (.ok p.creditAmount, w.payOut p borrower v.nullifier t)
      | none => (.error .transfer, w.setPersistent (.nullifier v.nullifier) true)

end ZkUnderwrite.Contract
