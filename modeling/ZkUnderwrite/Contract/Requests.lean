import ZkUnderwrite.Contract.Policy

/-!
# Requests

A call of `request_credit` with any seal and journal, and what it has to pass: nine checks in order, each
read off the state and the bytes of the journal, with the error that it stands for.
-/

namespace ZkUnderwrite.Contract
open ByteString

variable {τ : Type}

/-- The first of a list of checks that fails, as its error. -/
def firstFailure {ε : Type} (checks : List (Bool × ε)) : Option ε :=
  (checks.find? fun c => !c.1).map Prod.snd

structure Request where
  borrower : Address
  sealBytes : Bytes
  journal : Bytes
  authorized : Address → Bool
  verify : Address → Bytes → BytesN 32 → BytesN 32 → Bool

namespace Request

def invocation (r : Request) : Invocation :=
  ⟨r.authorized, r.verify, .requestCredit r.borrower r.sealBytes r.journal⟩

/-- The verdict of the stored router on the seal, the stored image id and the journal's digest. -/
def verdict (P : Platform τ) (w : World τ) (r : Request) : Bool :=
  w.router.any fun a => w.imageId.any fun im => r.verify a r.sealBytes im (P.sha256 r.journal)

def issuerHash (r : Request) : Option (BytesN 32) := BytesN.ofBytes 32 (slice r.journal 0 32)

def nullifier (r : Request) : Option (BytesN 32) := BytesN.ofBytes 32 (slice r.journal 41 32)

/-- The transfer of the credit amount from the contract to the borrower. -/
def transfer (P : Platform τ) (w : World τ) (r : Request) : Option τ :=
  w.usdc.bind fun u => w.creditAmount.bind fun n =>
    P.transfer u w.token P.currentContractAddress r.borrower n

def checks (P : Platform τ) (w : World τ) (r : Request) : List (Bool × Fault) :=
  [(r.authorized r.borrower, .unauthorized r.borrower),
    (w.admin.isSome, .contract .notInitialized),
    (r.journal.length = 81, .contract .badJournalLength),
    (r.verdict P w, .verifier),
    (r.issuerHash.any w.registered, .contract .issuerNotRegistered),
    (w.requiredThreshold.any fun t => t.toNat ≤ beNat (slice r.journal 32 8),
      .contract .thresholdTooLow),
    (r.journal[40]? = some 1, .contract .incomeBelowThreshold),
    (r.nullifier.any fun n => !w.spent n, .contract .nullifierAlreadyUsed),
    ((r.transfer P w).isSome, .transfer)]

/-- In the state `w` the request `r'` agrees with `r` on all that the contract looks at: the borrower and
its authorisation, the router's verdict, and the journal up to its period. -/
structure Agrees (P : Platform τ) (w : World τ) (r r' : Request) : Prop where
  borrower : r'.borrower = r.borrower
  authorized : r'.authorized r.borrower = r.authorized r.borrower
  verdict : r'.verdict P w = r.verdict P w
  length_eq : r'.journal.length = r.journal.length
  take_eq : r'.journal.take 73 = r.journal.take 73

end Request

/-- The states `w` and `w'` differ at most in the router calls made. -/
structure SameState (w w' : World τ) : Prop where
  storage : w.storage = w'.storage
  token : w.token = w'.token
  events : w.events = w'.events

/-- What a paid request writes, for the borrower `b`, the amount `n` and the nullifier `k`: every other
key and every other balance is as before. -/
structure Paid (P : Platform τ) (w w' : World τ) (b : Address) (n : Int) (k : BytesN 32) : Prop where
  inst : w'.storage.inst = w.storage.inst
  pers : ∀ key, key ≠ .nullifier k → key ≠ .creditLine b →
    w'.storage.pers key = w.storage.pers key
  nullifier : w'.storage.pers (.nullifier k) = some true
  creditLine : w'.storage.pers (.creditLine b) = some n
  balance : ∀ u a, P.balance u w'.token a = P.balance u w.token a -
    (if w.usdc = some u ∧ a = P.currentContractAddress then n else 0) +
    (if w.usdc = some u ∧ a = b then n else 0)
  events : w'.events = w.events ++ [⟨"credit", .address b, .i128 n⟩]

end ZkUnderwrite.Contract
