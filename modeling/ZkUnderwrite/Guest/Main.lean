import ZkUnderwrite.Guest.Statement

/-!
# The guest program

`main` as a function from the host's inputs to the committed journal. An `expect` or an assertion that
fails aborts the guest, and then there is no proof.
-/

namespace ZkUnderwrite.Guest
open ByteString Serde

/-- The crates the guest calls: `sha2`, `ed25519_dalek` and `serde_json`. -/
structure Crates where
  sha256 : Bytes → BytesN 32
  /-- Whether `VerifyingKey::from_bytes` accepts the key. -/
  validKey : BytesN 32 → Bool
  verify : BytesN 32 → Bytes → BytesN 64 → Bool
  /-- The document that a text denotes, if it is JSON. -/
  parseJson : Bytes → Option Json

/-- What the host writes, in this order. -/
structure Input where
  statementBytes : Bytes
  signatureBytes : Bytes
  issuerPubkeyBytes : Bytes
  threshold : UInt64
deriving DecidableEq

inductive Abort where
  | pubkeyLength
  | invalidPubkey
  | signatureLength
  | verificationFailed
  | malformedStatement
  | periodMonths
  | divideByZero
deriving DecidableEq, Repr

def expect {α : Type} (o : Option α) (a : Abort) : Except Abort α :=
  match o with
  | some x => .ok x
  | none => .error a

def ensure (c : Bool) (a : Abort) : Except Abort Unit := if c then .ok () else .error a

/-- `serde_json::from_slice` at the type `Statement`. -/
def Crates.fromSlice (C : Crates) (b : Bytes) : Option Statement :=
  (C.parseJson b).bind Statement.fromJson

/-- The sum of the incomes in `u64`. The release profile does not check for overflow. -/
def sumIncome (incomes : List UInt64) : UInt64 := incomes.foldl (· + ·) 0

def checkedDiv (a b : UInt64) : Except Abort UInt64 :=
  if b = 0 then .error .divideByZero else .ok (a / b)

/-- The 81 bytes of the journal. -/
def encodeJournal (issuerHash : BytesN 32) (threshold : UInt64) (meets : Bool)
    (nullifier : BytesN 32) (period : UInt64) : Bytes :=
  issuerHash.val ++ beBytes 8 threshold.toNat ++ [if meets then 1 else 0] ++ nullifier.val ++
    beBytes 8 period.toNat

def main (C : Crates) (inp : Input) : Except Abort Bytes := do
  -- 1. Verify the issuer's signature over the exact statement bytes.
  let pk ← expect (BytesN.ofBytes 32 inp.issuerPubkeyBytes) .pubkeyLength
  ensure (C.validKey pk) .invalidPubkey
  let sig ← expect (BytesN.ofBytes 64 inp.signatureBytes) .signatureLength
  ensure (C.verify pk inp.statementBytes sig) .verificationFailed
  -- 2. Parse the statement.
  let st ← expect (C.fromSlice inp.statementBytes) .malformedStatement
  ensure (st.periodMonths.toNat = st.monthlyNetIncome.length) .periodMonths
  -- 3. Average over the period; every month must be positive.
  let sum := sumIncome st.monthlyNetIncome
  let avg ← checkedDiv sum st.periodMonths.toUInt64
  let recurring := st.monthlyNetIncome.all fun m => 0 < m
  let meets := recurring && inp.threshold ≤ avg
  -- 4. Nullifier.
  let nullifier := C.sha256 st.scope.preimage
  let issuerHash := C.sha256 inp.issuerPubkeyBytes
  -- 5. Commit.
  return encodeJournal issuerHash inp.threshold meets nullifier st.period

end ZkUnderwrite.Guest
