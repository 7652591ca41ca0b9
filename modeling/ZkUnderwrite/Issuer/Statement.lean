import ZkUnderwrite.Lib.Bytes
import ZkUnderwrite.Lib.Serde

/-! The issuer's view of the statement, and the parsing of its income arguments. -/

namespace ZkUnderwrite.Issuer
open ByteString Serde

structure Statement where
  schema : String
  subjectId : String
  issuer : String
  currency : String
  issuedAt : UInt64
  periodMonths : UInt32
  monthlyNetIncome : List UInt64
deriving DecidableEq

def Statement.toJson (st : Statement) : Json :=
  .object [("schema", .string st.schema), ("subject_id", .string st.subjectId),
    ("issuer", .string st.issuer), ("currency", .string st.currency),
    ("issued_at", .ofU64 st.issuedAt), ("period_months", .ofU32 st.periodMonths),
    ("monthly_net_income", .ofVecU64 st.monthlyNetIncome)]

def buildStatement (subjectId issuer : String) (monthlyNetIncome : List UInt64)
    (issuedAt : UInt64) : Statement where
  schema := "zku.income.v1"
  subjectId := subjectId
  issuer := issuer
  currency := "USD"
  issuedAt := issuedAt
  periodMonths := UInt32.ofNat monthlyNetIncome.length
  monthlyNetIncome := monthlyNetIncome

/-! ## Parsing a `u64` -/

inductive ParseIntError where
  | empty
  | invalidDigit
  | posOverflow
deriving DecidableEq, Repr

def toDigit (c : UInt8) : Except ParseIntError UInt64 :=
  if 48 ≤ c ∧ c ≤ 57 then .ok (c - 48).toUInt64 else .error .invalidDigit

def checkedMul (a b : UInt64) : Except ParseIntError UInt64 :=
  if a.toNat * b.toNat < 2 ^ 64 then .ok (a * b) else .error .posOverflow

def checkedAdd (a b : UInt64) : Except ParseIntError UInt64 :=
  if a.toNat + b.toNat < 2 ^ 64 then .ok (a + b) else .error .posOverflow

def parseDigits : UInt64 → Bytes → Except ParseIntError UInt64
  | n, [] => .ok n
  | n, c :: rest => do
      let x ← toDigit c
      let n ← checkedMul n 10
      let n ← checkedAdd n x
      parseDigits n rest

/-- `str::parse::<u64>`: an optional plus sign, then decimal digits. -/
def parseU64 (s : String) : Except ParseIntError UInt64 :=
  match asBytes s with
  | [] => .error .empty
  | [c] => if c = 43 ∨ c = 45 then .error .invalidDigit else parseDigits 0 [c]
  | c :: rest => if c = 43 then parseDigits 0 rest else parseDigits 0 (c :: rest)

example : parseU64 "+4200" = .ok 4200 := by decide +kernel
example : parseU64 "18446744073709551616" = .error .posOverflow := by decide +kernel

end ZkUnderwrite.Issuer
