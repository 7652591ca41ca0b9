import ZkUnderwrite.Lib.BigEndian
import ZkUnderwrite.Lib.Serde

/-! The guest's view of the signed statement. -/

namespace ZkUnderwrite.Guest
open ByteString Serde

/-- A string in the guest's 32-bit address space. -/
structure GuestString where
  val : String
  length_lt : (asBytes val).length < 2 ^ 32
deriving DecidableEq

def GuestString.of (s : String) : Option GuestString :=
  if h : (asBytes s).length < 2 ^ 32 then some ⟨s, h⟩ else none

def GuestString.asBytes (s : GuestString) : Bytes := ByteString.asBytes s.val

structure Statement where
  schema : GuestString
  subjectId : GuestString
  issuer : GuestString
  currency : GuestString
  issuedAt : UInt64
  period : UInt64
  periodMonths : UInt32
  monthlyNetIncome : List UInt64
deriving DecidableEq

def statementFields : List String :=
  ["schema", "subject_id", "issuer", "currency", "issued_at", "period", "period_months",
    "monthly_net_income"]

/-- The derived `Deserialize`. -/
def Statement.fromJson (j : Json) : Option Statement := do
  match ← j.fields statementFields with
  | [schema, subjectId, issuer, currency, issuedAt, period, periodMonths, monthlyNetIncome] =>
      return {
        schema := ← schema.asString.bind GuestString.of
        subjectId := ← subjectId.asString.bind GuestString.of
        issuer := ← issuer.asString.bind GuestString.of
        currency := ← currency.asString.bind GuestString.of
        issuedAt := ← issuedAt.asU64
        period := ← period.asU64
        periodMonths := ← periodMonths.asU32
        monthlyNetIncome := ← monthlyNetIncome.asVecU64 }
  | _ => none

/-! ## The nullifier -/

structure Scope where
  subjectId : GuestString
  issuer : GuestString
  period : UInt64
deriving DecidableEq

def Statement.scope (st : Statement) : Scope := ⟨st.subjectId, st.issuer, st.period⟩

def Scope.preimage (s : Scope) : Bytes :=
  lengthPrefixed 4 s.subjectId.asBytes ++ lengthPrefixed 4 s.issuer.asBytes ++
    beBytes 8 s.period.toNat

end ZkUnderwrite.Guest
