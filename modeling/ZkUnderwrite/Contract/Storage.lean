import Mathlib.Logic.Function.Basic
import ZkUnderwrite.Lib.Bytes

/-!
# The contract's storage

`DataKey` and the type of the value under each key. The contract has two stores of key-value
entries, instance and persistent; `inst` and `pers` model the two.
-/

namespace ZkUnderwrite.Contract
open ByteString

structure Address where
  id : Nat
deriving DecidableEq, Repr

inductive Error where
  | notInitialized
  | alreadyInitialized
  | badJournalLength
  | issuerNotRegistered
  | thresholdTooLow
  | incomeBelowThreshold
  | nullifierAlreadyUsed
  | invalidCreditAmount
  | invalidThreshold
  | invalidImageId
  | badJournal
  | noPendingAdmin
deriving DecidableEq, Repr

inductive DataKey where
  | admin
  | pendingAdmin
  | router
  | imageId
  | usdc
  | requiredThreshold
  | creditAmount
  | issuer (hash : BytesN 32)
  | nullifier (n : BytesN 32)
  | creditLine (borrower : Address)
deriving DecidableEq

/-- The type of the value under a key. An `i128` amount is an `Int`: the contract compares and
passes on the amount and does no arithmetic on it. -/
def DataKey.Value : DataKey → Type
  | .admin | .pendingAdmin | .router | .usdc => Address
  | .imageId => BytesN 32
  | .requiredThreshold => UInt64
  | .creditAmount | .creditLine _ => Int
  | .issuer _ | .nullifier _ => Bool

abbrev Store := (k : DataKey) → Option k.Value

namespace Store

def empty : Store := fun _ => none

def set (s : Store) (k : DataKey) (v : k.Value) : Store := Function.update s k (some v)

def remove (s : Store) (k : DataKey) : Store := Function.update s k none

def has (s : Store) (k : DataKey) : Bool := (s k).isSome

@[simp] theorem set_self (s : Store) (k : DataKey) (v : k.Value) : s.set k v k = some v :=
  Function.update_self _ _ _

theorem set_of_ne {s : Store} {k k' : DataKey} {v : k.Value} (h : k' ≠ k) : s.set k v k' = s k' :=
  Function.update_of_ne h _ _

@[simp] theorem remove_self (s : Store) (k : DataKey) : s.remove k k = none :=
  Function.update_self _ _ _

theorem remove_of_ne {s : Store} {k k' : DataKey} (h : k' ≠ k) : s.remove k k' = s k' :=
  Function.update_of_ne h _ _

theorem has_set (s : Store) (k : DataKey) (v : k.Value) (k' : DataKey) :
    (s.set k v).has k' = (decide (k' = k) || s.has k') := by
  unfold has
  by_cases h : k' = k
  · subst h; simp
  · simp [set_of_ne h, h]

end Store

structure Storage where
  inst : Store
  pers : Store

def Storage.empty : Storage := ⟨Store.empty, Store.empty⟩

end ZkUnderwrite.Contract
