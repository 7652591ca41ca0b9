import ZkUnderwrite.Contract.Host

/-!
# Token contracts

What is assumed of the token contracts, and a ledger that meets the assumptions.
-/

namespace ZkUnderwrite.Contract

variable {τ : Type}

/-- A transfer moves exactly the amount and touches no other balance. -/
structure StandardToken (P : Platform τ) : Prop where
  moves {u t a b n t'} : P.transfer u t a b n = some t' → ∀ v c,
    P.balance v t' c = P.balance v t c - (if v = u ∧ c = a then n else 0) +
      (if v = u ∧ c = b then n else 0)

/-- Moreover a transfer fails exactly when the sender does not hold the amount. -/
structure FundedToken (P : Platform τ) : Prop extends StandardToken P where
  funded {u t a b n} : 0 ≤ n → ((P.transfer u t a b n).isSome = true ↔ n ≤ P.balance u t a)

namespace StandardToken
variable {P : Platform τ} (h : StandardToken P) {u a b : Address} {t t' : τ} {n : Int}
include h

theorem sender (ht : P.transfer u t a b n = some t') (hab : a ≠ b) :
    P.balance u t' a = P.balance u t a - n := by
  rw [h.moves ht]
  simp [hab]

theorem other_token (ht : P.transfer u t a b n = some t') {v : Address} (hv : v ≠ u)
    (c : Address) : P.balance v t' c = P.balance v t c := by
  rw [h.moves ht]
  simp [hv]

end StandardToken

/-! ## A ledger of balances -/

abbrev Ledger := Address → Address → Int

namespace Ledger

def add (l : Ledger) (u a : Address) (n : Int) : Ledger := fun v c =>
  l v c + if v = u ∧ c = a then n else 0

def transfer (u : Address) (l : Ledger) (a b : Address) (n : Int) : Option Ledger :=
  if 0 ≤ n ∧ n ≤ l u a then some ((l.add u a (-n)).add u b n) else none

end Ledger

def Platform.ofLedger (self : Address) (sha256 : ByteString.Bytes → ByteString.BytesN 32) :
    Platform Ledger :=
  ⟨self, sha256, fun u l a => l u a, Ledger.transfer⟩

theorem fundedToken_ofLedger (self : Address)
    (sha256 : ByteString.Bytes → ByteString.BytesN 32) :
    FundedToken (Platform.ofLedger self sha256) where
  moves := by
    intro u t a b n t' ht v c
    simp only [Platform.ofLedger, Ledger.transfer] at ht
    split at ht
    · cases ht
      simp only [Platform.ofLedger, Ledger.add]
      split <;> omega
    · cases ht
  funded := by
    intro u t a b n hn
    simp only [Platform.ofLedger, Ledger.transfer]
    split <;> simp_all

end ZkUnderwrite.Contract
