import Mathlib.Data.Finset.Card
import Mathlib.Data.List.Perm.Basic
import ZkUnderwrite.Lib.Machine

/-!
# Spending from a budget

An abstract payer: it pays a fixed amount `A` for each key, once for each key and as long as its
budget covers the amount. How many keys of a list it pays depends only on how many different ones
there are and on how many payments the budget covers.
-/

namespace Spend
open Machine

variable {κ : Type*} [DecidableEq κ]

structure State (κ : Type*) where
  spent : Finset κ
  budget : ℤ

/-- Pay for the key `k`, or refuse. -/
def pay (A : ℤ) (s : State κ) (k : κ) : Bool × State κ :=
  if k ∈ s.spent ∨ s.budget < A then (false, s) else (true, ⟨insert k s.spent, s.budget - A⟩)

variable {A : ℤ} {s : State κ} {k : κ}

theorem pay_of_spent (h : k ∈ s.spent) : pay A s k = (false, s) := if_pos (.inl h)

theorem pay_of_lt (h : s.budget < A) : pay A s k = (false, s) := if_pos (.inr h)

theorem pay_of_le (hk : k ∉ s.spent) (h : A ≤ s.budget) :
    pay A s k = (true, ⟨insert k s.spent, s.budget - A⟩) :=
  if_neg (not_or.mpr ⟨hk, Int.not_lt.mpr h⟩)

abbrev paid (A : ℤ) (s : State κ) (ks : List κ) : List κ := accepted (pay A) id s ks

theorem paid_cons_of_refused (h : pay A s k = (false, s)) (ks : List κ) :
    paid A s (k :: ks) = paid A s ks := by
  simp [paid, accepted, h]

theorem paid_cons_of_le (hk : k ∉ s.spent) (h : A ≤ s.budget) (ks : List κ) :
    paid A s (k :: ks) = k :: paid A ⟨insert k s.spent, s.budget - A⟩ ks := by
  simp [paid, accepted, pay_of_le hk h]

theorem not_spent_of_mem_paid {ks : List κ} (h : k ∈ paid A s ks) : k ∉ s.spent := by
  induction ks generalizing s with
  | nil => cases h
  | cons j ks ih =>
      by_cases hj : j ∈ s.spent
      · rw [paid_cons_of_refused (pay_of_spent hj)] at h
        exact ih h
      · rcases Int.lt_or_le s.budget A with hlt | hle
        · rw [paid_cons_of_refused (pay_of_lt hlt)] at h
          exact ih h
        · rw [paid_cons_of_le hj hle] at h
          rcases List.mem_cons.mp h with rfl | h
          · exact hj
          · exact fun hk => ih h (Finset.mem_insert_of_mem hk)

theorem nodup_paid (ks : List κ) : (paid A s ks).Nodup := by
  induction ks generalizing s with
  | nil => exact List.nodup_nil
  | cons j ks ih =>
      by_cases hj : j ∈ s.spent
      · rw [paid_cons_of_refused (pay_of_spent hj)]
        exact ih
      · rcases Int.lt_or_le s.budget A with hlt | hle
        · rw [paid_cons_of_refused (pay_of_lt hlt)]
          exact ih
        · rw [paid_cons_of_le hj hle]
          exact List.nodup_cons.mpr
            ⟨fun h => not_spent_of_mem_paid h (Finset.mem_insert_self _ _), ih⟩

theorem card_sdiff_cons_of_mem {S : Finset κ} (h : k ∈ S) (ks : List κ) :
    ((k :: ks).toFinset \ S).card = (ks.toFinset \ S).card := by
  rw [List.toFinset_cons, Finset.insert_sdiff_of_mem _ h]

theorem card_sdiff_cons_of_notMem {S : Finset κ} (h : k ∉ S) (ks : List κ) :
    ((k :: ks).toFinset \ S).card = (ks.toFinset \ insert k S).card + 1 := by
  have hins : (k :: ks).toFinset \ S = insert k (ks.toFinset \ insert k S) := by
    ext x
    simp only [List.toFinset_cons, Finset.mem_sdiff, Finset.mem_insert, not_or]
    by_cases hx : x = k
    · subst hx; simp [h]
    · simp [hx]
  rw [hins, Finset.card_insert_of_notMem (by simp)]

theorem toNat_ediv_of_lt {B : ℤ} (hA : 0 < A) (h : B < A) : (B / A).toNat = 0 := by
  have hlt : B / A < 1 := (Int.ediv_lt_iff_lt_mul hA).mpr (by omega)
  omega

theorem toNat_ediv_of_le {B : ℤ} (hA : 0 < A) (h : A ≤ B) :
    (B / A).toNat = ((B - A) / A).toNat + 1 := by
  have hdiv : (B - A + 1 * A) / A = (B - A) / A + 1 := Int.add_mul_ediv_right _ _ (by omega)
  have hnn : 0 ≤ (B - A) / A := Int.ediv_nonneg (by omega) (by omega)
  rw [show B - A + 1 * A = B by omega] at hdiv
  omega

/-- The number of payments: the different unspent keys, up to what the budget covers. -/
theorem length_paid (hA : 0 < A) (ks : List κ) :
    (paid A s ks).length = min (ks.toFinset \ s.spent).card (s.budget / A).toNat := by
  induction ks generalizing s with
  | nil => simp [paid, accepted]
  | cons k ks ih =>
      by_cases hk : k ∈ s.spent
      · rw [paid_cons_of_refused (pay_of_spent hk), ih, card_sdiff_cons_of_mem hk]
      · rcases Int.lt_or_le s.budget A with hlt | hle
        · rw [paid_cons_of_refused (pay_of_lt hlt), ih, toNat_ediv_of_lt hA hlt, Nat.min_zero,
            Nat.min_zero]
        · rw [paid_cons_of_le hk hle, List.length_cons, ih, card_sdiff_cons_of_notMem hk,
            toNat_ediv_of_le hA hle, Nat.add_min_add_right]

end Spend
