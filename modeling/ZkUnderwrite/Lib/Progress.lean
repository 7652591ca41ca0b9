import Mathlib.Logic.Function.Basic
import ZkUnderwrite.Lib.Machine

/-!
# Tables whose entries only advance

`Advances R o o'` says that an entry which was there is still there and has moved along `R`. When every
step of a machine moves its state along a preorder, so does every run, and two states of one run are
comparable.
-/

namespace Progress

variable {α κ : Type*} {R : α → α → Prop} {o o' o'' : Option α}

def Advances (R : α → α → Prop) (o o' : Option α) : Prop :=
  ∀ a, o = some a → ∃ a', o' = some a' ∧ R a a'

theorem advances_none : Advances R none o := nofun

theorem advances_some {a a' : α} : Advances R (some a) (some a') ↔ R a a' := by
  constructor
  · intro h
    obtain ⟨b, hb, hR⟩ := h a rfl
    cases hb
    exact hR
  · rintro h b ⟨⟩
    exact ⟨a', rfl, h⟩

theorem Advances.refl (hR : ∀ a, R a a) (o : Option α) : Advances R o o := fun a h => ⟨a, h, hR a⟩

theorem Advances.trans (hR : ∀ a b c, R a b → R b c → R a c) (h : Advances R o o')
    (h' : Advances R o' o'') : Advances R o o'' := by
  intro a ha
  obtain ⟨b, hb, hab⟩ := h a ha
  obtain ⟨c, hc, hbc⟩ := h' b hb
  exact ⟨c, hc, hR a b c hab hbc⟩

/-- Writing one entry of a table advances the table when it advances that entry. -/
theorem advances_update [DecidableEq κ] (hR : ∀ a, R a a) {t : κ → Option α} {k : κ} {v : α}
    (h : Advances R (t k) (some v)) (k' : κ) :
    Advances R (t k') (Function.update t k (some v) k') := by
  by_cases hk : k' = k
  · subst hk
    rwa [Function.update_self]
  · rw [Function.update_of_ne hk]
    exact Advances.refl hR _

end Progress

namespace Machine

variable {σ ι ο : Type*} {step : σ → ι → ο × σ} {R : σ → σ → Prop}

section
variable (hrefl : ∀ s, R s s) (htrans : ∀ a b c, R a b → R b c → R a c)
  (hstep : ∀ s i, R s (step s i).2)
include hrefl htrans hstep

theorem final_rel (s : σ) (is : List ι) : R s (final step s is) := by
  induction is generalizing s with
  | nil => exact hrefl s
  | cons i is ih => exact htrans _ _ _ (hstep s i) (ih _)

/-- The states of one run come one after the other. -/
theorem prefix_total (s : σ) {js js' is : List ι} (h : js <+: is) (h' : js' <+: is) :
    R (final step s js) (final step s js') ∨ R (final step s js') (final step s js) := by
  rcases List.prefix_or_prefix_of_prefix h h' with ⟨rest, rfl⟩ | ⟨rest, rfl⟩
  · rw [final_append]
    exact .inl (final_rel hrefl htrans hstep _ rest)
  · rw [final_append]
    exact .inr (final_rel hrefl htrans hstep _ rest)

end

end Machine
