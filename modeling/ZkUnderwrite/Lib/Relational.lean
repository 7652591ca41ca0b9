import ZkUnderwrite.Lib.Transaction

/-!
# Two runs of a computation

`Alike R m m' s t` compares `m` run from `s` with `m'` run from `t`: the same outcome, in states that
are related by `R`. `Blind R m` says that `m` does not see the difference between related states.
-/

namespace Transaction

variable {ε σ α β : Type} {R : σ → σ → Prop}

def Alike (R : σ → σ → Prop) (m m' : Txn ε σ α) (s t : σ) : Prop :=
  (m.exec s).1 = (m'.exec t).1 ∧ R (m.exec s).2 (m'.exec t).2

def Blind (R : σ → σ → Prop) (m : Txn ε σ α) : Prop := ∀ s t, R s t → Alike R m m s t

/-- First parts that are alike, followed by continuations that are. -/
theorem Alike.bind {m m' : Txn ε σ α} {f f' : α → Txn ε σ β} {s t : σ} (h : Alike R m m' s t)
    (hf : ∀ a s' t', m.exec s = (.ok a, s') → m'.exec t = (.ok a, t') → R s' t' →
      Alike R (f a) (f' a) s' t') : Alike R (m >>= f) (m' >>= f') s t := by
  obtain ⟨hfst, hsnd⟩ := h
  unfold Alike
  rw [Txn.exec_bind, Txn.exec_bind]
  rcases hm : m.exec s with ⟨e | a, s'⟩ <;> rcases hm' : m'.exec t with ⟨e' | a', t'⟩ <;>
    rw [hm, hm'] at hfst hsnd
  · cases hfst
    exact ⟨rfl, hsnd⟩
  · cases hfst
  · cases hfst
  · cases hfst
    exact hf a s' t' hm hm' hsnd

/-- First parts that only read, and read the same. -/
theorem Alike.bind_read {m m' : Txn ε σ α} {f f' : α → Txn ε σ β} {s t : σ}
    (hfst : (m.exec s).1 = (m'.exec t).1) (hs : (m.exec s).2 = s) (ht : (m'.exec t).2 = t)
    (hR : R s t) (hf : ∀ a, (m.exec s).1 = .ok a → Alike R (f a) (f' a) s t) :
    Alike R (m >>= f) (m' >>= f') s t := by
  refine Alike.bind ⟨hfst, by rwa [hs, ht]⟩ fun a s' t' hm hm' _ => ?_
  have hs' : s' = s := by rw [← hs, hm]
  have ht' : t' = t := by rw [← ht, hm']
  rw [hs', ht']
  exact hf a (congrArg Prod.fst hm)

theorem blind_pure (a : α) : Blind R (pure a : Txn ε σ α) := fun _ _ h => ⟨rfl, h⟩

theorem blind_throw (e : ε) : Blind R (throw e : Txn ε σ α) := fun _ _ h => ⟨rfl, h⟩

theorem blind_modify {f : σ → σ} (hf : ∀ s t, R s t → R (f s) (f t)) :
    Blind R (modify f : Txn ε σ Unit) := fun s t h => ⟨rfl, hf s t h⟩

theorem Blind.bind {m : Txn ε σ α} {f : α → Txn ε σ β} (hm : Blind R m) (hf : ∀ a, Blind R (f a)) :
    Blind R (m >>= f) :=
  fun s t h => (hm s t h).bind fun a s' t' _ _ hR => hf a s' t' hR

/-- Of two transactions that are alike both are undone or neither is. -/
theorem Alike.atomically {m m' : Txn ε σ α} {s t : σ} (h : Alike R m m' s t) (hR : R s t) :
    (atomically m s).1 = (atomically m' t).1 ∧ R (atomically m s).2 (atomically m' t).2 := by
  refine ⟨by rw [atomically_fst, atomically_fst, h.1], ?_⟩
  obtain ⟨hfst, hsnd⟩ := h
  cases hm : (m.exec s).1 with
  | error e =>
      rw [atomically_snd_of_error hm, atomically_snd_of_error (hfst.symm.trans hm)]
      exact hR
  | ok a =>
      rw [atomically_eq_ok.mpr (Prod.ext hm rfl),
        atomically_eq_ok.mpr (Prod.ext (hfst.symm.trans hm) rfl)]
      exact hsnd

end Transaction
