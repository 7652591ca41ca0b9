import Mathlib.Tactic.TypeStar

/-!
# Computations with rollback

`Txn ε σ α` reads and writes a state `σ` and may stop with an error `ε`. `exec` shows the state at
the point where it stopped; `atomically` runs it as a transaction, where an error undoes all writes.
-/

namespace Transaction

variable {ε σ α β : Type}

abbrev Txn (ε σ α : Type) := ExceptT ε (StateM σ) α

theorem bind_eq_ok {m : Except ε α} {f : α → Except ε β} {b : β} :
    (m >>= f) = .ok b ↔ ∃ a, m = .ok a ∧ f a = .ok b := by
  cases m with
  | error e => exact iff_of_false (fun h => nomatch (h : Except.error e = .ok b)) nofun
  | ok a => exact ⟨fun h => ⟨a, rfl, h⟩, fun ⟨_, ha, h⟩ => Except.ok.inj ha ▸ h⟩

theorem mapError_eq_ok {ε' : Type} {f : ε → ε'} {r : Except ε α} {a : α} :
    r.mapError f = .ok a ↔ r = .ok a := by
  cases r with
  | error e => exact iff_of_false (fun h => nomatch (h : Except.error (f e) = .ok a)) nofun
  | ok b => exact ⟨fun h => congrArg _ (Except.ok.inj h), fun h => congrArg _ (Except.ok.inj h)⟩

theorem mapError_eq_error {ε' : Type} {f : ε → ε'} {r : Except ε α} {e' : ε'}
    (h : r.mapError f = .error e') : ∃ e, r = .error e ∧ e' = f e := by
  cases r with
  | error e => exact ⟨e, rfl, (Except.error.inj h).symm⟩
  | ok a => cases h

/-- A list of computations fails with the error of one of them. -/
theorem mapM_eq_error {f : α → Except ε β} {l : List α} {e : ε} (h : l.mapM f = .error e) :
    ∃ a ∈ l, f a = .error e := by
  induction l with
  | nil => cases h
  | cons a l ih =>
      rw [List.mapM_cons] at h
      cases ha : f a with
      | error e' =>
          rw [ha] at h
          cases h
          exact ⟨a, List.mem_cons_self, ha⟩
      | ok b =>
          rw [ha] at h
          cases hl : l.mapM f with
          | ok bs => rw [hl] at h; cases h
          | error e' =>
              rw [hl] at h
              cases h
              obtain ⟨c, hc, hf⟩ := ih hl
              exact ⟨c, List.mem_cons_of_mem _ hc, hf⟩

/-- The outcome and the state reached. After an error that is the state at the failing step. -/
def Txn.exec (m : Txn ε σ α) (s : σ) : Except ε α × σ := (m.run.run s).run

def atomically (m : Txn ε σ α) (s : σ) : Except ε α × σ :=
  match m.exec s with
  | (.ok a, s') => (.ok a, s')
  | (.error e, _) => (.error e, s)

namespace Txn

@[simp] theorem exec_pure (a : α) (s : σ) : (pure a : Txn ε σ α).exec s = (.ok a, s) := rfl

@[simp] theorem exec_throw (e : ε) (s : σ) : (throw e : Txn ε σ α).exec s = (.error e, s) := rfl

@[simp] theorem exec_get (s : σ) : (get : Txn ε σ σ).exec s = (.ok s, s) := rfl

@[simp] theorem exec_modify (f : σ → σ) (s : σ) :
    (modify f : Txn ε σ Unit).exec s = (.ok (), f s) := rfl

theorem exec_bind (m : Txn ε σ α) (f : α → Txn ε σ β) (s : σ) :
    (m >>= f).exec s =
      match m.exec s with
      | (.ok a, s') => (f a).exec s'
      | (.error e, s') => (.error e, s') := by
  change ((ExceptT.run m >>= fun r => ExceptT.bindCont f r).run s).run = _
  simp only [exec, StateT.run_bind]
  cases h : (StateT.run (ExceptT.run m) s).run with
  | mk r s' =>
      change ((StateT.run (ExceptT.bindCont f (StateT.run (ExceptT.run m) s).run.1)
        (StateT.run (ExceptT.run m) s).run.2)).run = _
      rw [h]
      cases r <;> rfl

theorem exec_bind_ok {m : Txn ε σ α} {s s' : σ} {a : α} (h : m.exec s = (.ok a, s'))
    (f : α → Txn ε σ β) : (m >>= f).exec s = (f a).exec s' := by
  rw [exec_bind, h]

theorem exec_bind_error {m : Txn ε σ α} {s s' : σ} {e : ε} (h : m.exec s = (.error e, s'))
    (f : α → Txn ε σ β) : (m >>= f).exec s = (.error e, s') := by
  rw [exec_bind, h]

theorem exec_bind_eq_ok {m : Txn ε σ α} {f : α → Txn ε σ β} {s s' : σ} {b : β} :
    (m >>= f).exec s = (.ok b, s') ↔
      ∃ a s₁, m.exec s = (.ok a, s₁) ∧ (f a).exec s₁ = (.ok b, s') := by
  rw [exec_bind]
  rcases m.exec s with ⟨e | a, s₁⟩
  · simp
  · constructor
    · exact fun h => ⟨a, s₁, rfl, h⟩
    · rintro ⟨_, _, h, hf⟩
      cases h
      exact hf

theorem exec_bind_eq_error {m : Txn ε σ α} {f : α → Txn ε σ β} {s s' : σ} {e : ε} :
    (m >>= f).exec s = (.error e, s') ↔ m.exec s = (.error e, s') ∨
      ∃ a s₁, m.exec s = (.ok a, s₁) ∧ (f a).exec s₁ = (.error e, s') := by
  rw [exec_bind]
  rcases m.exec s with ⟨e' | a, s₁⟩
  · simp
  · constructor
    · exact fun h => .inr ⟨a, s₁, rfl, h⟩
    · rintro (h | ⟨_, _, h, hf⟩)
      · cases h
      · cases h
        exact hf

theorem exec_map (m : Txn ε σ α) (f : α → β) (s : σ) :
    (m >>= fun a => pure (f a)).exec s = ((m.exec s).1.map f, (m.exec s).2) := by
  rw [exec_bind]
  rcases m.exec s with ⟨e | a, t⟩ <;> rfl

theorem exec_map_eq_ok {m : Txn ε σ α} {f : α → β} {s s' : σ} {b : β} :
    (m >>= fun a => pure (f a)).exec s = (.ok b, s') ↔
      ∃ a, m.exec s = (.ok a, s') ∧ f a = b := by
  rw [exec_bind]
  rcases m.exec s with ⟨e | a, t⟩
  · simp
  · constructor
    · intro h
      cases h
      exact ⟨a, rfl, rfl⟩
    · rintro ⟨_, h, rfl⟩
      cases h
      rfl

theorem exec_get_bind (f : σ → Txn ε σ α) (s : σ) :
    (do f (← get) : Txn ε σ α).exec s = (f s).exec s := rfl

theorem exec_throwIf_eq_ok {c : Prop} [Decidable c] {e : ε} {m : Txn ε σ α} {s s' : σ} {a : α} :
    (do if c then throw e
        m : Txn ε σ α).exec s = (.ok a, s') ↔ ¬ c ∧ m.exec s = (.ok a, s') := by
  split
  · rename_i hc
    rw [exec_bind_error (exec_throw e s)]
    exact iff_of_false nofun fun h => h.1 hc
  · rename_i hc
    exact ⟨fun h => ⟨hc, h⟩, fun h => h.2⟩

@[simp] theorem exec_ofExcept (r : Except ε α) (s : σ) :
    (MonadExcept.ofExcept r : Txn ε σ α).exec s = (r, s) := by
  cases r <;> rfl

theorem exec_ofExcept_eq {r x : Except ε α} {s s' : σ} :
    (MonadExcept.ofExcept r : Txn ε σ α).exec s = (x, s') ↔ r = x ∧ s' = s := by
  rw [exec_ofExcept, Prod.mk.injEq, eq_comm (a := s)]

/-- `map_err`: the same computation with its errors translated. -/
def mapError {ε' : Type} (f : ε → ε') (m : Txn ε σ α) : Txn ε' σ α := ExceptT.adapt f m

theorem exec_mapError {ε' : Type} (f : ε → ε') (m : Txn ε σ α) (s : σ) :
    (mapError f m).exec s = ((m.exec s).1.mapError f, (m.exec s).2) := by
  change ((Except.mapError f <$> ExceptT.run m).run s).run = _
  rw [StateT.run_map]
  rfl

theorem exec_mapError_eq_ok {ε' : Type} {f : ε → ε'} {m : Txn ε σ α} {s s' : σ} {a : α} :
    (mapError f m).exec s = (.ok a, s') ↔ m.exec s = (.ok a, s') := by
  rw [exec_mapError, Prod.ext_iff, Prod.ext_iff]
  exact and_congr_left' mapError_eq_ok

theorem exec_mapError_eq_error {ε' : Type} {f : ε → ε'} {m : Txn ε σ α} {s s' : σ} {e' : ε'}
    (h : (mapError f m).exec s = (.error e', s')) : ∃ e, m.exec s = (.error e, s') ∧ e' = f e := by
  rw [exec_mapError] at h
  rcases hm : m.exec s with ⟨e | a, t⟩ <;> rw [hm] at h
  · cases h
    exact ⟨e, rfl, rfl⟩
  · cases h

end Txn

theorem atomically_eq_ok {m : Txn ε σ α} {s s' : σ} {a : α} :
    atomically m s = (.ok a, s') ↔ m.exec s = (.ok a, s') := by
  unfold atomically
  constructor
  · intro h
    split at h
    · rename_i b t hm; rw [hm]; exact h
    · cases h
  · intro h; rw [h]

theorem atomically_of_error {m : Txn ε σ α} {s s' : σ} {e : ε} (h : m.exec s = (.error e, s')) :
    atomically m s = (.error e, s) := by
  unfold atomically
  rw [h]

/-- The outcome is that of the computation; an error additionally restores the state. -/
theorem atomically_fst (m : Txn ε σ α) (s : σ) : (atomically m s).1 = (m.exec s).1 := by
  unfold atomically
  split <;> rename_i h <;> rw [h]

theorem atomically_snd_of_error {m : Txn ε σ α} {s : σ} {e : ε} (h : (m.exec s).1 = .error e) :
    (atomically m s).2 = s := by
  unfold atomically
  split
  · rename_i hm; rw [hm] at h; cases h
  · rfl

end Transaction
