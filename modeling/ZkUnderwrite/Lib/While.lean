import Mathlib.Data.Nat.Basic

/-!
# Bounded while loops

`whileFuel guard body n` runs at most `n` rounds of `while guard { body }`, where a round may stop
the loop with an error. `Exits` says that the rounds were enough: the loop was left by its guard or
by an error, and more fuel changes nothing.
-/

namespace WhileLoop

variable {σ ε : Type*} {guard : σ → Bool} {body : σ → Except ε σ}

def whileFuel (guard : σ → Bool) (body : σ → Except ε σ) : Nat → σ → Except ε σ
  | 0, s => .ok s
  | n + 1, s =>
      if guard s then
        match body s with
        | .ok s' => whileFuel guard body n s'
        | .error e => .error e
      else .ok s

/-- `n` rounds from `s` are enough for the loop to end. -/
def Exits (guard : σ → Bool) (body : σ → Except ε σ) (n : Nat) (s : σ) : Prop :=
  ∀ s', whileFuel guard body n s = .ok s' → guard s' = false

theorem whileFuel_done {s : σ} (h : guard s = false) (n : Nat) :
    whileFuel guard body n s = .ok s := by
  cases n <;> simp [whileFuel, h]

theorem whileFuel_round {s s' : σ} {n : Nat} (hg : guard s = true) (hb : body s = .ok s') :
    whileFuel guard body (n + 1) s = whileFuel guard body n s' := by
  simp [whileFuel, hg, hb]

theorem whileFuel_error {s : σ} {e : ε} {n : Nat} (hg : guard s = true) (hb : body s = .error e) :
    whileFuel guard body (n + 1) s = .error e := by
  simp [whileFuel, hg, hb]

/-- What every round keeps holds of the state in which the rounds end. -/
theorem whileFuel_invariant {I : σ → Prop}
    (hstep : ∀ s s', I s → guard s = true → body s = .ok s' → I s') {n : Nat} {s s' : σ}
    (hI : I s) (h : whileFuel guard body n s = .ok s') : I s' := by
  induction n generalizing s with
  | zero =>
      cases h
      exact hI
  | succ n ih =>
      cases hg : guard s with
      | false =>
          rw [whileFuel_done hg] at h
          cases h
          exact hI
      | true =>
          cases hb : body s with
          | error e => rw [whileFuel_error hg hb] at h; cases h
          | ok t =>
              rw [whileFuel_round hg hb] at h
              exact ih (hstep s t hI hg hb) h

/-- A variant that is positive while the loop goes on, and that each round lowers, bounds the
number of rounds. -/
theorem exits_of_variant (m : σ → Nat) (hpos : ∀ s, guard s = true → 0 < m s)
    (hdec : ∀ s s', guard s = true → body s = .ok s' → m s' < m s) {n : Nat} {s : σ}
    (hn : m s ≤ n) : Exits guard body n s := by
  induction n generalizing s with
  | zero =>
      intro s' h
      cases h
      by_contra hg
      have := hpos s (by simpa using hg)
      omega
  | succ n ih =>
      intro s' h
      cases hg : guard s with
      | false =>
          rw [whileFuel_done hg] at h
          cases h
          exact hg
      | true =>
          cases hb : body s with
          | error e => rw [whileFuel_error hg hb] at h; cases h
          | ok t =>
              rw [whileFuel_round hg hb] at h
              have := hdec s t hg hb
              exact ih (by omega) s' h

/-- A loop that has ended is not changed by more fuel. -/
theorem Exits.whileFuel_add {n : Nat} {s : σ} (h : Exits guard body n s) (k : Nat) :
    whileFuel guard body (n + k) s = whileFuel guard body n s := by
  induction n generalizing s with
  | zero => rw [whileFuel_done (h s rfl), whileFuel_done (h s rfl)]
  | succ n ih =>
      rw [Nat.add_right_comm]
      cases hg : guard s with
      | false => rw [whileFuel_done hg, whileFuel_done hg]
      | true =>
          cases hb : body s with
          | error e => rw [whileFuel_error hg hb, whileFuel_error hg hb]
          | ok t =>
              rw [whileFuel_round hg hb, whileFuel_round hg hb]
              exact ih fun s' hs' => h s' (by rw [whileFuel_round hg hb]; exact hs')

/-! ## Loops that count -/

section
variable {c : σ → Nat} {N : Nat} {I : σ → Prop}

/-- A loop `while c < N` whose rounds keep `I` and count `c` up ends with `c = N`. -/
theorem whileFuel_count (hg : ∀ s, guard s = decide (c s < N))
    (hstep : ∀ s, I s → c s < N → ∃ s', body s = .ok s' ∧ I s' ∧ c s' = c s + 1) {n : Nat} {s : σ}
    (hI : I s) (hc : c s ≤ N) (hn : N ≤ c s + n) :
    ∃ s', whileFuel guard body n s = .ok s' ∧ I s' ∧ c s' = N := by
  induction n generalizing s with
  | zero => exact ⟨s, rfl, hI, by omega⟩
  | succ n ih =>
      by_cases h : c s < N
      · obtain ⟨t, hb, hIt, hct⟩ := hstep s hI h
        rw [whileFuel_round (by simpa [hg] using h) hb]
        exact ih hIt (by omega) (by omega)
      · rw [whileFuel_done (by simpa [hg] using h)]
        exact ⟨s, rfl, hI, by omega⟩

theorem exits_of_count (hg : ∀ s, guard s = decide (c s < N))
    (hstep : ∀ s s', body s = .ok s' → c s' = c s + 1) {n : Nat} {s : σ} (hn : N ≤ c s + n) :
    Exits guard body n s := by
  refine exits_of_variant (fun s => N - c s) (fun s h => ?_) (fun s s' h hb => ?_) (by omega)
  · rw [hg, decide_eq_true_iff] at h
    omega
  · rw [hg, decide_eq_true_iff] at h
    have := hstep s s' hb
    omega

/-- Such a loop fails when the round at some `M < N` does. -/
theorem whileFuel_count_error {M : Nat} {e : ε} (hM : M < N) (hg : ∀ s, guard s = decide (c s < N))
    (hstep : ∀ s, I s → c s < M → ∃ s', body s = .ok s' ∧ I s' ∧ c s' = c s + 1)
    (herr : ∀ s, I s → c s = M → body s = .error e) {n : Nat} {s : σ}
    (hI : I s) (hc : c s ≤ M) (hn : N ≤ c s + n) : whileFuel guard body n s = .error e := by
  induction n generalizing s with
  | zero => omega
  | succ n ih =>
      have hgs : guard s = true := by rw [hg]; exact decide_eq_true (by omega)
      by_cases h : c s < M
      · obtain ⟨t, hb, hIt, hct⟩ := hstep s hI h
        rw [whileFuel_round hgs hb]
        exact ih hIt (by omega) (by omega)
      · exact whileFuel_error hgs (herr s hI (by omega))

/-- However many rounds it makes, such a loop never counts beyond the round at `M` that fails. -/
theorem whileFuel_count_invariant {M : Nat} {e : ε} (hg : ∀ s, guard s = decide (c s < N))
    (hstep : ∀ s, I s → c s < N → c s < M → ∃ s', body s = .ok s' ∧ I s' ∧ c s' = c s + 1)
    (herr : ∀ s, I s → c s = M → body s = .error e) {n : Nat} {s s' : σ} (hI : I s)
    (hc : c s ≤ M) (h : whileFuel guard body n s = .ok s') : I s' ∧ c s' ≤ M := by
  refine whileFuel_invariant (I := fun s => I s ∧ c s ≤ M) (fun s s' hs hgs hb => ?_) ⟨hI, hc⟩ h
  rw [hg, decide_eq_true_iff] at hgs
  obtain ⟨hIs, hle⟩ := hs
  rcases Nat.lt_or_eq_of_le hle with hlt | heq
  · obtain ⟨t, ht, hIt, hct⟩ := hstep s hIs hgs hlt
    cases Except.ok.inj (ht.symm.trans hb)
    exact ⟨hIt, by omega⟩
  · rw [herr s hIs heq] at hb
    cases hb

end

end WhileLoop
