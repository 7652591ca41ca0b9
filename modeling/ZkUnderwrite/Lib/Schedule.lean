import Mathlib.Data.List.Induction
import ZkUnderwrite.Lib.Machine

/-!
# Jobs that wait

A job is unset, pending until a time, or done. A machine schedules its jobs when every step moves each of
them by one move at most. Then a pending job was scheduled once and has been waiting since, and a job that
is done was pending until it was due, is done for good and was executed once.
-/

namespace Schedule
open Machine

inductive Status (τ : Type*) where
  | unset
  | pending (due : τ)
  | done

/-- What can happen to a job at the time `now`. -/
inductive Move {τ : Type*} [LE τ] (now : τ) : Status τ → Status τ → Prop
  | schedule (due : τ) : Move now .unset (.pending due)
  | cancel (due : τ) : Move now (.pending due) .unset
  | execute (due : τ) (late : due ≤ now) : Move now (.pending due) .done

variable {σ ι ο κ τ : Type*} {step : σ → ι → ο × σ} {I : σ → Prop} {status : σ → κ → Status τ}
  {now : ι → τ} {s₀ : σ} {k : κ}

/-- The job is executed in the turn. -/
def Executed (status : σ → κ → Status τ) (k : κ) (t : Turn σ ι ο) : Prop :=
  status t.before k ≠ .done ∧ status t.after k = .done

/-- A job that is done was executed in one of the turns. -/
theorem exists_executed (hunset : status s₀ k = .unset) {is : List ι}
    (h : status (final step s₀ is) k = .done) : ∃ t ∈ turns step s₀ is, Executed status k t := by
  induction is using List.reverseRecOn with
  | nil => cases hunset.symm.trans h
  | append_singleton is i ih =>
      rw [final_concat] at h
      rw [turns_concat]
      by_cases hd : status (final step s₀ is) k = .done
      · obtain ⟨t, ht, he⟩ := ih hd
        exact ⟨t, List.mem_append_left _ ht, he⟩
      · exact ⟨_, List.mem_append_right _ List.mem_cons_self, hd, h⟩

variable [LE τ]

/-- The states in `I` are kept, and from them every step moves a job by one move at most. -/
structure Schedules (step : σ → ι → ο × σ) (I : σ → Prop) (status : σ → κ → Status τ)
    (now : ι → τ) : Prop where
  kept : ∀ s i, I s → I (step s i).2
  moves : ∀ s i k, I s → status (step s i).2 k = status s k ∨
    Move (now i) (status s k) (status (step s i).2 k)

/-- The input `j` after the inputs `before` schedules the job, and it waits during the inputs `since`. -/
structure Waits (step : σ → ι → ο × σ) (status : σ → κ → Status τ) (s₀ : σ) (k : κ) (due : τ)
    (before : List ι) (j : ι) (since : List ι) : Prop where
  unset : status (final step s₀ before) k = .unset
  pending : ∀ js, js <+: since → status (final step s₀ (before ++ j :: js)) k = .pending due

variable (H : Schedules step I status now)
include H

theorem Schedules.of_unset {s : σ} {i : ι} {due : τ} (hI : I s)
    (h : status (step s i).2 k = .pending due) :
    status s k = .pending due ∨ status s k = .unset := by
  rcases H.moves s i k hI with he | hm
  · exact .inl (he ▸ h)
  · rw [h] at hm
    generalize hs : status s k = a at hm
    cases hm
    exact .inr rfl

theorem Schedules.of_done {s : σ} {i : ι} (hI : I s) (h : status (step s i).2 k = .done) :
    status s k = .done ∨ ∃ due, status s k = .pending due ∧ due ≤ now i := by
  rcases H.moves s i k hI with he | hm
  · exact .inl (he ▸ h)
  · rw [h] at hm
    generalize hs : status s k = a at hm
    cases hm with
    | execute due late => exact .inr ⟨due, rfl, late⟩

theorem Schedules.done_kept {s : σ} {i : ι} (hI : I s) (h : status s k = .done) :
    status (step s i).2 k = .done := by
  rcases H.moves s i k hI with he | hm
  · exact he.trans h
  · rw [h] at hm
    cases hm

variable (h₀ : I s₀)
include h₀

/-- A pending job was scheduled on the way and has been waiting since. -/
theorem Schedules.waits (hunset : status s₀ k = .unset) {is : List ι} {due : τ}
    (h : status (final step s₀ is) k = .pending due) :
    ∃ before j since, is = before ++ j :: since ∧ Waits step status s₀ k due before j since := by
  induction is using List.reverseRecOn with
  | nil => cases hunset.symm.trans h
  | append_singleton is i ih =>
      have hI := invariant H.kept h₀ is
      have hlast := h
      rw [final_concat] at h
      rcases H.of_unset hI h with hp | hu
      · obtain ⟨before, j, since, rfl, hw⟩ := ih hp
        refine ⟨before, j, since ++ [i], by simp, hw.unset, fun js hjs => ?_⟩
        rcases List.prefix_concat_iff.mp hjs with rfl | hjs
        · simpa using hlast
        · exact hw.pending js hjs
      · refine ⟨is, i, [], rfl, hu, fun js hjs => ?_⟩
        cases List.prefix_nil.mp hjs
        exact hlast

/-- A job that is executed was due, after it had been scheduled and waiting all the time since. -/
theorem Schedules.executed (hunset : status s₀ k = .unset) {is : List ι} {i : ι}
    (h : Executed status k (turn step (final step s₀ is) i)) :
    ∃ due before j since, due ≤ now i ∧ is = before ++ j :: since ∧
      Waits step status s₀ k due before j since := by
  obtain ⟨hnot, hdone⟩ := h
  rcases H.of_done (invariant H.kept h₀ is) hdone with hd | ⟨due, hp, late⟩
  · exact absurd hd hnot
  · obtain ⟨before, j, since, his, hw⟩ := H.waits h₀ hunset hp
    exact ⟨due, before, j, since, late, his, hw⟩

/-- A job is executed at most once. -/
theorem Schedules.executed_once (is : List ι) :
    (turns step s₀ is).Pairwise fun t t' => Executed status k t → ¬ Executed status k t' :=
  at_most_once (D := fun s => status s k = .done) H.kept (fun _ _ _ h => h.2)
    (fun _ _ hI h => H.done_kept hI h) (fun _ _ _ hd h => h.1 hd) h₀ is

end Schedule
