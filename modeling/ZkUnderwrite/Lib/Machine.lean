import Mathlib.Data.List.Induction

/-!
# Deterministic state machines with outputs

A machine is a function `step : σ → ι → ο × σ`. `final` is the state after a list of inputs, `turns`
the transitions taken on the way, oldest first. The rules below reduce a property of all runs to
one step: an invariant of the state, an invariant of the state and the turns so far, and a state
component that only certain turns write.
-/

namespace Machine

/-- One transition: the state and input it started from, its output and the state it led to. -/
structure Turn (σ ι ο : Type*) where
  before : σ
  input : ι
  output : ο
  after : σ

variable {σ ι ο α : Type*} (step : σ → ι → ο × σ)

def turn (s : σ) (i : ι) : Turn σ ι ο := ⟨s, i, (step s i).1, (step s i).2⟩

def final : σ → List ι → σ
  | s, [] => s
  | s, i :: is => final (step s i).2 is

def turns : σ → List ι → List (Turn σ ι ο)
  | _, [] => []
  | s, i :: is => turn step s i :: turns (step s i).2 is

def Reachable (s₀ s : σ) : Prop := ∃ is, final step s₀ is = s

theorem final_append (s : σ) (is js : List ι) :
    final step s (is ++ js) = final step (final step s is) js := by
  induction is generalizing s with
  | nil => rfl
  | cons i is ih => exact ih _

theorem turns_append (s : σ) (is js : List ι) :
    turns step s (is ++ js) = turns step s is ++ turns step (final step s is) js := by
  induction is generalizing s with
  | nil => rfl
  | cons i is ih => exact congrArg (turn step s i :: ·) (ih _)

theorem final_concat (s : σ) (is : List ι) (i : ι) :
    final step s (is ++ [i]) = (step (final step s is) i).2 := final_append step s is [i]

theorem turns_concat (s : σ) (is : List ι) (i : ι) :
    turns step s (is ++ [i]) = turns step s is ++ [turn step (final step s is) i] :=
  turns_append step s is [i]

variable {step}

/-! ## Invariants -/

/-- Every input of a run satisfies `ok` in the state that receives it. -/
def Admissible (step : σ → ι → ο × σ) (ok : σ → ι → Prop) (s : σ) (is : List ι) : Prop :=
  ∀ t ∈ turns step s is, ok t.before t.input

theorem input_mem_of_mem_turns {s : σ} {is : List ι} {t : Turn σ ι ο} (h : t ∈ turns step s is) :
    t.input ∈ is := by
  induction is generalizing s with
  | nil => cases h
  | cons i is ih =>
      rcases List.mem_cons.mp h with rfl | h
      · exact List.mem_cons_self
      · exact List.mem_cons_of_mem _ (ih h)

/-- A turn of a run is the last one of an initial part of it. -/
theorem exists_of_mem_turns {s : σ} {is : List ι} {t : Turn σ ι ο} (h : t ∈ turns step s is) :
    ∃ is₁ i is₂, is = is₁ ++ i :: is₂ ∧ t = turn step (final step s is₁) i := by
  induction is generalizing s with
  | nil => cases h
  | cons i is ih =>
      rcases List.mem_cons.mp h with rfl | h
      · exact ⟨[], i, is, rfl, rfl⟩
      · obtain ⟨is₁, j, is₂, rfl, ht⟩ := ih h
        exact ⟨i :: is₁, j, is₂, rfl, ht⟩

theorem admissible_of_forall_mem {ok : σ → ι → Prop} {s : σ} {is : List ι}
    (h : ∀ s, ∀ i ∈ is, ok s i) : Admissible step ok s is :=
  fun t ht => h t.before t.input (input_mem_of_mem_turns ht)

theorem admissible_concat {ok : σ → ι → Prop} {s : σ} {is : List ι} {i : ι} :
    Admissible step ok s (is ++ [i]) ↔
      Admissible step ok s is ∧ ok (final step s is) i := by
  simp only [Admissible, turns_concat, List.mem_append, List.mem_singleton, or_imp, forall_and,
    forall_eq, turn]

/-- What holds initially and is kept by every turn holds of the turns and final state of every run. -/
theorem history_invariant {ok : σ → ι → Prop} {J : List (Turn σ ι ο) → σ → Prop} {s₀ : σ}
    (h₀ : J [] s₀)
    (hstep : ∀ h s i, J h s → ok s i → J (h ++ [turn step s i]) (step s i).2) {is : List ι}
    (hok : Admissible step ok s₀ is) : J (turns step s₀ is) (final step s₀ is) := by
  induction is using List.reverseRecOn with
  | nil => exact h₀
  | append_singleton is i ih =>
      obtain ⟨his, hi⟩ := admissible_concat.mp hok
      rw [turns_concat, final_concat]
      exact hstep _ _ _ (ih his) hi

theorem history_induction {J : List (Turn σ ι ο) → σ → Prop} {s₀ : σ} (h₀ : J [] s₀)
    (hstep : ∀ h s i, J h s → J (h ++ [turn step s i]) (step s i).2) (is : List ι) :
    J (turns step s₀ is) (final step s₀ is) :=
  have hok : Admissible step (fun _ _ => True) s₀ is := fun _ _ => trivial
  history_invariant h₀ (fun h s i hJ _ => hstep h s i hJ) hok

theorem invariant {I : σ → Prop} (hstep : ∀ s i, I s → I (step s i).2) {s : σ} (h : I s)
    (is : List ι) : I (final step s is) := by
  induction is generalizing s with
  | nil => exact h
  | cons i is ih => exact ih (hstep s i h)

theorem Reachable.invariant {I : σ → Prop} {s₀ s : σ} (h : Reachable step s₀ s) (h₀ : I s₀)
    (hstep : ∀ s i, I s → I (step s i).2) : I s := by
  obtain ⟨is, rfl⟩ := h
  exact Machine.invariant hstep h₀ is

/-- Every turn of a run starts in a state that satisfies the invariant. -/
theorem turns_forall {I : σ → Prop} {Q : Turn σ ι ο → Prop} (hstep : ∀ s i, I s → I (step s i).2)
    (hQ : ∀ s i, I s → Q (turn step s i)) {s : σ} (h : I s) (is : List ι) :
    ∀ t ∈ turns step s is, Q t := by
  induction is generalizing s with
  | nil => intro t ht; cases ht
  | cons i is ih =>
      intro t ht
      rcases List.mem_cons.mp ht with rfl | ht
      · exact hQ s i h
      · exact ih (hstep s i h) t ht

/-! ## Turns that happen once -/

section
variable {I D : σ → Prop} {A : Turn σ ι ο → Prop} (hI : ∀ s i, I s → I (step s i).2)
  (hA : ∀ s i, I s → A (turn step s i) → D (step s i).2)
  (hD : ∀ s i, I s → D s → D (step s i).2)
include hI hA hD

/-- After a turn in `A` the run stays in `D`. -/
theorem final_of_mem_turns {s : σ} (h : I s) {is : List ι} {t : Turn σ ι ο}
    (ht : t ∈ turns step s is) (hAt : A t) : D (final step s is) := by
  induction is generalizing s with
  | nil => cases ht
  | cons i is ih =>
      rcases List.mem_cons.mp ht with rfl | ht
      · exact (invariant (I := fun s => I s ∧ D s) (fun s i h => ⟨hI s i h.1, hD s i h.1 h.2⟩)
          ⟨hI s i h, hA s i h hAt⟩ is).2
      · exact ih (hI s i h) ht

/-- When no turn from `D` is in `A`, at most one turn of a run is. -/
theorem at_most_once (hno : ∀ s i, I s → D s → ¬ A (turn step s i)) {s : σ} (h : I s)
    (is : List ι) : (turns step s is).Pairwise fun t t' => A t → ¬ A t' := by
  induction is generalizing s with
  | nil => exact List.Pairwise.nil
  | cons i is ih =>
      refine List.pairwise_cons.mpr ⟨fun t ht hAi => ?_, ih (hI s i h)⟩
      exact turns_forall (I := fun s => I s ∧ D s) (Q := fun t => ¬ A t)
        (fun s i h => ⟨hI s i h.1, hD s i h.1 h.2⟩) (fun s i h => hno s i h.1 h.2)
        ⟨hI s i h, hA s i h hAi⟩ is t ht

end

/-! ## The last turn of a kind -/

def lastTurn (p : Turn σ ι ο → Bool) (ts : List (Turn σ ι ο)) : Option (Turn σ ι ο) :=
  (ts.filter p).getLast?

theorem lastTurn_concat (p : Turn σ ι ο → Bool) (ts : List (Turn σ ι ο)) (t : Turn σ ι ο) :
    lastTurn p (ts ++ [t]) = if p t then some t else lastTurn p ts := by
  unfold lastTurn
  rw [List.filter_append]
  cases hp : p t <;> simp [hp]

/-- A component `f` of the state that, in the states of an invariant `I`, only the turns in `p`
write, and to which these write `v`, holds what the last of them wrote. -/
theorem last_write {I : σ → Prop} (hI : ∀ s i, I s → I (step s i).2) (f : σ → α)
    (p : Turn σ ι ο → Bool) (v : Turn σ ι ο → α)
    (hw : ∀ s i, I s → f (step s i).2 = if p (turn step s i) then v (turn step s i) else f s)
    {s₀ : σ} (h₀ : I s₀) (is : List ι) :
    f (final step s₀ is) = ((lastTurn p (turns step s₀ is)).map v).getD (f s₀) := by
  induction is using List.reverseRecOn with
  | nil => rfl
  | append_singleton is i ih =>
      rw [final_concat, turns_concat, lastTurn_concat, hw _ _ (invariant hI h₀ is)]
      split
      · rfl
      · exact ih

/-! ## Accepted inputs -/

def accepted (step : σ → ι → ο × σ) (g : ο → Bool) : σ → List ι → List ι
  | _, [] => []
  | s, i :: is =>
      if g (step s i).1 then i :: accepted step g (step s i).2 is
      else accepted step g (step s i).2 is

theorem accepted_sublist (g : ο → Bool) (s : σ) (is : List ι) :
    (accepted step g s is).Sublist is := by
  induction is generalizing s with
  | nil => exact List.Sublist.refl _
  | cons i is ih =>
      unfold accepted
      split
      · exact (ih _).cons_cons i
      · exact (ih _).cons i

/-- A relation that every step keeps, where the two machines accept alike, relates whole runs: they
accept corresponding inputs. -/
theorem accepted_simulation {σ' ι' ο' : Type*} {step' : σ' → ι' → ο' × σ'} {g : ο → Bool}
    {g' : ο' → Bool} {R : σ → σ' → Prop} {f : ι → ι'} {is : List ι}
    (hstep : ∀ s s', R s s' → ∀ i ∈ is, g (step s i).1 = g' (step' s' (f i)).1 ∧
      R (step s i).2 (step' s' (f i)).2) {s : σ} {s' : σ'} (h : R s s') :
    (accepted step g s is).map f = accepted step' g' s' (is.map f) ∧
      R (final step s is) (final step' s' (is.map f)) := by
  induction is generalizing s s' with
  | nil => exact ⟨rfl, h⟩
  | cons i is ih =>
      obtain ⟨hg, hR⟩ := hstep s s' h i List.mem_cons_self
      obtain ⟨ha, hf⟩ := ih (fun s s' h j hj => hstep s s' h j (List.mem_cons_of_mem _ hj)) hR
      refine ⟨?_, hf⟩
      simp only [accepted, List.map_cons, hg]
      split
      · rw [List.map_cons, ha]
      · exact ha

end Machine
