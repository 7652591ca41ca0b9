import ZkUnderwrite.Lib.Machine

/-!
# A machine within a machine

A machine whose every step gives another machine a list of inputs. The other machine's view of a run is
then a run of its own, and its turns are those that the steps of the run are made of.
-/

namespace Machine

variable {σ ι ο σ' ι' ο' : Type*} {step : σ → ι → ο × σ} {step' : σ' → ι' → ο' × σ'} {view : σ → σ'}
  {trace : σ → ι → List ι'}

/-- Every step acts on the view as the inputs do that it gives to the other machine. -/
def Projects (step : σ → ι → ο × σ) (step' : σ' → ι' → ο' × σ') (view : σ → σ')
    (trace : σ → ι → List ι') : Prop :=
  ∀ s i, view (step s i).2 = final step' (view s) (trace s i)

/-- What a run gives to the other machine. -/
def inputs (step : σ → ι → ο × σ) (trace : σ → ι → List ι') : σ → List ι → List ι'
  | _, [] => []
  | s, i :: is => trace s i ++ inputs step trace (step s i).2 is

/-- The turns of the other machine within one turn. -/
def innerTurns (step' : σ' → ι' → ο' × σ') (view : σ → σ') (trace : σ → ι → List ι')
    (t : Turn σ ι ο) : List (Turn σ' ι' ο') :=
  turns step' (view t.before) (trace t.before t.input)

theorem exists_of_mem_inputs {s : σ} {is : List ι} {i' : ι'} (h : i' ∈ inputs step trace s is) :
    ∃ t ∈ turns step s is, i' ∈ trace t.before t.input := by
  induction is generalizing s with
  | nil => cases h
  | cons i is ih =>
      rcases List.mem_append.mp h with h | h
      · exact ⟨_, List.mem_cons_self, h⟩
      · obtain ⟨t, ht, hi⟩ := ih h
        exact ⟨t, List.mem_cons_of_mem _ ht, hi⟩

variable (h : Projects step step' view trace)
include h

theorem Projects.view_final (s : σ) (is : List ι) :
    view (final step s is) = final step' (view s) (inputs step trace s is) := by
  induction is generalizing s with
  | nil => rfl
  | cons i is ih => rw [final, ih, h, inputs, final_append]

theorem Projects.turns_inputs (s : σ) (is : List ι) :
    turns step' (view s) (inputs step trace s is) =
      (turns step s is).flatMap (innerTurns step' view trace) := by
  induction is generalizing s with
  | nil => rfl
  | cons i is ih =>
      rw [inputs, turns_append, ← h, ih, turns, List.flatMap_cons]
      rfl

theorem Projects.mem_turns {s : σ} {is : List ι} {t : Turn σ ι ο} {t' : Turn σ' ι' ο'}
    (ht : t ∈ turns step s is) (ht' : t' ∈ innerTurns step' view trace t) :
    t' ∈ turns step' (view s) (inputs step trace s is) := by
  rw [h.turns_inputs]
  exact List.mem_flatMap.mpr ⟨t, ht, ht'⟩

/-- The other machine's run is admissible when what every turn gives it is. -/
theorem Projects.admissible {ok : σ' → ι' → Prop} {s : σ} {is : List ι}
    (hok : ∀ t ∈ turns step s is, ∀ t' ∈ innerTurns step' view trace t, ok t'.before t'.input) :
    Admissible step' ok (view s) (inputs step trace s is) := by
  intro t' ht'
  rw [h.turns_inputs] at ht'
  obtain ⟨t, ht, ht'⟩ := List.mem_flatMap.mp ht'
  exact hok t ht t' ht'

/-- What holds of every two turns of the other machine holds across every two turns. -/
theorem Projects.pairwise {R : Turn σ' ι' ο' → Turn σ' ι' ο' → Prop} {s : σ} {is : List ι}
    (hR : (turns step' (view s) (inputs step trace s is)).Pairwise R) :
    (turns step s is).Pairwise fun t u =>
      ∀ t' ∈ innerTurns step' view trace t, ∀ u' ∈ innerTurns step' view trace u, R t' u' := by
  rw [h.turns_inputs, List.pairwise_flatMap] at hR
  exact hR.2

end Machine
