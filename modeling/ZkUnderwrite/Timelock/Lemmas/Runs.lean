import ZkUnderwrite.Timelock.Lemmas.Effects

/-!
# The controller schedules

Where no entry lies before the marker of a done operation, the state of an operation is its status, and
every call moves the status of an id by one move at most.
-/

namespace ZkUnderwrite.Timelock
open ByteString Transaction Contract Schedule

variable {V A ω : Type} {G : Governance V A ω} {x : Env G.toBase ω} {w w₁ w' : World V A ω}
  {id : BytesN 32} {c : Call V}

variable (G) in
/-- No entry lies before the marker of a done operation. -/
def Live (w : World V A ω) : Prop := ∀ id t, w.timestamps id = some t → G.doneTimestamp ≤ t

/-! ## Status and state -/

theorem status_congr (h : w₁.timestamps id = w.timestamps id) : status G w₁ id = status G w id := by
  unfold status
  rw [h]

theorem status_unset (h : w.timestamps id = none) : status G w id = .unset := by
  unfold status
  rw [h]

theorem status_done (h : w.timestamps id = some G.doneTimestamp) : status G w id = .done := by
  unfold status
  rw [h]
  exact if_pos rfl

theorem status_pending {t : UInt64} (h : w.timestamps id = some t) (ht : G.doneTimestamp < t) :
    status G w id = .pending t := by
  unfold status
  rw [h]
  exact if_neg (UInt64.ne_of_lt ht).symm

/-- What the library reports of an operation, read off its status. -/
theorem Live.getOperationState (h : Live G w) :
    x.getOperationState w id = match status G w id with
      | .unset => .unset
      | .pending t => if x.timestamp < t then .waiting else .ready
      | .done => .done := by
  unfold Env.getOperationState status
  cases ht : w.timestamps id with
  | none => exact G.state_none _
  | some t =>
      by_cases hd : t = G.doneTimestamp
      · subst hd
        simp only [if_true]
        exact G.state_done _
      · simp only [if_neg hd]
        exact G.state_pending (UInt64.lt_of_le_of_ne (h id t ht) (Ne.symm hd)) _

theorem Live.unset_iff (h : Live G w) : x.getOperationState w id = .unset ↔ status G w id = .unset := by
  rw [h.getOperationState]
  cases status G w id with
  | unset | done => simp
  | pending t => by_cases hlt : x.timestamp < t <;> simp [hlt]

theorem Live.done_iff (h : Live G w) : x.getOperationState w id = .done ↔ status G w id = .done := by
  rw [h.getOperationState]
  cases status G w id with
  | unset | done => simp
  | pending t => by_cases hlt : x.timestamp < t <;> simp [hlt]

theorem Live.ready_iff (h : Live G w) :
    x.getOperationState w id = .ready ↔ ∃ t, status G w id = .pending t ∧ t ≤ x.timestamp := by
  rw [h.getOperationState]
  cases status G w id with
  | unset | done => simp
  | pending t => simp [UInt64.not_lt]

theorem Live.ne_done (h : Live G w) (hr : x.getOperationState w id = .ready) :
    status G w id ≠ .done := by
  obtain ⟨t, ht, -⟩ := h.ready_iff.mp hr
  rw [ht]
  nofun

theorem Live.pending_iff (h : Live G w) :
    x.isOperationPending w id = true ↔ ∃ t, status G w id = .pending t := by
  unfold Env.isOperationPending
  rw [h.getOperationState, decide_eq_true_iff]
  cases status G w id with
  | unset | done => simp
  | pending t => by_cases hlt : x.timestamp < t <;> simp [hlt]

/-! ## Moves -/

theorem Marks.live (h : Marks G x w w₁) (hl : Live G w) : Live G w₁ := by
  intro id t ht
  rcases h.state id with he | ⟨-, hd⟩
  · exact hl id t (he ▸ ht)
  · cases hd.symm.trans ht
    exact UInt64.le_refl _

theorem Marks.move (h : Marks G x w w₁) (hl : Live G w) (id : BytesN 32) :
    status G w₁ id = status G w id ∨ Move x.timestamp (status G w id) (status G w₁ id) := by
  rcases h.state id with he | ⟨hr, hd⟩
  · exact .inl (status_congr he)
  · obtain ⟨t, ht, late⟩ := hl.ready_iff.mp hr
    rw [ht, status_done hd]
    exact .inr (.execute t late)

/-- An operation that is not done after the marks has not been marked. -/
theorem Marks.status_of_ne_done (h : Marks G x w w₁) (hd : status G w₁ id ≠ .done) :
    status G w₁ id = status G w id := by
  rcases h.state id with he | ⟨-, hd'⟩
  · exact status_congr he
  · exact absurd (status_done hd') hd

theorem lt_due {d : UInt32} (h : x.timestamp.toNat + d.toNat < 2 ^ 64) :
    (x.timestamp + d.toUInt64).toNat = x.timestamp.toNat + d.toNat ∧
      G.doneTimestamp < x.timestamp + d.toUInt64 := by
  have hn : (x.timestamp + d.toUInt64).toNat = x.timestamp.toNat + d.toNat := by
    rw [UInt64.toNat_add, UInt32.toNat_toUInt64, Nat.mod_eq_of_lt h]
  have hlive := UInt64.lt_iff_toNat_lt.mp x.live
  exact ⟨hn, UInt64.lt_iff_toNat_lt.mpr (by omega)⟩

variable (G x) in
/-- What a call does to the entry under one id, from the state `w₁` that its authorisation led to. -/
inductive EntryCase (w : World V A ω) (c : Call V) (w₁ w' : World V A ω) (id : BytesN 32) : Prop
  | same (entry : w'.timestamps id = w₁.timestamps id)
  | scheduled (p : Proposal V) (delay : UInt32) (proposer : Address)
      (call : c.proposes = some (p, delay, proposer)) (id_eq : G.id p = id)
      (role : G.access.hasRole w.access proposerRole proposer = true)
      (auth : Authorized G x c w proposer w₁) (schedulable : Schedulable x w₁ id delay)
      (entry : w'.timestamps id = some (x.timestamp + delay.toUInt64))
  | executed (p : Proposal V) (executor : Option Address) (vs : List V)
      (call : c.executes = some (p, executor)) (id_eq : G.id p = id)
      (auth : OnlyExecutor G x c w executor w₁) (executable : Executable x w₁ id p.predecessor)
      (foreign : ∀ q ∈ p.calls, q.1 ≠ G.currentContractAddress)
      (invoked : x.invokeAll p.calls w.outer = some (vs, w'.outer))
      (entry : w'.timestamps id = some G.doneTimestamp)
  | cancelled (pending : x.isOperationPending w₁ id = true) (entry : w'.timestamps id = none)

theorem Effect.entries (h : Effect G x w c w') :
    ∃ w₁, Marks G x w w₁ ∧ ∀ id, EntryCase G x w c w₁ w' id := by
  cases h with
  | @schedule _ p delay proposer w₁ hc _ hr hauth hs =>
      refine ⟨w₁, hauth.marks, fun id => ?_⟩
      by_cases hid : id = G.id p
      · subst hid
        exact .scheduled p delay proposer hc rfl hr hauth hs (Function.update_self ..)
      · exact .same (Function.update_of_ne hid ..)
  | @execute _ p executor w₁ vs o hc _ hauth hx ht hcalls =>
      refine ⟨w₁, hauth.marks, fun id => ?_⟩
      by_cases hid : id = G.id p
      · subst hid
        exact .executed p executor vs hc rfl hauth hx ht hcalls (Function.update_self ..)
      · exact .same (Function.update_of_ne hid ..)
  | @cancel k canceller w₁ _ hauth hp =>
      refine ⟨w₁, hauth.marks, fun id => ?_⟩
      by_cases hid : id = k
      · subst hid
        exact .cancelled hp (Function.update_self ..)
      · exact .same (Function.update_of_ne hid ..)
  | @updateDelay _ _ w₁ _ hauth => exact ⟨w₁, hauth.marks, fun _ => .same rfl⟩
  | @access _ _ _ _ w₁ _ hauth => exact ⟨w₁, hauth.marks, fun _ => .same rfl⟩
  | read _ => exact ⟨w, .refl w, fun _ => .same rfl⟩

/-- No entry comes to lie before the marker. -/
theorem Effect.live (h : Effect G x w c w') (hl : Live G w) : Live G w' := by
  intro id t ht
  obtain ⟨w₁, hm, hall⟩ := h.entries
  cases hall id with
  | same he => exact hm.live hl id t (he ▸ ht)
  | scheduled _ _ _ _ _ _ _ hs he =>
      cases he.symm.trans ht
      exact UInt64.le_of_lt (lt_due hs.fits).2
  | executed _ _ _ _ _ _ _ _ _ he =>
      cases he.symm.trans ht
      exact UInt64.le_refl _
  | cancelled _ he => cases he.symm.trans ht

theorem EntryCase.move (h : EntryCase G x w c w₁ w' id) (hl : Live G w₁) :
    status G w' id = status G w₁ id ∨ Move x.timestamp (status G w₁ id) (status G w' id) := by
  cases h with
  | same he => exact .inl (status_congr he)
  | scheduled p delay a _ _ _ _ hs he =>
      rw [hl.unset_iff.mp hs.unset, status_pending he (lt_due hs.fits).2]
      exact .inr (.schedule _)
  | executed p e _ _ _ _ hx _ _ he =>
      obtain ⟨t, ht, late⟩ := hl.ready_iff.mp hx.ready
      rw [ht, status_done he]
      exact .inr (.execute t late)
  | cancelled hp he =>
      obtain ⟨t, ht⟩ := hl.pending_iff.mp hp
      rw [ht, status_unset he]
      exact .inr (.cancel t)

/-- What is done after the authorisation is done after the call. -/
theorem EntryCase.done (h : EntryCase G x w c w₁ w' id) (hl : Live G w₁)
    (hd : status G w₁ id = .done) : status G w' id = .done := by
  rcases h.move hl with he | hm
  · exact he.trans hd
  · rw [hd] at hm
    cases hm

/-- A call moves the status of an id by one move at most, as nothing moves what the authorisation has
executed. -/
theorem Effect.move (h : Effect G x w c w') (hl : Live G w) (id : BytesN 32) :
    status G w' id = status G w id ∨ Move x.timestamp (status G w id) (status G w' id) := by
  obtain ⟨w₁, hm, hall⟩ := h.entries
  by_cases hd : status G w₁ id = .done
  · rw [(hall id).done (hm.live hl) hd, ← hd]
    exact hm.move hl id
  · rw [← hm.status_of_ne_done hd]
    exact (hall id).move (hm.live hl)

/-! ## Steps -/

section
variable [DecidableEq V]

/-- A step is one of the other contracts, fails and changes nothing, or has the effect of its call. -/
inductive StepCase (w : World V A ω) : Input G → World V A ω → Prop
  | outside (o : ω) : StepCase w (.outside o) (w.setOuter o)
  | failed (i : Input G) : StepCase w i w
  | call (x : Env G.toBase ω) (c : Call V) (w' : World V A ω) (effect : Effect G x w c w') :
      StepCase w (.call x c) w'

theorem step_case (w : World V A ω) (i : Input G) : StepCase w i (step G w i).2 := by
  cases i with
  | outside o => exact .outside o
  | call x c =>
      rcases hp : (perform G x c).exec w with ⟨e | ret, w'⟩
      · rw [show step G w (.call x c) = (.error e, w) from atomically_of_error hp]
        exact .failed _
      · rw [show step G w (.call x c) = (.ok ret, w') from atomically_eq_ok.mpr hp]
        exact .call x c w' (perform_effect hp)

theorem schedules : Schedules (step G) (Live G) (status G) Input.now := by
  refine ⟨fun w i hl => ?_, fun w i k hl => ?_⟩ <;> generalize hw : (step G w i).2 = w'
  · have hcase := hw ▸ step_case w i
    cases hcase with
    | outside o => exact hl
    | failed => exact hl
    | call x c _ heff => exact heff.live hl
  · have hcase := hw ▸ step_case w i
    cases hcase with
    | outside o => exact .inl rfl
    | failed => exact .inl rfl
    | call x c _ heff => exact heff.move hl k

end

end ZkUnderwrite.Timelock
