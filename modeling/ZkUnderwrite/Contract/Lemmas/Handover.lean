import ZkUnderwrite.Contract.Lemmas.History

/-!
# Admin, pending admin and issuers along a run

The pending admin and the issuer entries hold what the last successful call that touches them wrote.
The proposer of a pending admin is not stored: `proposer_in_office` carries it as an invariant of
the history.
-/

namespace ZkUnderwrite.Contract
open ByteString

variable {τ : Type} {P : Platform τ} {w : World τ} {x : Input τ} {i : Invocation} {r : Ret}

/-! ## Authority over a successful call -/

def Call.byAdmin : Call → Bool
  | .registerIssuer _ | .unregisterIssuer _ | .proposeAdmin _ | .cancelAdminProposal => true
  | _ => false

theorem Call.byAdmin_of_touchesIssuer {c : Call} {k : BytesN 32} (h : c.touchesIssuer k = true) :
    c.byAdmin = true := by
  rcases (Bool.or_eq_true _ _).mp h with h | h <;> rw [of_decide_eq_true h] <;> rfl

theorem Call.byAdmin_of_touchesPending {c : Call} (h : c.touchesPending = true)
    (hc : c ≠ .acceptAdmin) : c.byAdmin = true := by
  cases c with
  | proposeAdmin _ | cancelAdminProposal => rfl
  | acceptAdmin => exact absurd rfl hc
  | init _ _ _ _ _ _ | registerIssuer _ | unregisterIssuer _ | requestCredit _ _ _
  | creditLine _ => cases h

theorem Effect.byAdmin {w' : World τ} (h : Effect P w i r w') (hc : i.call.byAdmin = true) :
    ∃ a, w.admin = some a ∧ i.authorized a = true := by
  cases h with
  | registerIssuer _ ha hauth | unregisterIssuer _ ha hauth | proposeAdmin _ ha hauth
  | cancelAdminProposal _ ha hauth _ => exact ⟨_, ha, hauth⟩
  | init h _ _ | acceptAdmin h _ _ _ | requestCredit h _ _ _ _ _ | creditLine h =>
      rw [h] at hc; cases hc

theorem does_byAdmin (hw : WellFormed w) (h : does Call.byAdmin (Machine.turn (step P) w x) = true) :
    ∃ i a, succeeded (Machine.turn (step P) w x) = some i ∧ w.admin = some a ∧
      i.authorized a = true := by
  obtain ⟨i, hs, hc⟩ := does_eq_true.mp h
  obtain ⟨_, -, he⟩ := turn_effect hw hs
  obtain ⟨a, ha, hauth⟩ := he.byAdmin hc
  exact ⟨i, a, hs, ha, hauth⟩

theorem Effect.storesAdmin {w' : World τ} (h : Effect P w i r w')
    (hc : i.call.storesAdmin = true) : ∃ a, w'.admin = some a ∧ i.authorized a = true := by
  cases h with
  | init _ _ hauth => exact ⟨_, rfl, hauth⟩
  | acceptAdmin _ _ _ hauth => exact ⟨_, rfl, hauth⟩
  | registerIssuer h _ _ | unregisterIssuer h _ _ | proposeAdmin h _ _
  | cancelAdminProposal h _ _ _ | requestCredit h _ _ _ _ _ | creditLine h =>
      rw [h] at hc; cases hc

theorem Effect.admin_of_not_storesAdmin {w' : World τ} (h : Effect P w i r w')
    (hc : i.call.storesAdmin = false) : w'.admin = w.admin := by
  rw [h.admin_eq]
  cases hi : i.call with
  | init _ _ _ _ _ _ | acceptAdmin => rw [hi] at hc; cases hc
  | _ => rfl

theorem Effect.admin_isSome {w' : World τ} (h : Effect P w i r w') (ha : w.admin.isSome = true) :
    w'.admin.isSome = true := by
  cases hc : i.call.storesAdmin with
  | true =>
      obtain ⟨a, ha', -⟩ := h.storesAdmin hc
      rw [ha']; rfl
  | false => rwa [h.admin_of_not_storesAdmin hc]

/-- After `init` the admin changes only in `accept_admin`, which touches the pending admin too. -/
theorem Effect.admin_of_not_touchesPending {w' : World τ} {a : Address} (h : Effect P w i r w')
    (ha : w.admin = some a) (hc : i.call.touchesPending = false) : w'.admin = some a := by
  cases h with
  | init _ hn _ => rw [hn] at ha; cases ha
  | acceptAdmin hi _ _ _ => rw [hi] at hc; cases hc
  | registerIssuer _ _ _ | unregisterIssuer _ _ _ | proposeAdmin _ _ _
  | cancelAdminProposal _ _ _ _ | requestCredit _ _ _ _ _ _ | creditLine _ => exact ha

theorem admin_of_turn_frame (h : succeeded (Machine.turn (step P) w x) = none) :
    (step P w x).2.admin = w.admin := congrFun (congrArg Storage.inst (turn_frame h)) .admin

/-! ## The last write -/

/-- The pending admin that a turn leaves when it touches it. -/
def proposal (t : Turn τ) : Option Address :=
  match (succeeded t).map Invocation.call with
  | some (.proposeAdmin p) => some p
  | _ => none

theorem proposal_eq_some {t : Turn τ} {p : Address} :
    proposal t = some p ↔ ∃ i, succeeded t = some i ∧ i.call = .proposeAdmin p := by
  unfold proposal
  cases succeeded t with
  | none => simp
  | some i => cases hc : i.call <;> simp [hc]

theorem pendingAdmin_step (w : World τ) (x : Input τ) (hw : WellFormed w) :
    (step P w x).2.pendingAdmin =
      if does Call.touchesPending (Machine.turn (step P) w x) then
        proposal (Machine.turn (step P) w x)
      else w.pendingAdmin := by
  unfold does proposal
  cases h : succeeded (Machine.turn (step P) w x) with
  | none => exact congrFun (congrArg Storage.inst (turn_frame h)) .pendingAdmin
  | some i =>
      obtain ⟨_, -, he⟩ := turn_effect hw h
      rw [he.pendingAdmin_eq]
      cases hc : i.call <;> simp [hc, Call.touchesPending]

theorem pendingAdmin_run (P : Platform τ) (t₀ : τ) (xs : List (Input τ)) :
    (run P t₀ xs).pendingAdmin =
      (Machine.lastTurn (does Call.touchesPending) (history P t₀ xs)).bind proposal := by
  have h := Machine.last_write (fun _ x h => WellFormed.step h x) World.pendingAdmin
    (does Call.touchesPending) proposal (pendingAdmin_step (P := P)) (wellFormed_empty t₀) xs
  rw [h]
  cases Machine.lastTurn (does Call.touchesPending) (history P t₀ xs) <;> rfl

def registers (h : BytesN 32) : Turn τ → Bool := does fun c => c = .registerIssuer h

theorem registered_step (k : BytesN 32) (w : World τ) (x : Input τ) (hw : WellFormed w) :
    (step P w x).2.registered k =
      if does (Call.touchesIssuer k) (Machine.turn (step P) w x) then
        registers k (Machine.turn (step P) w x)
      else w.registered k := by
  unfold registers does
  cases h : succeeded (Machine.turn (step P) w x) with
  | none =>
      exact congrArg (Store.has · (.issuer k)) (congrArg Storage.pers (turn_frame h))
  | some i =>
      obtain ⟨_, -, he⟩ := turn_effect hw h
      rw [he.registered_eq k]
      by_cases hr : i.call = .registerIssuer k <;> by_cases hu : i.call = .unregisterIssuer k <;>
        simp [Call.touchesIssuer, hr, hu]

theorem registered_run (P : Platform τ) (t₀ : τ) (xs : List (Input τ)) (k : BytesN 32) :
    (run P t₀ xs).registered k =
      (Machine.lastTurn (does (Call.touchesIssuer k)) (history P t₀ xs)).any (registers k) := by
  have h := Machine.last_write (fun _ x h => WellFormed.step h x) (World.registered · k)
    (does (Call.touchesIssuer k)) (registers k) (registered_step (P := P) k)
    (wellFormed_empty t₀) xs
  rw [h]
  cases Machine.lastTurn (does (Call.touchesIssuer k)) (history P t₀ xs) <;> rfl

theorem issuer_of_not_touchesIssuer (hw : WellFormed w) (k : BytesN 32)
    (hx : does (Call.touchesIssuer k) (Machine.turn (step P) w x) = false) :
    (step P w x).2.issuer k = w.issuer k := by
  unfold does at hx
  cases h : succeeded (Machine.turn (step P) w x) with
  | none => exact congrFun (congrArg Storage.pers (turn_frame h)) (.issuer k)
  | some i =>
      obtain ⟨_, -, he⟩ := turn_effect hw h
      rw [h, Option.any_some, Call.touchesIssuer, Bool.or_eq_false_iff] at hx
      rw [he.issuer_eq k, if_neg (of_decide_eq_false hx.1), if_neg (of_decide_eq_false hx.2)]

theorem touchesIssuer_of_ne (hw : WellFormed w) {k : BytesN 32}
    (h : (step P w x).2.issuer k ≠ w.issuer k) :
    does (Call.touchesIssuer k) (Machine.turn (step P) w x) = true := by
  by_contra hc
  exact h (issuer_of_not_touchesIssuer hw k (Bool.not_eq_true _ ▸ hc))

theorem touchesPending_of_ne (hw : WellFormed w)
    (h : (step P w x).2.pendingAdmin ≠ w.pendingAdmin) :
    does Call.touchesPending (Machine.turn (step P) w x) = true := by
  by_contra hc
  exact h ((pendingAdmin_step w x hw).trans (if_neg hc))

/-! ## The proposer in office -/

/-- The last call that touched the pending admin, when it was a proposal, was authorised by the
current admin. -/
def ProposerInOffice (ts : List (Turn τ)) (w : World τ) : Prop :=
  ∀ t i p, Machine.lastTurn (does Call.touchesPending) ts = some t → succeeded t = some i →
    i.call = .proposeAdmin p →
    ∃ a, t.before.admin = some a ∧ i.authorized a = true ∧ w.admin = some a

theorem ProposerInOffice.step {ts : List (Turn τ)} (hw : WellFormed w) (h : ProposerInOffice ts w)
    (x : Input τ) :
    ProposerInOffice (ts ++ [Machine.turn (Contract.step P) w x]) (Contract.step P w x).2 := by
  intro t i p ht hs hc
  rw [Machine.lastTurn_concat] at ht
  cases hx : succeeded (Machine.turn (Contract.step P) w x) with
  | none =>
      rw [does_of_none hx, if_neg (by simp)] at ht
      obtain ⟨a, hb, hauth, ha⟩ := h t i p ht hs hc
      exact ⟨a, hb, hauth, (admin_of_turn_frame hx).trans ha⟩
  | some j =>
      obtain ⟨_, -, he⟩ := turn_effect hw hx
      cases hp : j.call.touchesPending with
      | true =>
          -- The new turn is the last one; a proposal leaves the admin in office.
          rw [if_pos ((does_of_some hx).trans hp)] at ht
          cases ht
          rw [hx] at hs
          cases hs
          obtain ⟨a, ha, hauth⟩ := he.byAdmin (by rw [hc]; rfl)
          exact ⟨a, ha, hauth, (he.admin_of_not_storesAdmin (by rw [hc]; rfl)).trans ha⟩
      | false =>
          rw [does_of_some hx, hp, if_neg (by simp)] at ht
          obtain ⟨a, hb, hauth, ha⟩ := h t i p ht hs hc
          exact ⟨a, hb, hauth, he.admin_of_not_touchesPending ha hp⟩

theorem proposer_in_office (P : Platform τ) (t₀ : τ) (xs : List (Input τ)) :
    ProposerInOffice (history P t₀ xs) (run P t₀ xs) := by
  have h₀ : ProposerInOffice [] (World.empty t₀) := by intro t i p ht; cases ht
  exact (Machine.history_induction (J := fun ts w => WellFormed w ∧ ProposerInOffice ts w)
    ⟨wellFormed_empty t₀, h₀⟩ (fun ts w x h => ⟨h.1.step x, h.2.step h.1 x⟩) xs).2

end ZkUnderwrite.Contract
