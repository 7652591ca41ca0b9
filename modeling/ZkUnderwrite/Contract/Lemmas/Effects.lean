import ZkUnderwrite.Contract.Effects
import ZkUnderwrite.Contract.Lemmas.EntryPoints

/-!
# Calls and their effects

The successful calls are those with an `Effect`; a failed call changes nothing. From the rules of
`Effect`: which calls write which part of the state.
-/

namespace ZkUnderwrite.Contract
open ByteString Transaction

variable {τ : Type} {P : Platform τ} {w w' : World τ} {i : Invocation} {r : Ret}

/-- A failed call changes nothing. -/
theorem invoke_error {e : Fault} (h : (invoke P i w).1 = .error e) : (invoke P i w).2 = w := by
  unfold invoke at h ⊢
  rw [atomically_fst] at h
  exact atomically_snd_of_error h

theorem Effect.of_invoke (hw : WellFormed w) (hi : invoke P i w = (.ok r, w')) :
    Effect P w i r w' := by
  have hrun := atomically_eq_ok.mp hi
  cases hc : i.call with
  | init a ro m u t c =>
      rw [hc] at hrun
      obtain ⟨_, hx, rfl⟩ := Txn.exec_map_eq_ok.mp hrun
      rw [exec_init] at hx
      split_ifs at hx with h₁ h₂ h₃ h₄ h₅
      · cases hx
      · cases hx
      · cases hx
      · cases hx
      · obtain ⟨-, rfl⟩ := Prod.mk.inj hx
        exact .init (p := ⟨ro, m, u, t, c, h₄, h₃, Int.not_le.mp h₂⟩) hc (by simpa using h₁) h₅
      · cases hx
  | registerIssuer h =>
      rw [hc] at hrun
      obtain ⟨a, ha, hauth, hx, rfl⟩ := (exec_unit_adminOnly (exec_registerIssuer _ w h)).mp hrun
      obtain ⟨-, rfl⟩ := Prod.mk.inj hx
      exact .registerIssuer hc ha hauth
  | unregisterIssuer h =>
      rw [hc] at hrun
      obtain ⟨a, ha, hauth, hx, rfl⟩ := (exec_unit_adminOnly (exec_unregisterIssuer _ w h)).mp hrun
      obtain ⟨-, rfl⟩ := Prod.mk.inj hx
      exact .unregisterIssuer hc ha hauth
  | proposeAdmin p =>
      rw [hc] at hrun
      obtain ⟨a, ha, hauth, hx, rfl⟩ := (exec_unit_adminOnly (exec_proposeAdmin _ w p)).mp hrun
      obtain ⟨-, rfl⟩ := Prod.mk.inj hx
      exact .proposeAdmin hc ha hauth
  | acceptAdmin =>
      rw [hc] at hrun
      obtain ⟨_, hx, rfl⟩ := Txn.exec_map_eq_ok.mp hrun
      rw [exec_acceptAdmin] at hx
      cases ha : w.admin with
      | none => rw [ha] at hx; cases hx
      | some a =>
          cases hp : w.pendingAdmin with
          | none => rw [ha, hp] at hx; cases hx
          | some p =>
              rw [ha, hp, Option.elim_some, Option.elim_some] at hx
              split_ifs at hx with hauth
              · obtain ⟨-, rfl⟩ := Prod.mk.inj hx
                exact .acceptAdmin hc ha hp hauth
              · cases hx
  | cancelAdminProposal =>
      rw [hc] at hrun
      obtain ⟨a, ha, hauth, hx, rfl⟩ := (exec_unit_adminOnly (exec_cancelAdminProposal _ w)).mp hrun
      cases hp : w.pendingAdmin with
      | none => rw [hp] at hx; cases hx
      | some p =>
          rw [hp, Option.elim_some] at hx
          obtain ⟨-, rfl⟩ := Prod.mk.inj hx
          exact .cancelAdminProposal hc ha hauth hp
  | requestCredit b s j =>
      rw [hc] at hrun
      obtain ⟨n, hx, rfl⟩ := Txn.exec_map_eq_ok.mp hrun
      rcases hw with hempty | ⟨p, hp⟩
      · rw [exec_requestCredit_of_admin_none _ _ _ _ _ (admin_of_empty hempty)] at hx
        split_ifs at hx <;> cases hx
      · rw [exec_requestCredit _ hp] at hx
        split_ifs at hx with hauth hlen hver
        · obtain ⟨rfl, hpol, t, ht, rfl⟩ := (settle_eq_ok _).mp hx
          exact .requestCredit (j := ⟨j, hlen⟩) hc hp hauth hver hpol ht
        all_goals cases hx
  | creditLine b =>
      rw [hc] at hrun
      obtain ⟨n, hx, rfl⟩ := Txn.exec_map_eq_ok.mp hrun
      rw [exec_creditLine] at hx
      obtain ⟨hn, rfl⟩ := Prod.mk.inj hx
      cases hn
      exact .creditLine hc

theorem Effect.invoke (h : Effect P w i r w') : invoke P i w = (.ok r, w') := by
  refine atomically_eq_ok.mpr ?_
  cases h with
  | @init a p hc hn hauth =>
      rw [hc]
      refine Txn.exec_map_eq_ok.mpr ⟨(), ?_, rfl⟩
      rw [exec_init, hn, if_neg (by simp), if_neg (Int.not_le.mpr p.creditAmount_pos),
        if_neg p.requiredThreshold_ne, if_neg p.imageId_ne]
      exact if_pos hauth
  | registerIssuer hc ha hauth =>
      rw [hc]
      exact (exec_unit_adminOnly (exec_registerIssuer _ w _)).mpr ⟨_, ha, hauth, rfl, rfl⟩
  | unregisterIssuer hc ha hauth =>
      rw [hc]
      exact (exec_unit_adminOnly (exec_unregisterIssuer _ w _)).mpr ⟨_, ha, hauth, rfl, rfl⟩
  | proposeAdmin hc ha hauth =>
      rw [hc]
      exact (exec_unit_adminOnly (exec_proposeAdmin _ w _)).mpr ⟨_, ha, hauth, rfl, rfl⟩
  | acceptAdmin hc ha hp hauth =>
      rw [hc]
      refine Txn.exec_map_eq_ok.mpr ⟨(), ?_, rfl⟩
      rw [exec_acceptAdmin, ha, hp]
      exact if_pos hauth
  | cancelAdminProposal hc ha hauth hp =>
      rw [hc]
      refine (exec_unit_adminOnly (exec_cancelAdminProposal _ w)).mpr ⟨_, ha, hauth, ?_, rfl⟩
      rw [hp]; rfl
  | @requestCredit b s p t j hc hp hauth hver hpol ht =>
      rw [hc]
      refine Txn.exec_map_eq_ok.mpr ⟨p.creditAmount, ?_, rfl⟩
      rw [exec_requestCredit _ hp]
      simp only [Invocation.env, hauth, if_true, j.length_eq, dif_pos, hver]
      exact (settle_eq_ok _).mpr ⟨rfl, hpol, t, ht, rfl⟩
  | creditLine hc =>
      rw [hc]
      exact Txn.exec_map_eq_ok.mpr ⟨_, exec_creditLine w _, rfl⟩

theorem spent_payOut (w : World τ) (p : Policy) (b : Address) (n m : BytesN 32) (t : τ) :
    (w.payOut p b n t).spent m = (decide (m = n) || w.spent m) := by
  refine (Store.has_set _ (.creditLine b) p.creditAmount (.nullifier m)).trans ?_
  simp only [reduceCtorEq, decide_false, Bool.false_or]
  exact (Store.has_set _ _ _ _).trans (by simp [World.spent])

theorem credit_payOut (w : World τ) (p : Policy) (b c : Address) (n : BytesN 32) (t : τ) :
    (w.payOut p b n t).credit c = if c = b then some p.creditAmount else w.credit c := by
  by_cases h : c = b
  · subst h
    rw [if_pos rfl]
    exact pers_payOut_credit _ _ _ _ _
  · rw [if_neg h]
    exact pers_payOut_of_ne nofun fun he => h (DataKey.creditLine.inj he)

theorem configured_install (w : World τ) (a : Address) (p : Policy) :
    Configured (w.install a p) p := ⟨⟨a, rfl⟩, rfl, rfl, rfl, rfl, rfl⟩

/-! ## What each call writes -/

namespace Effect

theorem admin_eq (h : Effect P w i r w') :
    w'.admin = match i.call with
      | .init a _ _ _ _ _ => some a
      | .acceptAdmin => w.pendingAdmin
      | _ => w.admin := by
  cases h with
  | acceptAdmin hc _ hp _ => rw [hc]; exact hp.symm
  | creditLine hc => rw [hc]
  | init hc _ _ | registerIssuer hc _ _ | unregisterIssuer hc _ _ | proposeAdmin hc _ _
  | cancelAdminProposal hc _ _ _ | requestCredit hc _ _ _ _ _ => rw [hc]; rfl

theorem pendingAdmin_eq (h : Effect P w i r w') :
    w'.pendingAdmin = match i.call with
      | .proposeAdmin p => some p
      | .acceptAdmin | .cancelAdminProposal => none
      | _ => w.pendingAdmin := by
  cases h with
  | creditLine hc => rw [hc]
  | init hc _ _ | registerIssuer hc _ _ | unregisterIssuer hc _ _ | proposeAdmin hc _ _
  | acceptAdmin hc _ _ _ | cancelAdminProposal hc _ _ _ | requestCredit hc _ _ _ _ _ =>
      rw [hc]; rfl

theorem issuer_eq (h : Effect P w i r w') (k : BytesN 32) :
    w'.issuer k =
      if i.call = .registerIssuer k then some true
      else if i.call = .unregisterIssuer k then none
      else w.issuer k := by
  cases h with
  | @registerIssuer k' _ hc _ _ =>
      simp only [hc, Call.registerIssuer.injEq, reduceCtorEq, if_false]
      by_cases hk : k' = k
      · subst hk
        exact (Store.set_self _ _ _).trans (if_pos rfl).symm
      · rw [if_neg hk]
        exact Store.set_of_ne fun he => hk (DataKey.issuer.inj he).symm
  | @unregisterIssuer k' _ hc _ _ =>
      simp only [hc, Call.unregisterIssuer.injEq, reduceCtorEq, if_false]
      by_cases hk : k' = k
      · subst hk
        exact (Store.remove_self _ _).trans (if_pos rfl).symm
      · rw [if_neg hk]
        exact Store.remove_of_ne fun he => hk (DataKey.issuer.inj he).symm
  | creditLine hc => simp [hc]
  | init hc _ _ | proposeAdmin hc _ _ | acceptAdmin hc _ _ _ | cancelAdminProposal hc _ _ _
  | requestCredit hc _ _ _ _ _ => simp only [hc, reduceCtorEq, if_false]; rfl

theorem registered_eq (h : Effect P w i r w') (k : BytesN 32) :
    w'.registered k =
      if i.call = .registerIssuer k then true
      else if i.call = .unregisterIssuer k then false
      else w.registered k := by
  refine (congrArg Option.isSome (h.issuer_eq k)).trans ?_
  split_ifs <;> rfl

theorem of_request {b : Address} {s j : Bytes} (h : Effect P w i r w')
    (hc : i.call = .requestCredit b s j) :
    ∃ p t, ∃ j' : BytesN journalLen, j = j'.val ∧ Configured w p ∧ i.authorized b = true ∧
      i.verify p.router s p.imageId (P.sha256 j) = true ∧
      policyError w p (Journal.parse j') = none ∧
      P.transfer p.usdc w.token P.currentContractAddress b p.creditAmount = some t ∧
      w' = (w.logRouterCall ⟨p.router, s, p.imageId, P.sha256 j⟩).payOut p b
        (Journal.parse j').nullifier t := by
  cases h with
  | @requestCredit b' s' p t j' hc' hp hauth hver hpol ht =>
      rw [hc] at hc'
      cases hc'
      exact ⟨p, t, j', rfl, hp, hauth, hver, hpol, ht, rfl⟩
  | init h _ _ | registerIssuer h _ _ | unregisterIssuer h _ _ | proposeAdmin h _ _
  | acceptAdmin h _ _ _ | cancelAdminProposal h _ _ _ | creditLine h => rw [h] at hc; cases hc

theorem of_grant {g : Grant} (h : Effect P w i r w') (hg : i.call.grant = some g) :
    ∃ s j p t, i.call = .requestCredit g.borrower s j ∧ Configured w p ∧
      i.authorized g.borrower = true ∧ w.spent g.nullifier = false ∧
      P.transfer p.usdc w.token P.currentContractAddress g.borrower p.creditAmount = some t ∧
      w' = (w.logRouterCall ⟨p.router, s, p.imageId, P.sha256 j⟩).payOut p g.borrower
        g.nullifier t := by
  cases hc : i.call with
  | requestCredit b s j =>
      obtain ⟨p, t, j', rfl, hp, hauth, -, hpol, ht, hw⟩ := h.of_request hc
      rw [hc, Call.grant, Journal.nullifier_parse] at hg
      cases hg
      exact ⟨s, _, p, t, rfl, hp, hauth, (policyError_eq_none.mp hpol).2.2.2, ht, hw⟩
  | init _ _ _ _ _ _ | registerIssuer _ | unregisterIssuer _ | proposeAdmin _ | acceptAdmin
  | cancelAdminProposal | creditLine _ => rw [hc] at hg; cases hg

theorem grant_eq {b : Address} {s j : Bytes} (h : Effect P w i r w')
    (hc : i.call = .requestCredit b s j) :
    ∃ n, i.call.grant = some ⟨b, n⟩ ∧ slice j 41 32 = n.val := by
  obtain ⟨p, t, j', rfl, -⟩ := h.of_request hc
  exact ⟨_, by rw [hc, Call.grant, Journal.nullifier_parse]; rfl, rfl⟩

/-- A successful call that pays nothing leaves nullifiers, credit lines and tokens as they are. -/
theorem of_grant_none (h : Effect P w i r w') (hg : i.call.grant = none) :
    (∀ n, w'.spent n = w.spent n) ∧ (∀ b, w'.credit b = w.credit b) ∧ w'.token = w.token := by
  cases h with
  | requestCredit hc _ _ _ _ _ => rw [hc, Call.grant, Journal.nullifier_parse] at hg; cases hg
  | init hc _ _ | registerIssuer hc _ _ | unregisterIssuer hc _ _ | proposeAdmin hc _ _
  | acceptAdmin hc _ _ _ | cancelAdminProposal hc _ _ _ | creditLine hc =>
      exact ⟨fun _ => rfl, fun _ => rfl, rfl⟩

theorem configured (h : Effect P w i r w') {p : Policy} (hp : Configured w p) :
    Configured w' p := by
  obtain ⟨a, ha⟩ := hp.admin
  cases h with
  | init _ hn _ => rw [hn] at ha; cases ha
  | acceptAdmin _ _ _ _ =>
      exact ⟨⟨_, rfl⟩, hp.router, hp.imageId, hp.usdc, hp.requiredThreshold, hp.creditAmount⟩
  | registerIssuer _ _ _ | unregisterIssuer _ _ _ | proposeAdmin _ _ _
  | cancelAdminProposal _ _ _ _ | requestCredit _ _ _ _ _ _ | creditLine _ =>
      exact ⟨⟨a, ha⟩, hp.router, hp.imageId, hp.usdc, hp.requiredThreshold, hp.creditAmount⟩

end Effect
end ZkUnderwrite.Contract
