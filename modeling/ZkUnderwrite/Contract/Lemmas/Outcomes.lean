import ZkUnderwrite.Contract.Lemmas.History

/-!
# Which errors a call can meet

The errors of a call that runs before `init`, and those of a call in a configured state. The second
exclude the fallbacks that the contract writes for missing policy values and missing journal bytes.
-/

namespace ZkUnderwrite.Contract
open ByteString Transaction

variable {τ : Type} {P : Platform τ} {w : World τ}

theorem exec_perform_requestCredit (env : Env τ) (w : World τ) (b : Address) (s j : Bytes) :
    (perform env (.requestCredit b s j)).exec w =
      (((requestCredit env b s j).exec w).1.map .amount, ((requestCredit env b s j).exec w).2) :=
  Txn.exec_map _ _ _

theorem exec_perform_unit {m : Host τ Unit} {e : Fault} (h : m.exec w = (.error e, w)) :
    (do m; return .unit : Host τ Ret).exec w = (.error e, w) := Txn.exec_bind_error h _

/-- Before `init` only `init` and `credit_line` can succeed; the others stop before any write. -/
theorem exec_perform_of_admin_none (env : Env τ) (ha : w.admin = none) {c : Call}
    (hi : c.isInit = false) (hc : ∀ b, c ≠ .creditLine b) :
    ∃ e, (perform env c).exec w = (.error e, w) := by
  have hadmin : ∀ f : Address → Except Fault Unit × World τ,
      adminOnly env w f = (.error (.contract .notInitialized), w) := by
    intro f
    simp only [adminOnly, ha]
  cases c with
  | init _ _ _ _ _ _ => cases hi
  | registerIssuer h => exact ⟨_, exec_perform_unit ((exec_registerIssuer env w h).trans (hadmin _))⟩
  | unregisterIssuer h =>
      exact ⟨_, exec_perform_unit ((exec_unregisterIssuer env w h).trans (hadmin _))⟩
  | proposeAdmin p => exact ⟨_, exec_perform_unit ((exec_proposeAdmin env w p).trans (hadmin _))⟩
  | acceptAdmin =>
      exact ⟨_, exec_perform_unit ((exec_acceptAdmin env w).trans (by rw [ha]; rfl))⟩
  | cancelAdminProposal =>
      exact ⟨_, exec_perform_unit ((exec_cancelAdminProposal env w).trans (hadmin _))⟩
  | requestCredit b s j =>
      rw [exec_perform_requestCredit, exec_requestCredit_of_admin_none env w b s j ha]
      split
      · exact ⟨_, rfl⟩
      · exact ⟨_, rfl⟩
  | creditLine b => exact absurd rfl (hc b)

theorem policyError_ne {p : Policy} {v : Journal} :
    policyError w p v ≠ some .notInitialized ∧ policyError w p v ≠ some .badJournal := by
  unfold policyError
  split_ifs <;> simp

theorem settle_fst_ne {p : Policy} {b : Address} {v : Journal} (env : Env τ) (w : World τ) :
    (settle env w p b v).1 ≠ .error (.contract .notInitialized) ∧
      (settle env w p b v).1 ≠ .error (.contract .badJournal) := by
  cases h : policyError w p v with
  | some e =>
      have hne := policyError_ne (w := w) (p := p) (v := v)
      rw [h] at hne
      rw [settle_of_error env b h]
      simpa using hne
  | none =>
      rw [settle_of_none env b h]
      cases env.transfer p.usdc w.token env.currentContractAddress b p.creditAmount <;> simp

theorem settle_logRouterCall_fst {p : Policy} {b : Address} {v : Journal} (env : Env τ)
    (w : World τ) (c : RouterCall) :
    (settle env (w.logRouterCall c) p b v).1 = (settle env w p b v).1 := by
  cases h : policyError w p v with
  | some e => rw [settle_of_error env b h, settle_of_error env b (w := w.logRouterCall c) h]
  | none =>
      rw [settle_of_none env b h, settle_of_none env b (w := w.logRouterCall c) h]
      simp only [logRouterCall_token]
      cases env.transfer p.usdc w.token env.currentContractAddress b p.creditAmount <;> rfl

theorem settle_routerCalls {p : Policy} {b : Address} {v : Journal} (env : Env τ) (w : World τ) :
    (settle env w p b v).2.routerCalls = w.routerCalls := by
  cases h : policyError w p v with
  | some e => rw [settle_of_error env b h]
  | none =>
      rw [settle_of_none env b h]
      cases env.transfer p.usdc w.token env.currentContractAddress b p.creditAmount <;> rfl

/-- Before the router is called a request writes nothing; the one call it makes has the stored image
id and the digest of the journal, and what follows depends on the journal's values alone. -/
theorem requestCredit_routerCalls {p : Policy} (hp : Configured w p) (env : Env τ) (b : Address)
    (s j : Bytes) :
    ((requestCredit env b s j).exec w).2 = w ∨
      ∃ h : j.length = journalLen,
        ((requestCredit env b s j).exec w).2.routerCalls =
          w.routerCalls ++ [⟨p.router, s, p.imageId, env.sha256 j⟩] ∧
        ((requestCredit env b s j).exec w).1 =
          if env.verify p.router s p.imageId (env.sha256 j) then
            (settle env w p b (Journal.parse ⟨j, h⟩)).1
          else .error .verifier := by
  rw [exec_requestCredit env hp]
  split_ifs with hauth hlen hver
  · exact .inr ⟨hlen, settle_routerCalls env _, settle_logRouterCall_fst env w _⟩
  · exact .inr ⟨hlen, rfl, rfl⟩
  all_goals exact .inl rfl

theorem requestCredit_ne {p : Policy} (hp : Configured w p) (env : Env τ) (b : Address)
    (s j : Bytes) :
    ((requestCredit env b s j).exec w).1 ≠ .error (.contract .notInitialized) ∧
      ((requestCredit env b s j).exec w).1 ≠ .error (.contract .badJournal) := by
  rw [exec_requestCredit env hp]
  split_ifs with hauth hlen hver
  · exact settle_fst_ne env _
  · simp
  · simp
  · simp

theorem adminOnly_ne {p : Policy} (hp : Configured w p) (env : Env τ)
    {f : Address → Except Fault Unit × World τ}
    (hf : ∀ a, (f a).1 ≠ .error (.contract .notInitialized)) :
    (adminOnly env w f).1 ≠ .error (.contract .notInitialized) := by
  obtain ⟨a, ha⟩ := hp.admin
  simp only [adminOnly, ha]
  split
  · exact hf a
  · simp

theorem map_ne_error {α β : Type} {f : α → β} {r : Except Fault α} {e : Fault}
    (h : r ≠ .error e) : r.map f ≠ .error e := by
  cases r with
  | ok a => exact nofun
  | error e' => exact fun he => h (by cases he; rfl)

theorem exec_unit_ne {m : Host τ Unit} {e : Fault} (h : (m.exec w).1 ≠ .error e) :
    ((do m; return .unit : Host τ Ret).exec w).1 ≠ .error e := by
  rw [Txn.exec_map m (fun _ => Ret.unit) w]
  exact map_ne_error h

theorem perform_ne_notInitialized {p : Policy} (hp : Configured w p) (env : Env τ) (c : Call) :
    ((perform env c).exec w).1 ≠ .error (.contract .notInitialized) := by
  obtain ⟨a, ha⟩ := hp.admin
  cases c with
  | init a r m u t c =>
      refine exec_unit_ne ?_
      rw [exec_init, ha]
      simp
  | registerIssuer h =>
      refine exec_unit_ne ?_
      rw [exec_registerIssuer]
      exact adminOnly_ne hp env fun _ => nofun
  | unregisterIssuer h =>
      refine exec_unit_ne ?_
      rw [exec_unregisterIssuer]
      exact adminOnly_ne hp env fun _ => nofun
  | proposeAdmin q =>
      refine exec_unit_ne ?_
      rw [exec_proposeAdmin]
      exact adminOnly_ne hp env fun _ => nofun
  | acceptAdmin =>
      refine exec_unit_ne ?_
      rw [exec_acceptAdmin, ha]
      cases w.pendingAdmin with
      | none => simp
      | some q => simp only [Option.elim_some]; split <;> simp
  | cancelAdminProposal =>
      refine exec_unit_ne ?_
      rw [exec_cancelAdminProposal]
      refine adminOnly_ne hp env fun _ => ?_
      cases w.pendingAdmin <;> simp
  | requestCredit b s j =>
      rw [exec_perform_requestCredit]
      exact map_ne_error (requestCredit_ne hp env b s j).1
  | creditLine b => exact nofun

end ZkUnderwrite.Contract
