import ZkUnderwrite.Contract.Requests
import ZkUnderwrite.Contract.Token
import ZkUnderwrite.Contract.Lemmas.Outcomes

/-!
# How a request ends

A request fails with the error of the first check that it does not pass, and is paid when it passes all
of them.
-/

namespace ZkUnderwrite.Contract
open ByteString Transaction

variable {τ : Type} {P : Platform τ} {w : World τ} {p : Policy}

/-! ## Checks in order -/

@[simp] theorem firstFailure_nil {ε : Type} : firstFailure ([] : List (Bool × ε)) = none := rfl

@[simp] theorem firstFailure_cons {ε : Type} (c : Bool) (e : ε) (cs : List (Bool × ε)) :
    firstFailure ((c, e) :: cs) = if c then firstFailure cs else some e := by
  cases c <;> rfl

theorem firstFailure_eq_none {ε : Type} {cs : List (Bool × ε)} :
    firstFailure cs = none ↔ ∀ c ∈ cs, c.1 = true := by
  simp [firstFailure]

/-! ## The outcome -/

theorem invoke_request_of_error {r : Request} {e : Fault}
    (h : ((requestCredit (r.invocation.env P) r.borrower r.sealBytes r.journal).exec w).1 =
      .error e) : invoke P r.invocation w = (.error e, w) := by
  have hexec : ((perform (r.invocation.env P) r.invocation.call).exec w).1 = .error e := by
    show ((perform (r.invocation.env P) (.requestCredit r.borrower r.sealBytes r.journal)).exec w).1 = _
    rw [exec_perform_requestCredit, h]
    rfl
  exact atomically_of_error (Prod.ext hexec rfl)

theorem invoke_request_of_ok {r : Request} {n : Int} {w' : World τ}
    (h : (requestCredit (r.invocation.env P) r.borrower r.sealBytes r.journal).exec w =
      (.ok n, w')) : invoke P r.invocation w = (.ok (.amount n), w') := by
  refine atomically_eq_ok.mpr ?_
  show (perform (r.invocation.env P) (.requestCredit r.borrower r.sealBytes r.journal)).exec w = _
  rw [exec_perform_requestCredit, h]
  rfl

/-- The policy checks on the values of a journal are the checks on its bytes. -/
theorem policyError_eq_firstFailure (hw : Configured w p) (r : Request)
    (h : r.journal.length = journalLen) (cs : List (Bool × Fault)) :
    firstFailure ((r.issuerHash.any w.registered, .contract .issuerNotRegistered) ::
      (w.requiredThreshold.any (fun t => t.toNat ≤ beNat (slice r.journal 32 8)),
        .contract .thresholdTooLow) ::
      (decide (r.journal[40]? = some 1), .contract .incomeBelowThreshold) ::
      (r.nullifier.any (fun n => !w.spent n), .contract .nullifierAlreadyUsed) :: cs) =
    (policyError w p (Journal.parse ⟨r.journal, h⟩)).elim (firstFailure cs)
      fun e => some (.contract e) := by
  have hissuer : r.issuerHash = some (Journal.parse ⟨r.journal, h⟩).issuerHash :=
    BytesN.ofBytes_val (Journal.parse ⟨r.journal, h⟩).issuerHash
  have hnullifier : r.nullifier = some (Journal.parse ⟨r.journal, h⟩).nullifier :=
    Journal.nullifier_parse ⟨r.journal, h⟩
  have hmeets : r.journal[40]? = some (Journal.parse ⟨r.journal, h⟩).meets :=
    get_meets ⟨r.journal, h⟩
  have hthreshold : beNat (slice r.journal 32 8) =
      (Journal.parse ⟨r.journal, h⟩).threshold.toNat := by
    have hlt := beNat_lt (slice r.journal 32 8)
    rw [length_slice (by rw [h]; decide)] at hlt
    exact (UInt64.toNat_ofNat_of_lt' hlt).symm
  simp only [firstFailure_cons, hissuer, hnullifier, hmeets, hthreshold, hw.requiredThreshold,
    Option.any_some, policyError, ← UInt64.le_iff_toNat_le, ← UInt64.not_lt]
  split_ifs <;> simp_all

theorem verdict_of_configured (hw : Configured w p) (r : Request) :
    r.verdict P w = r.verify p.router r.sealBytes p.imageId (P.sha256 r.journal) := by
  simp [Request.verdict, hw.router, hw.imageId]

theorem transfer_of_configured (hw : Configured w p) (r : Request) :
    r.transfer P w =
      P.transfer p.usdc w.token P.currentContractAddress r.borrower p.creditAmount := by
  simp [Request.transfer, hw.usdc, hw.creditAmount]

/-- Past the router a request ends as `settle` does on the values of its journal. -/
theorem settle_request_cases (hw : Configured w p) (r : Request) (h : r.journal.length = journalLen)
    (hauth : r.authorized r.borrower = true) (hver : r.verdict P w = true) (c : RouterCall) :
    (∃ e, firstFailure (r.checks P w) = some e ∧
      (settle (r.invocation.env P) (w.logRouterCall c) p r.borrower
        (Journal.parse ⟨r.journal, h⟩)).1 = .error e) ∨
    (firstFailure (r.checks P w) = none ∧ ∃ k t, r.nullifier = some k ∧ r.transfer P w = some t ∧
      settle (r.invocation.env P) (w.logRouterCall c) p r.borrower (Journal.parse ⟨r.journal, h⟩) =
        (.ok p.creditAmount, (w.logRouterCall c).payOut p r.borrower k t)) := by
  obtain ⟨a, ha⟩ := hw.admin
  have hchecks : firstFailure (r.checks P w) =
      (policyError w p (Journal.parse ⟨r.journal, h⟩)).elim
        (firstFailure [((r.transfer P w).isSome, Fault.transfer)]) fun e => some (.contract e) := by
    rw [← policyError_eq_firstFailure hw r h]
    simp only [Request.checks, firstFailure_cons, hauth, ha, hver, show r.journal.length = 81 from h,
      Option.isSome_some, decide_true, if_true]
  rw [hchecks]
  cases hpol : policyError w p (Journal.parse ⟨r.journal, h⟩) with
  | some e => exact .inl ⟨_, rfl, congrArg Prod.fst (settle_of_error _ _ (w := w.logRouterCall c) hpol)⟩
  | none =>
      cases ht : P.transfer p.usdc w.token P.currentContractAddress r.borrower p.creditAmount with
      | none =>
          refine .inl ⟨.transfer, by simp [transfer_of_configured hw, ht], ?_⟩
          exact congrArg Prod.fst (settle_of_transfer_none _ (w := w.logRouterCall c) hpol ht)
      | some t =>
          refine .inr ⟨by simp [transfer_of_configured hw, ht], _, t,
            Journal.nullifier_parse ⟨r.journal, h⟩, (transfer_of_configured hw r).trans ht, ?_⟩
          exact (settle_eq_ok _).mpr ⟨rfl, hpol, t, ht, rfl⟩

theorem exec_request (hw : Configured w p) (r : Request) :
    (requestCredit (r.invocation.env P) r.borrower r.sealBytes r.journal).exec w =
      if r.authorized r.borrower then
        if h : r.journal.length = journalLen then
          if r.verdict P w then
            settle (r.invocation.env P)
              (w.logRouterCall ⟨p.router, r.sealBytes, p.imageId, P.sha256 r.journal⟩) p r.borrower
              (Journal.parse ⟨r.journal, h⟩)
          else (.error .verifier,
            w.logRouterCall ⟨p.router, r.sealBytes, p.imageId, P.sha256 r.journal⟩)
        else (.error (.contract .badJournalLength), w)
      else (.error (.unauthorized r.borrower), w) := by
  rw [verdict_of_configured hw]
  exact exec_requestCredit _ hw _ _ _

/-- A refused request changes nothing, and a paid one has passed all checks. -/
theorem request_cases (hw : WellFormed w) (r : Request) :
    (∃ e, firstFailure (r.checks P w) = some e ∧ invoke P r.invocation w = (.error e, w)) ∨
    (firstFailure (r.checks P w) = none ∧ ∃ p k t c, Configured w p ∧ r.nullifier = some k ∧
      r.transfer P w = some t ∧ invoke P r.invocation w =
        (.ok (.amount p.creditAmount), (w.logRouterCall c).payOut p r.borrower k t)) := by
  by_cases hauth : r.authorized r.borrower = true
  case neg =>
    refine .inl ⟨.unauthorized r.borrower, by simp [Request.checks, hauth], invoke_request_of_error ?_⟩
    rcases hw with he | ⟨p, hp⟩
    · rw [exec_requestCredit_of_admin_none _ _ _ _ _ (admin_of_empty he)]
      exact congrArg Prod.fst (if_neg hauth)
    · rw [exec_request hp, if_neg hauth]
  rcases hw with he | ⟨p, hp⟩
  · have ha := admin_of_empty he
    refine .inl ⟨.contract .notInitialized, by simp [Request.checks, hauth, ha],
      invoke_request_of_error ?_⟩
    rw [exec_requestCredit_of_admin_none _ _ _ _ _ ha]
    exact congrArg Prod.fst (if_pos hauth)
  obtain ⟨a, ha⟩ := hp.admin
  have hexec := exec_request (P := P) hp r
  rw [if_pos hauth] at hexec
  by_cases hlen : r.journal.length = journalLen
  case neg =>
    rw [dif_neg hlen] at hexec
    refine .inl ⟨.contract .badJournalLength, ?_, invoke_request_of_error (congrArg Prod.fst hexec)⟩
    simp [Request.checks, hauth, ha, show ¬ r.journal.length = 81 from hlen]
  rw [dif_pos hlen] at hexec
  by_cases hver : r.verdict P w = true
  case neg =>
    rw [if_neg hver] at hexec
    refine .inl ⟨.verifier, ?_, invoke_request_of_error (congrArg Prod.fst hexec)⟩
    simp [Request.checks, hauth, ha, show r.journal.length = 81 from hlen, hver]
  rw [if_pos hver] at hexec
  rcases settle_request_cases hp r hlen hauth hver _ with ⟨e, he, hs⟩ | ⟨hnone, k, t, hk, ht, hs⟩
  · exact .inl ⟨e, he, invoke_request_of_error ((congrArg Prod.fst hexec).trans hs)⟩
  · exact .inr ⟨hnone, p, k, t, _, hp, hk, ht, invoke_request_of_ok (hexec.trans hs)⟩

/-- What the state after a payment differs in. -/
theorem paid_of_transfer (hT : StandardToken P) (hw : Configured w p) {r : Request} {t : τ}
    (ht : r.transfer P w = some t) (k : BytesN 32) (c : RouterCall) :
    Paid P w ((w.logRouterCall c).payOut p r.borrower k t) r.borrower p.creditAmount k where
  inst := rfl
  pers key hk hb := pers_payOut_of_ne hk hb
  nullifier := pers_payOut_nullifier _ _ _ _ _
  creditLine := pers_payOut_credit _ _ _ _ _
  balance u a := by
    have hmoves := hT.moves ((transfer_of_configured hw r).symm.trans ht) u a
    have husdc : w.usdc = some u ↔ u = p.usdc := by
      rw [hw.usdc, Option.some.injEq]
      exact eq_comm
    simp only [husdc]
    exact hmoves
  events := rfl

end ZkUnderwrite.Contract
