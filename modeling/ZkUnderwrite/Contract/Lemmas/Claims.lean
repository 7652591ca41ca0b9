import ZkUnderwrite.Lib.Spend
import ZkUnderwrite.Contract.Claims
import ZkUnderwrite.Contract.Token
import ZkUnderwrite.Contract.Lemmas.Outcomes

/-!
# Lists of claims

The contract refines the abstract payer of `Spend`, with the treasury as its budget: a claim that
passes every check in the first state of the list is paid exactly when its nullifier has not been paid
since and the treasury holds the amount.
-/

namespace ZkUnderwrite.Contract
open ByteString Transaction

variable {τ : Type} {P : Platform τ} {w w₀ : World τ} {p : Policy} {c : Claim}

/-! ## One claim -/

theorem exec_claim (hp : Configured w p) (hc : c.Proven P p) :
    (requestCredit (c.invocation.env P) c.borrower c.sealBytes c.journal.val).exec w =
      settle (c.invocation.env P) (w.logRouterCall
        ⟨p.router, c.sealBytes, p.imageId, P.sha256 c.journal.val⟩) p c.borrower c.values := by
  rw [exec_requestCredit _ hp]
  refine (if_pos hc.authorized).trans ((dif_pos c.journal.length_eq).trans ?_)
  exact if_pos hc.proof

theorem claimStep_of_error (hp : Configured w p) (hc : c.Proven P p) {e : Error}
    (he : policyError w p c.values = some e) : claimStep P w c = (.error (.contract e), w) := by
  apply atomically_of_error
  refine (exec_perform_requestCredit _ _ _ _ _).trans ?_
  rw [exec_claim hp hc, settle_of_error _ _ (w := w.logRouterCall _) he]
  rfl

theorem claimStep_of_none (hp : Configured w p) (hc : c.Proven P p)
    (hpol : policyError w p c.values = none)
    (ht : P.transfer p.usdc w.token P.currentContractAddress c.borrower p.creditAmount = none) :
    claimStep P w c = (.error .transfer, w) := by
  apply atomically_of_error
  refine (exec_perform_requestCredit _ _ _ _ _).trans ?_
  rw [exec_claim hp hc, settle_of_none _ _ (w := w.logRouterCall _) hpol]
  simp only [Invocation.env, logRouterCall_token, ht]
  rfl

theorem claimStep_of_some (hp : Configured w p) (hc : c.Proven P p)
    (hpol : policyError w p c.values = none) {t : τ}
    (ht : P.transfer p.usdc w.token P.currentContractAddress c.borrower p.creditAmount = some t) :
    claimStep P w c = (.ok (.amount p.creditAmount),
      (w.logRouterCall ⟨p.router, c.sealBytes, p.imageId, P.sha256 c.journal.val⟩).payOut p
        c.borrower c.nullifier t) := by
  refine atomically_eq_ok.mpr ((exec_perform_requestCredit _ _ _ _ _).trans ?_)
  rw [exec_claim hp hc, settle_of_none _ _ (w := w.logRouterCall _) hpol]
  simp only [Invocation.env, logRouterCall_token, ht]
  rfl

/-- With enough funds a proven claim is decided by the policy checks alone. -/
theorem claimStep_of_funded (hT : FundedToken P) (hp : Configured w p) (hc : c.Proven P p)
    (hfunds : p.creditAmount ≤ P.balance p.usdc w.token P.currentContractAddress) :
    (claimStep P w c).1 = match policyError w p c.values with
      | some e => .error (.contract e)
      | none => .ok (.amount p.creditAmount) := by
  obtain ⟨t, ht⟩ := Option.isSome_iff_exists.mp
    ((hT.funded (b := c.borrower) (Int.le_of_lt p.creditAmount_pos)).mpr hfunds)
  cases hpol : policyError w p c.values with
  | some e => rw [claimStep_of_error hp hc hpol]
  | none => rw [claimStep_of_some hp hc hpol ht]

/-- A claim that the token contract refused has passed every check of the contract. -/
theorem of_claimStep_transfer (hp : Configured w p) (h : (claimStep P w c).1 = .error .transfer) :
    c.Proven P p ∧ policyError w p c.values = none := by
  unfold claimStep invoke at h
  rw [atomically_fst] at h
  have hr := (congrArg Prod.fst (exec_perform_requestCredit _ _ _ _ _)).symm.trans h
  rw [exec_requestCredit _ hp, dif_pos c.journal.length_eq] at hr
  split_ifs at hr with hauth hver
  · refine ⟨⟨hauth, hver⟩, ?_⟩
    cases hpol : policyError w p c.values with
    | none => rfl
    | some e =>
        have hs := settle_of_error (c.invocation.env P) c.borrower (w := w.logRouterCall
          ⟨p.router, c.sealBytes, p.imageId, P.sha256 c.journal.val⟩) hpol
        cases (congrArg (Except.map Ret.amount ·.1) hs).symm.trans hr
  · cases hr
  · cases hr

theorem Configured.afterClaims (hp : Configured w p) (cs : List Claim) :
    Configured (afterClaims P w cs) p :=
  Machine.invariant (I := fun w => Configured w p)
    (fun _ c h => h.step (P := P) (.call c.invocation)) hp cs

/-! ## What claims leave behind -/

theorem configured_payOut {b : Address} {n : BytesN 32} {t : τ} (hp : Configured w p) :
    Configured (w.payOut p b n t) p :=
  ⟨hp.admin, hp.router, hp.imageId, hp.usdc, hp.requiredThreshold, hp.creditAmount⟩

theorem claimStep_cases (hp : Configured w p) (c : Claim) :
    (∃ e, claimStep P w c = (.error e, w)) ∨
      ∃ r t rc, claimStep P w c =
        (.ok r, (w.logRouterCall rc).payOut p c.borrower c.nullifier t) := by
  rcases hs : claimStep P w c with ⟨e | r, w'⟩
  · have hw : (claimStep P w c).2 = w := invoke_error (congrArg Prod.fst hs)
    rw [hs] at hw
    exact .inl ⟨e, congrArg (Prod.mk _) hw⟩
  · have he := Effect.of_invoke (.inr ⟨p, hp⟩) hs
    obtain ⟨p', t, j, hj, hp', -, -, -, -, rfl⟩ := he.of_request rfl
    cases hp.unique hp'
    cases BytesN.ext hj
    exact .inr ⟨r, t, _, rfl⟩

theorem registered_afterClaims (hp : Configured w p) (cs : List Claim) (h : BytesN 32) :
    (afterClaims P w cs).registered h = w.registered h := by
  induction cs generalizing w with
  | nil => rfl
  | cons c cs ih =>
      unfold afterClaims Machine.final
      rcases claimStep_cases (P := P) hp c with ⟨e, he⟩ | ⟨r, t, rc, ht⟩
      · rw [he]
        exact ih hp
      · rw [ht]
        exact ih (configured_payOut (hp.logRouterCall rc))

/-- The nullifiers that claims add are those of the claims that are paid. -/
theorem spent_afterClaims (hp : Configured w p) (cs : List Claim) (n : BytesN 32) :
    (afterClaims P w cs).spent n = true ↔
      w.spent n = true ∨ ∃ c ∈ paidClaims P w cs, c.nullifier = n := by
  induction cs generalizing w with
  | nil => simp [afterClaims, paidClaims, Machine.final, Machine.accepted]
  | cons c cs ih =>
      unfold afterClaims paidClaims Machine.final Machine.accepted
      rcases claimStep_cases (P := P) hp c with ⟨e, he⟩ | ⟨r, t, rc, ht⟩
      · rw [he]
        exact ih hp
      · rw [ht]
        refine (ih (configured_payOut (hp.logRouterCall rc))).trans ?_
        rw [spent_payOut, Bool.or_eq_true, decide_eq_true_iff, or_assoc, or_left_comm]
        refine or_congr_right ?_
        simp only [Except.isOk, Except.toBool, if_true, List.mem_cons, exists_eq_or_imp,
          eq_comm (a := n)]

/-- A claim that would pass is refused, after other claims, exactly when one of them was paid with
the same nullifier. -/
theorem claimStep_afterClaims (hp : Configured w p) (cs : List Claim) (hc : c.Proven P p)
    (hpol : policyError w p c.values = none) :
    (claimStep P (afterClaims P w cs) c).1 = .error (.contract .nullifierAlreadyUsed) ↔
      ∃ d ∈ paidClaims P w cs, d.nullifier = c.nullifier := by
  have hp' := hp.afterClaims (P := P) cs
  obtain ⟨hreg, hthr, hmeets, hfresh⟩ := policyError_eq_none.mp hpol
  rw [← registered_afterClaims (P := P) hp cs] at hreg
  have hspent : (afterClaims P w cs).spent c.values.nullifier = true ↔
      ∃ d ∈ paidClaims P w cs, d.nullifier = c.nullifier := by
    rw [spent_afterClaims hp, hfresh]
    simp [Claim.nullifier]
  rw [← hspent]
  cases hs : (afterClaims P w cs).spent c.values.nullifier with
  | true =>
      have he := (policyError_of_checks hreg hthr hmeets).trans (if_pos hs)
      simp [claimStep_of_error hp' hc he]
  | false =>
      have hnone := policyError_eq_none.mpr ⟨hreg, hthr, hmeets, hs⟩
      cases ht : P.transfer p.usdc (afterClaims P w cs).token P.currentContractAddress c.borrower
          p.creditAmount with
      | none => simp [claimStep_of_none hp' hc hnone ht]
      | some t => simp [claimStep_of_some hp' hc hnone ht]

/-! ## Refinement of the abstract payer -/

/-- The state `w`, reached by claims from `w₀`, seen as a state of the abstract payer. -/
structure Represents (P : Platform τ) (w₀ : World τ) (p : Policy) (w : World τ)
    (s : Spend.State (BytesN 32)) : Prop where
  configured : Configured w p
  registered : ∀ h, w.registered h = w₀.registered h
  spent : ∀ n, w.spent n = true ↔ n ∈ s.spent ∨ w₀.spent n = true
  budget : P.balance p.usdc w.token P.currentContractAddress = s.budget

theorem Represents.refl (P : Platform τ) (hp : Configured w p) :
    Represents P w p w ⟨∅, P.balance p.usdc w.token P.currentContractAddress⟩ :=
  ⟨hp, fun _ => rfl, fun _ => by simp, rfl⟩

theorem Represents.policyError {s : Spend.State (BytesN 32)} (h : Represents P w₀ p w s)
    (hc : c.Passes P w₀ p) :
    policyError w p c.values =
      if c.nullifier ∈ s.spent then some .nullifierAlreadyUsed else none := by
  obtain ⟨hreg, hthr, hmeets, hspent⟩ := policyError_eq_none.mp hc.policy
  have hn : w.spent c.values.nullifier = true ↔ c.nullifier ∈ s.spent := by
    rw [h.spent, hspent]
    simp [Claim.nullifier]
  rw [policyError_of_checks ((h.registered _).trans hreg) hthr hmeets]
  simp only [hn]

theorem Represents.step {s : Spend.State (BytesN 32)} (hT : FundedToken P)
    (h : Represents P w₀ p w s) (hc : c.Passes P w₀ p) :
    (claimStep P w c).1.isOk = (Spend.pay p.creditAmount s c.nullifier).1 ∧
      Represents P w₀ p (claimStep P w c).2 (Spend.pay p.creditAmount s c.nullifier).2 := by
  have hpol := h.policyError hc
  by_cases hn : c.nullifier ∈ s.spent
  · rw [if_pos hn] at hpol
    rw [claimStep_of_error h.configured hc.toProven hpol, Spend.pay_of_spent hn]
    exact ⟨rfl, h⟩
  · rw [if_neg hn] at hpol
    have hfund := hT.funded (u := p.usdc) (t := w.token) (a := P.currentContractAddress)
      (b := c.borrower) (Int.le_of_lt p.creditAmount_pos)
    rw [h.budget] at hfund
    cases ht : P.transfer p.usdc w.token P.currentContractAddress c.borrower p.creditAmount with
    | none =>
        rw [ht] at hfund
        have hlt : s.budget < p.creditAmount := by
          by_contra hle
          exact nomatch hfund.mpr (Int.not_lt.mp hle)
        rw [claimStep_of_none h.configured hc.toProven hpol ht, Spend.pay_of_lt hlt]
        exact ⟨rfl, h⟩
    | some t =>
        rw [ht] at hfund
        have hle := hfund.mp rfl
        rw [claimStep_of_some h.configured hc.toProven hpol ht, Spend.pay_of_le hn hle]
        refine ⟨rfl, configured_payOut (h.configured.logRouterCall _), fun k => ?_, fun k => ?_, ?_⟩
        · exact h.registered k
        · rw [spent_payOut, Bool.or_eq_true, decide_eq_true_iff, Finset.mem_insert, or_assoc]
          exact or_congr_right (h.spent k)
        · exact (hT.sender ht hc.not_self).trans (congrArg (· - p.creditAmount) h.budget)

/-- A claim that failed for lack of funds alone is paid once the treasury holds the amount. -/
theorem retry (hT : FundedToken P) (hp : Configured w p)
    (h : (claimStep P w c).1 = .error .transfer) :
    (claimStep P w c).2 = w ∧ w.spent c.nullifier = false ∧
      ∀ t, p.creditAmount ≤ P.balance p.usdc t P.currentContractAddress →
        (claimStep P (w.setToken t) c).1 = .ok (.amount p.creditAmount) := by
  obtain ⟨hc, hpol⟩ := of_claimStep_transfer hp h
  obtain ⟨-, -, -, hspent⟩ := policyError_eq_none.mp hpol
  refine ⟨invoke_error h, hspent, fun t ht => ?_⟩
  have hp' : Configured (w.setToken t) p := hp.of_storage rfl
  have hpol' : policyError (w.setToken t) p c.values = none := hpol
  rw [claimStep_of_funded hT hp' hc ht, hpol']

theorem paidClaims_spec (hT : FundedToken P) (hp : Configured w p) {cs : List Claim}
    (hcs : ∀ c ∈ cs, c.Passes P w p) :
    (paidClaims P w cs).map Claim.nullifier =
      Spend.paid p.creditAmount ⟨∅, P.balance p.usdc w.token P.currentContractAddress⟩
        (cs.map Claim.nullifier) := by
  refine (Machine.accepted_simulation (R := Represents P w p) (f := Claim.nullifier)
    (fun _ _ h c hc => ?_) (Represents.refl P hp)).1
  exact h.step hT (hcs c hc)

/-! ## The state that paid claims leave -/

/-- The state `w` is `w₀` with the writes and transfers of the claims `cs`, in any order. -/
structure Settled (P : Platform τ) (p : Policy) (w₀ : World τ) (cs : List Claim) (w : World τ) :
    Prop where
  inst : w.storage.inst = w₀.storage.inst
  frame : ∀ k, (∀ c ∈ cs, k ≠ .nullifier c.nullifier ∧ k ≠ .creditLine c.borrower) →
    w.storage.pers k = w₀.storage.pers k
  nullifier : ∀ c ∈ cs, w.storage.pers (.nullifier c.nullifier) = some true
  credit : ∀ c ∈ cs, w.storage.pers (.creditLine c.borrower) = some p.creditAmount
  balance : ∀ u a, P.balance u w.token a = P.balance u w₀.token a -
    (if u = p.usdc ∧ a = P.currentContractAddress then p.creditAmount * cs.length else 0) +
    (if u = p.usdc then p.creditAmount * cs.countP (·.borrower = a) else 0)

theorem Settled.refl (P : Platform τ) (p : Policy) (w : World τ) : Settled P p w [] w :=
  ⟨rfl, fun _ _ => rfl, nofun, nofun, fun u a => by simp⟩

theorem Settled.cons (hT : StandardToken P) {t : τ} {r : RouterCall} {cs : List Claim}
    (ht : P.transfer p.usdc w.token P.currentContractAddress c.borrower p.creditAmount = some t)
    {w' : World τ}
    (h : Settled P p ((w.logRouterCall r).payOut p c.borrower c.nullifier t) cs w') :
    Settled P p w (c :: cs) w' where
  inst := h.inst
  frame k hk := by
    obtain ⟨hn, hb⟩ := hk c List.mem_cons_self
    rw [h.frame k fun d hd => hk d (List.mem_cons_of_mem _ hd)]
    exact pers_payOut_of_ne hn hb
  nullifier d hd := by
    by_cases he : ∃ e ∈ cs, e.nullifier = d.nullifier
    · obtain ⟨e, he, heq⟩ := he
      exact heq ▸ h.nullifier e he
    · rcases List.mem_cons.mp hd with rfl | hd
      · have hk : ∀ e ∈ cs, DataKey.nullifier d.nullifier ≠ .nullifier e.nullifier ∧
            DataKey.nullifier d.nullifier ≠ .creditLine e.borrower :=
          fun e hm => ⟨fun hk => he ⟨e, hm, (DataKey.nullifier.inj hk).symm⟩, nofun⟩
        exact (h.frame _ hk).trans (pers_payOut_nullifier _ _ _ _ _)
      · exact absurd ⟨d, hd, rfl⟩ he
  credit d hd := by
    by_cases he : ∃ e ∈ cs, e.borrower = d.borrower
    · obtain ⟨e, he, heq⟩ := he
      exact heq ▸ h.credit e he
    · rcases List.mem_cons.mp hd with rfl | hd
      · have hk : ∀ e ∈ cs, DataKey.creditLine d.borrower ≠ .nullifier e.nullifier ∧
            DataKey.creditLine d.borrower ≠ .creditLine e.borrower :=
          fun e hm => ⟨nofun, fun hk => he ⟨e, hm, (DataKey.creditLine.inj hk).symm⟩⟩
        exact (h.frame _ hk).trans (pers_payOut_credit _ _ _ _ _)
      · exact absurd ⟨d, hd, rfl⟩ he
  balance u a := by
    have ht' : ((w.logRouterCall r).payOut p c.borrower c.nullifier t).token = t := rfl
    rw [h.balance, ht', hT.moves ht, List.length_cons, List.countP_cons]
    by_cases hu : u = p.usdc
    · simp only [hu, true_and, if_true, decide_eq_true_eq, eq_comm (a := a)]
      push_cast
      simp only [Int.mul_add]
      split_ifs <;> omega
    · simp [hu]

/-- Whatever the claims' order, the claims paid leave their writes and nothing else. -/
theorem settled_paidClaims (hT : FundedToken P) (hp : Configured w p) {cs : List Claim}
    (hcs : ∀ c ∈ cs, c.Proven P p) :
    Settled P p w (paidClaims P w cs) (afterClaims P w cs) := by
  induction cs generalizing w with
  | nil => exact Settled.refl P p w
  | cons c cs ih =>
      have hc := hcs c List.mem_cons_self
      have hcs' : ∀ d ∈ cs, d.Proven P p := fun d hd => hcs d (List.mem_cons_of_mem _ hd)
      unfold paidClaims afterClaims Machine.accepted Machine.final
      cases hpol : policyError w p c.values with
      | some e =>
          rw [claimStep_of_error hp hc hpol]
          exact ih hp hcs'
      | none =>
          cases ht : P.transfer p.usdc w.token P.currentContractAddress c.borrower
              p.creditAmount with
          | none =>
              rw [claimStep_of_none hp hc hpol ht]
              exact ih hp hcs'
          | some t =>
              rw [claimStep_of_some hp hc hpol ht]
              exact (ih (configured_payOut (hp.logRouterCall _)) hcs').cons hT.toStandardToken ht

theorem Settled.perm {cs ds : List Claim} {w₁ w₂ : World τ} (h₁ : Settled P p w cs w₁)
    (h₂ : Settled P p w ds w₂) (h : cs.Perm ds) :
    w₁.storage = w₂.storage ∧ ∀ u a, P.balance u w₁.token a = P.balance u w₂.token a := by
  have hpers : w₁.storage.pers = w₂.storage.pers := by
    funext k
    by_cases hk : ∀ c ∈ cs, k ≠ .nullifier c.nullifier ∧ k ≠ .creditLine c.borrower
    · rw [h₁.frame k hk, h₂.frame k fun c hc => hk c (h.mem_iff.mpr hc)]
    · simp only [not_forall, Classical.not_and_iff_not_or_not, not_not] at hk
      obtain ⟨c, hc, rfl | rfl⟩ := hk
      · rw [h₁.nullifier c hc, h₂.nullifier c (h.mem_iff.mp hc)]
      · rw [h₁.credit c hc, h₂.credit c (h.mem_iff.mp hc)]
  refine ⟨?_, fun u a => ?_⟩
  · exact congrArg₂ Storage.mk (h₁.inst.trans h₂.inst.symm) hpers
  · rw [h₁.balance, h₂.balance, h.length_eq, h.countP_eq]

/-! ## Requests that share a journal -/

theorem of_requested (hp : Configured w p) {x : Input τ} {b : Address} {j : BytesN journalLen}
    (h : requested (Machine.turn (step P) w x) = some (b, j.val)) :
    ∃ i s t, x = .call i ∧ i.call = .requestCredit b s j.val ∧ i.authorized b = true ∧
      i.verify p.router s p.imageId (P.sha256 j.val) = true ∧
      policyError w p (Journal.parse j) = none ∧
      P.transfer p.usdc w.token P.currentContractAddress b p.creditAmount = some t ∧
      (step P w x).2 =
        (w.logRouterCall ⟨p.router, s, p.imageId, P.sha256 j.val⟩).payOut p b
          (Journal.parse j).nullifier t := by
  obtain ⟨i, s, hs, hc⟩ := requested_eq_some.mp h
  obtain ⟨r, hx, he⟩ := turn_effect (.inr ⟨p, hp⟩) hs
  obtain ⟨p', t, j', hj, hp', hauth, hver, hpol, ht, hw⟩ := he.of_request hc
  cases hp.unique hp'
  cases BytesN.ext hj
  exact ⟨i, s, t, hx, hc, hauth, hver, hpol, ht, hw⟩

theorem spent_of_requested (hp : Configured w p) {x : Input τ} {b : Address}
    {j : BytesN journalLen} (h : requested (Machine.turn (step P) w x) = some (b, j.val)) :
    (step P w x).2.spent (Journal.parse j).nullifier = true :=
  (requested_spends (.inr ⟨p, hp⟩) h rfl).2

theorem not_requested_of_spent (hp : Configured w p) {x : Input τ} {b : Address}
    {j : BytesN journalLen} (hn : w.spent (Journal.parse j).nullifier = true) :
    requested (Machine.turn (step P) w x) ≠ some (b, j.val) := by
  intro h
  rw [(requested_spends (.inr ⟨p, hp⟩) h rfl).1] at hn
  cases hn

/-- After a request with the journal `j` has been paid, only the registry of issuers can make another
request with it fail at an earlier check. -/
theorem policyError_after_requested (hp : Configured w p) {xs : List (Input τ)}
    {j : BytesN journalLen} {t : Turn τ} {b : Address}
    (ht : t ∈ Machine.turns (step P) w xs) (hr : requested t = some (b, j.val))
    (hreg : (Machine.final (step P) w xs).registered (Journal.parse j).issuerHash = true) :
    policyError (Machine.final (step P) w xs) p (Journal.parse j) = some .nullifierAlreadyUsed := by
  have hspent : (Machine.final (step P) w xs).spent (Journal.parse j).nullifier = true :=
    Machine.final_of_mem_turns (I := fun w => Configured w p)
      (D := fun w => w.spent (Journal.parse j).nullifier = true)
      (A := fun t => ∃ b, requested t = some (b, j.val))
      (fun _ x h => h.step x) (fun _ _ h ⟨_, hr⟩ => spent_of_requested h hr)
      (fun _ x h => spent_step (.inr ⟨p, h⟩) x) hp ht ⟨b, hr⟩
  have hvalues : p.requiredThreshold ≤ (Journal.parse j).threshold ∧ (Journal.parse j).meets = 1 := by
    refine Machine.turns_forall (I := fun w => Configured w p)
      (Q := fun t => ∀ b, requested t = some (b, j.val) →
        p.requiredThreshold ≤ (Journal.parse j).threshold ∧ (Journal.parse j).meets = 1)
      (fun _ x h => h.step x) (fun w x h b hr => ?_) hp xs t ht b hr
    obtain ⟨_, _, _, -, -, -, -, hpol, -⟩ := of_requested h hr
    obtain ⟨-, hthr, hmeets, -⟩ := policyError_eq_none.mp hpol
    exact ⟨hthr, hmeets⟩
  exact (policyError_of_checks hreg hvalues.1 hvalues.2).trans (if_pos hspent)

end ZkUnderwrite.Contract
