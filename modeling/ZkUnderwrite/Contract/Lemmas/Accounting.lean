import Mathlib.Data.Set.Card
import ZkUnderwrite.Contract.Token
import ZkUnderwrite.Contract.Lemmas.History

/-!
# The books

The list of the grants of a run determines the nullifiers, the credit lines and what has left the
treasury. `Books` says so, and every step keeps it.
-/

namespace ZkUnderwrite.Contract
open ByteString

variable {τ : Type} {P : Platform τ} {w w' : World τ} {ts : List (Turn τ)}

structure Books (P : Platform τ) (ts : List (Turn τ)) (w : World τ) : Prop where
  wellFormed : WellFormed w
  nodup : ((grants ts).map Grant.nullifier).Nodup
  spent : ∀ n, w.spent n = true ↔ n ∈ (grants ts).map Grant.nullifier
  credit : ∀ b, w.credit b = if b ∈ (grants ts).map Grant.borrower then w.creditAmount else none
  idle : w.storage = Storage.empty → grants ts = []
  paidOut : ∀ u, paidOut P u ts =
    if w.usdc = some u then w.creditAmount.getD 0 * (grants ts).length else 0

theorem paidOut_concat (P : Platform τ) (u : Address) (ts : List (Turn τ)) (t : Turn τ) :
    paidOut P u (ts ++ [t]) = paidOut P u ts + outflow P u t := by
  simp [paidOut]

theorem Books.empty (P : Platform τ) (t : τ) : Books P [] (World.empty t) where
  wellFormed := wellFormed_empty t
  nodup := List.nodup_nil
  spent n := by simp [grants, World.spent, World.empty, Storage.empty, Store.has, Store.empty]
  credit b := rfl
  idle _ := rfl
  paidOut u := by simp [Contract.paidOut, grants]

theorem Books.keep {t : Turn τ} (h : Books P ts w) (hg : grant t = none)
    (hwf : WellFormed w') (hspent : ∀ n, w'.spent n = w.spent n)
    (hcredit : ∀ b, w'.credit b = w.credit b) (hpol : ∀ p, Configured w p → Configured w' p)
    (hout : ∀ u, outflow P u t = 0) : Books P (ts ++ [t]) w' := by
  have hgr : grants (ts ++ [t]) = grants ts := by
    rw [grants_concat, hg, Option.toList_none, List.append_nil]
  have hpaid : ∀ u, Contract.paidOut P u (ts ++ [t]) = Contract.paidOut P u ts := by
    intro u
    rw [paidOut_concat, hout, Int.add_zero]
  refine ⟨hwf, hgr ▸ h.nodup, fun n => ?_, fun b => ?_, fun he => ?_, fun u => ?_⟩
  · rw [hspent, hgr, h.spent]
  · rw [hcredit, hgr, h.credit]
    rcases h.wellFormed with he | ⟨p, hp⟩
    · rw [h.idle he]; rfl
    · rw [hp.creditAmount, (hpol p hp).creditAmount]
  · rw [hgr]
    rcases h.wellFormed with he' | ⟨p, hp⟩
    · exact h.idle he'
    · exact absurd he (not_empty_of_configured (hpol p hp))
  · rw [hpaid, hgr, h.paidOut]
    rcases h.wellFormed with he | ⟨p, hp⟩
    · rw [h.idle he]; simp
    · rw [hp.usdc, (hpol p hp).usdc, hp.creditAmount, (hpol p hp).creditAmount]

theorem Books.pay {t : Turn τ} {g : Grant} {p : Policy} (h : Books P ts w) (hp : Configured w p)
    (hp' : Configured w' p) (hg : grant t = some g) (hfresh : w.spent g.nullifier = false)
    (hspent : ∀ n, w'.spent n = (decide (n = g.nullifier) || w.spent n))
    (hcredit : ∀ b, w'.credit b = if b = g.borrower then some p.creditAmount else w.credit b)
    (hout : ∀ u, outflow P u t = if u = p.usdc then p.creditAmount else 0) :
    Books P (ts ++ [t]) w' := by
  have hgr : grants (ts ++ [t]) = grants ts ++ [g] := by rw [grants_concat, hg]; rfl
  refine ⟨.inr ⟨p, hp'⟩, ?_, fun n => ?_, fun b => ?_, fun he => ?_, fun u => ?_⟩
  · have hn : g.nullifier ∉ (grants ts).map Grant.nullifier := by
      rw [← h.spent, hfresh]; simp
    rw [hgr, List.map_append]
    exact List.nodup_append.mpr ⟨h.nodup, List.nodup_singleton _, by
      intro a ha b hb
      rw [List.map_singleton, List.mem_singleton] at hb
      rintro rfl
      exact hn (hb ▸ ha)⟩
  · rw [hspent, hgr, Bool.or_eq_true, h.spent, decide_eq_true_iff, List.map_append]
    simp [or_comm]
  · rw [hcredit, hgr, h.credit, hp'.creditAmount, hp.creditAmount, List.map_append]
    by_cases hb : b = g.borrower <;> simp [hb]
  · exact absurd he (not_empty_of_configured hp')
  · rw [paidOut_concat, h.paidOut, hout, hgr, hp.usdc, hp'.usdc, hp.creditAmount, hp'.creditAmount]
    by_cases hu : u = p.usdc
    · subst hu
      simp [Int.mul_add]
    · simp [hu, Ne.symm hu]

/-- The contract's own address never authorises a request as the borrower. -/
def NotSelf (P : Platform τ) : World τ → Input τ → Prop
  | _, .call i => ∀ s j, i.call = .requestCredit P.currentContractAddress s j →
      i.authorized P.currentContractAddress = false
  | _, .token _ => True

theorem Books.step (hT : StandardToken P) (h : Books P ts w) (x : Input τ) (hx : NotSelf P w x) :
    Books P (ts ++ [Machine.turn (Contract.step P) w x]) (Contract.step P w x).2 := by
  cases hs : succeeded (Machine.turn (Contract.step P) w x) with
  | none =>
      have hg : grant (Machine.turn (Contract.step P) w x) = none := by unfold grant; rw [hs]; rfl
      have hst := turn_frame hs
      refine h.keep hg (h.wellFormed.step x) (fun n => ?_) (fun b => ?_)
        (fun p hp => hp.of_storage hst) (fun u => ?_)
      · exact congrArg (Store.has · (.nullifier n)) (congrArg Storage.pers hst)
      · exact congrFun (congrArg Storage.pers hst) (.creditLine b)
      · cases x with
        | token t => rfl
        | call i =>
            have hw := call_frame hs
            simp only [outflow, Machine.turn, hw, Int.sub_self]
  | some i =>
      obtain ⟨r, rfl, he⟩ := turn_effect h.wellFormed hs
      have hgi : grant (Machine.turn (Contract.step P) w (.call i)) = i.call.grant := by
        unfold grant; rw [hs]; rfl
      cases hg : i.call.grant with
      | none =>
          obtain ⟨hspent, hcredit, htok⟩ := he.of_grant_none hg
          refine h.keep (hgi.trans hg) (h.wellFormed.step _) hspent hcredit
            (fun p hp => he.configured hp) (fun u => ?_)
          simp only [outflow, Machine.turn, htok, Int.sub_self]
      | some g =>
          obtain ⟨s, j, p, t, hc, hp, hauth, hfresh, ht, hw⟩ := he.of_grant hg
          have hne : P.currentContractAddress ≠ g.borrower := by
            intro hself
            rw [← hself] at hc hauth
            rw [hx s _ hc] at hauth
            cases hauth
          refine h.pay hp (he.configured hp) (hgi.trans hg) hfresh (fun n => ?_)
            (fun b => ?_) (fun u => ?_)
          · rw [hw, spent_payOut]; rfl
          · rw [hw, credit_payOut]; rfl
          · have htok : (Contract.step P w (.call i)).2.token = t := by rw [hw]; rfl
            simp only [outflow, Machine.turn, htok]
            by_cases hu : u = p.usdc
            · subst hu
              rw [hT.sender ht hne, if_pos rfl]
              omega
            · rw [hT.other_token ht hu, if_neg hu]
              omega

theorem books_run (hT : StandardToken P) {t₀ : τ} {xs : List (Input τ)}
    (hself : ∀ i s j, .call i ∈ xs → i.call = .requestCredit P.currentContractAddress s j →
      i.authorized P.currentContractAddress = false) :
    Books P (history P t₀ xs) (run P t₀ xs) := by
  have hok : Machine.Admissible (step P) (NotSelf P) (World.empty t₀) xs := by
    refine Machine.admissible_of_forall_mem fun w x hx => ?_
    cases x with
    | token t => trivial
    | call i => exact fun s j hc => hself i s j hx hc
  exact Machine.history_invariant (Books.empty P t₀) (fun ts w x h hx => h.step hT x hx) hok

theorem Books.spent_iff (h : Books P ts w) {n : BytesN 32} :
    w.spent n = true ↔ ∃ t ∈ ts, ∃ b j, requested t = some (b, j) ∧ slice j 41 32 = n.val := by
  rw [h.spent, List.mem_map]
  constructor
  · rintro ⟨g, hg, rfl⟩
    obtain ⟨t, ht, hgt⟩ := List.mem_filterMap.mp hg
    obtain ⟨j, hr, hn⟩ := requested_of_grant hgt
    exact ⟨t, ht, _, j, hr, hn⟩
  · rintro ⟨t, ht, b, j, hr, hn⟩
    refine ⟨⟨b, n⟩, List.mem_filterMap.mpr ⟨t, ht, ?_⟩, rfl⟩
    rw [grant_of_requested hr, BytesN.ofBytes_eq_some.mpr hn]
    rfl

def Granted (ts : List (Turn τ)) : Prop :=
  ∀ t ∈ ts, ∀ b j, requested t = some (b, j) →
    ∃ n, grant t = some ⟨b, n⟩ ∧ slice j 41 32 = n.val

theorem granted_run (P : Platform τ) (t₀ : τ) (xs : List (Input τ)) : Granted (history P t₀ xs) :=
  history_forall (fun _ _ hw _ _ h => grant_of_requested_turn hw h) t₀ xs

theorem Books.single_spend (h : Books P ts w) (hg : Granted ts) :
    ts.Pairwise fun t t' => ∀ b j b' j', requested t = some (b, j) →
      requested t' = some (b', j') → slice j 41 32 ≠ slice j' 41 32 := by
  have hp := List.pairwise_filterMap.mp (List.pairwise_map.mp h.nodup)
  refine hp.imp_of_mem fun {t t'} ht ht' hne b j b' j' hr hr' heq => ?_
  obtain ⟨n, hn, hj⟩ := hg t ht b j hr
  obtain ⟨n', hn', hj'⟩ := hg t' ht' b' j' hr'
  exact hne _ hn _ hn' (BytesN.ext (hj.symm.trans (heq.trans hj')))

theorem Books.credit_iff (h : Books P ts w) (hg : Granted ts) {b : Address} {a : Int} :
    w.credit b = some a ↔
      (∃ t ∈ ts, ∃ j, requested t = some (b, j)) ∧ w.creditAmount = some a := by
  rw [h.credit]
  by_cases hb : b ∈ (grants ts).map Grant.borrower
  · obtain ⟨g, hg, rfl⟩ := List.mem_map.mp hb
    obtain ⟨t, ht, hgt⟩ := List.mem_filterMap.mp hg
    obtain ⟨j, hr, -⟩ := requested_of_grant hgt
    rw [if_pos hb]
    exact ⟨fun ha => ⟨⟨t, ht, j, hr⟩, ha⟩, And.right⟩
  · rw [if_neg hb]
    refine ⟨nofun, fun ⟨⟨t, ht, j, hr⟩, _⟩ => absurd ?_ hb⟩
    obtain ⟨n, hn, -⟩ := hg t ht b j hr
    exact List.mem_map.mpr ⟨⟨b, n⟩, List.mem_filterMap.mpr ⟨t, ht, hn⟩, rfl⟩

theorem Books.card_spent (h : Books P ts w) : {n | w.spent n = true}.ncard = (grants ts).length := by
  have hset : {n | w.spent n = true} = (((grants ts).map Grant.nullifier).toFinset : Set _) := by
    ext n
    simp only [Set.mem_ofPred_eq, h.spent, List.coe_toFinset]
  rw [hset, Set.ncard_coe_finset, List.toFinset_card_of_nodup h.nodup, List.length_map]

end ZkUnderwrite.Contract
