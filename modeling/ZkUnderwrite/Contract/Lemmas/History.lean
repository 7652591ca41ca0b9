import ZkUnderwrite.Contract.History
import ZkUnderwrite.Contract.Lemmas.Effects

/-!
# Turns and runs

A turn is a successful call with its effect, or it leaves the storage as it is. Every state of a run
is well formed.
-/

namespace ZkUnderwrite.Contract
open ByteString

variable {τ : Type} {P : Platform τ} {w : World τ} {x : Input τ} {i : Invocation}

/-! ## Well-formed states -/

theorem Effect.storage_of_empty {w' : World τ} {r : Ret} (h : Effect P w i r w')
    (he : w.storage = Storage.empty) (hc : i.call.isInit = false) : w'.storage = Storage.empty := by
  have ha := admin_of_empty he
  cases h with
  | init hi _ _ => rw [hi] at hc; cases hc
  | creditLine _ => exact he
  | requestCredit _ hp _ _ _ _ =>
      obtain ⟨a, ha'⟩ := hp.admin
      rw [ha] at ha'; cases ha'
  | registerIssuer _ ha' _ | unregisterIssuer _ ha' _ | proposeAdmin _ ha' _
  | acceptAdmin _ ha' _ _ | cancelAdminProposal _ ha' _ _ => rw [ha] at ha'; cases ha'

theorem Effect.isInit {w' : World τ} {r : Ret} (h : Effect P w i r w') (hc : i.call.isInit = true) :
    ∃ a p, i.call = .init a p.router p.imageId p.usdc p.requiredThreshold p.creditAmount ∧
      w.admin = none ∧ Configured w' p := by
  cases h with
  | init hi ha _ => exact ⟨_, _, hi, ha, configured_install _ _ _⟩
  | registerIssuer h _ _ | unregisterIssuer h _ _ | proposeAdmin h _ _ | acceptAdmin h _ _ _
  | cancelAdminProposal h _ _ _ | requestCredit h _ _ _ _ _ | creditLine h => rw [h] at hc; cases hc

theorem Effect.wellFormed {w' : World τ} {r : Ret} (h : Effect P w i r w') (hw : WellFormed w) :
    WellFormed w' := by
  rcases hw with he | ⟨p, hp⟩
  · cases hc : i.call.isInit with
    | true =>
        obtain ⟨_, p, -, -, hp⟩ := h.isInit hc
        exact .inr ⟨p, hp⟩
    | false => exact .inl (h.storage_of_empty he hc)
  · exact .inr ⟨p, h.configured hp⟩

/-! ## Turns -/

theorem succeeded_turn_call :
    succeeded (Machine.turn (step P) w (.call i)) =
      match (invoke P i w).1 with
      | .ok _ => some i
      | .error _ => none := by
  cases h : (invoke P i w).1 <;> simp [succeeded, Machine.turn, step, h]

theorem turn_effect (hw : WellFormed w) (h : succeeded (Machine.turn (step P) w x) = some i) :
    ∃ r, x = .call i ∧ Effect P w i r (step P w x).2 := by
  cases x with
  | token t => cases h
  | call j =>
      rw [succeeded_turn_call] at h
      cases hr : (invoke P j w).1 with
      | error e => rw [hr] at h; cases h
      | ok r =>
          rw [hr] at h
          cases h
          exact ⟨r, rfl, Effect.of_invoke hw (Prod.ext hr rfl)⟩

/-- A turn that is no successful call writes nothing to the storage. -/
theorem turn_frame (h : succeeded (Machine.turn (step P) w x) = none) :
    (step P w x).2.storage = w.storage := by
  cases x with
  | token t => rfl
  | call j =>
      rw [succeeded_turn_call] at h
      cases hr : (invoke P j w).1 with
      | error e => exact congrArg World.storage (invoke_error hr)
      | ok r => rw [hr] at h; cases h

theorem call_frame (h : succeeded (Machine.turn (step P) w (.call i)) = none) :
    (step P w (.call i)).2 = w := by
  rw [succeeded_turn_call] at h
  cases hr : (invoke P i w).1 with
  | error e => exact invoke_error hr
  | ok r => rw [hr] at h; cases h

theorem Configured.of_storage {w w' : World τ} {p : Policy} (h : Configured w p)
    (hs : w'.storage = w.storage) : Configured w' p := by
  have hi : w'.storage.inst = w.storage.inst := congrArg Storage.inst hs
  obtain ⟨⟨a, ha⟩, hr, hm, hu, ht, hc⟩ := h
  exact ⟨⟨a, (congrFun hi .admin).trans ha⟩, (congrFun hi .router).trans hr,
    (congrFun hi .imageId).trans hm, (congrFun hi .usdc).trans hu,
    (congrFun hi .requiredThreshold).trans ht, (congrFun hi .creditAmount).trans hc⟩

theorem WellFormed.step (hw : WellFormed w) (x : Input τ) : WellFormed (step P w x).2 := by
  cases h : succeeded (Machine.turn (Contract.step P) w x) with
  | none =>
      rcases hw with he | ⟨p, hp⟩
      · exact .inl ((turn_frame h).trans he)
      · exact .inr ⟨p, hp.of_storage (turn_frame h)⟩
  | some i =>
      obtain ⟨_, -, he⟩ := turn_effect hw h
      exact he.wellFormed hw

theorem wellFormed_empty (t : τ) : WellFormed (World.empty t) := .inl rfl

theorem wellFormed_run (P : Platform τ) (t₀ : τ) (xs : List (Input τ)) :
    WellFormed (run P t₀ xs) :=
  Machine.invariant (fun _ x h => h.step x) (wellFormed_empty t₀) xs

theorem history_forall {Q : Turn τ → Prop}
    (hQ : ∀ w x, WellFormed w → Q (Machine.turn (step P) w x)) (t₀ : τ) (xs : List (Input τ)) :
    ∀ t ∈ history P t₀ xs, Q t :=
  Machine.turns_forall (fun _ x h => h.step x) hQ (wellFormed_empty t₀) xs

theorem Reachable.wellFormed (h : Reachable P w) : WellFormed w := by
  obtain ⟨t, h⟩ := h
  exact h.invariant (wellFormed_empty t) fun _ x hw => hw.step x

theorem Configured.step {p : Policy} (hp : Configured w p) (x : Input τ) :
    Configured (step P w x).2 p := by
  cases h : succeeded (Machine.turn (Contract.step P) w x) with
  | none => exact hp.of_storage (turn_frame h)
  | some i =>
      obtain ⟨_, -, he⟩ := turn_effect (.inr ⟨p, hp⟩) h
      exact he.configured hp

theorem Configured.final {p : Policy} (hp : Configured w p) (xs : List (Input τ)) :
    Configured (Machine.final (Contract.step P) w xs) p :=
  Machine.invariant (I := fun w => Configured w p) (fun _ x h => h.step x) hp xs

theorem Configured.unique {p q : Policy} (hp : Configured w p) (hq : Configured w q) : p = q := by
  have h₁ := Option.some.inj (hp.router.symm.trans hq.router)
  have h₂ := Option.some.inj (hp.imageId.symm.trans hq.imageId)
  have h₃ := Option.some.inj (hp.usdc.symm.trans hq.usdc)
  have h₄ := Option.some.inj (hp.requiredThreshold.symm.trans hq.requiredThreshold)
  have h₅ := Option.some.inj (hp.creditAmount.symm.trans hq.creditAmount)
  cases p
  cases q
  simp_all

theorem not_empty_of_configured {p : Policy} (hp : Configured w p) : w.storage ≠ Storage.empty := by
  intro he
  obtain ⟨a, ha⟩ := hp.admin
  rw [admin_of_empty he] at ha
  cases ha

/-! ## Successful requests -/

theorem does_of_none {p : Call → Bool} {t : Turn τ} (h : succeeded t = none) : does p t = false := by
  unfold does
  rw [h]
  rfl

theorem does_of_some {p : Call → Bool} {t : Turn τ} (h : succeeded t = some i) :
    does p t = p i.call := by
  unfold does
  rw [h]
  rfl

theorem does_eq_true {p : Call → Bool} {t : Turn τ} :
    does p t = true ↔ ∃ i, succeeded t = some i ∧ p i.call = true := by
  unfold does
  cases succeeded t <;> simp

theorem does_mono {p q : Call → Bool} {t : Turn τ} (hpq : ∀ c, p c = true → q c = true)
    (h : does p t = true) : does q t = true := by
  obtain ⟨i, hs, hc⟩ := does_eq_true.mp h
  exact does_eq_true.mpr ⟨i, hs, hpq _ hc⟩

theorem requested_eq_some {t : Turn τ} {b : Address} {j : Bytes} :
    requested t = some (b, j) ↔
      ∃ i s, succeeded t = some i ∧ i.call = .requestCredit b s j := by
  unfold requested
  cases succeeded t with
  | none => simp
  | some i => cases hc : i.call <;> simp [hc]

theorem grant_eq_some {t : Turn τ} {g : Grant} :
    grant t = some g ↔ ∃ i, succeeded t = some i ∧ i.call.grant = some g :=
  Option.bind_eq_some_iff

theorem grant_of_requested {t : Turn τ} {b : Address} {j : Bytes} (h : requested t = some (b, j)) :
    grant t = (BytesN.ofBytes 32 (slice j 41 32)).map fun n => ⟨b, n⟩ := by
  obtain ⟨i, s, hs, hc⟩ := requested_eq_some.mp h
  unfold grant
  rw [hs, Option.bind_some, hc]
  rfl

theorem requested_of_grant {t : Turn τ} {g : Grant} (h : grant t = some g) :
    ∃ j, requested t = some (g.borrower, j) ∧ slice j 41 32 = g.nullifier.val := by
  obtain ⟨i, hs, hg⟩ := grant_eq_some.mp h
  cases hc : i.call with
  | requestCredit b s j =>
      rw [hc, Call.grant, Option.map_eq_some_iff] at hg
      obtain ⟨n, hn, rfl⟩ := hg
      exact ⟨j, requested_eq_some.mpr ⟨i, s, hs, hc⟩, BytesN.ofBytes_eq_some.mp hn⟩
  | init _ _ _ _ _ _ | registerIssuer _ | unregisterIssuer _ | proposeAdmin _ | acceptAdmin
  | cancelAdminProposal | creditLine _ => rw [hc] at hg; cases hg

theorem grant_of_requested_turn (hw : WellFormed w) {b : Address} {j : Bytes}
    (h : requested (Machine.turn (step P) w x) = some (b, j)) :
    ∃ n, grant (Machine.turn (step P) w x) = some ⟨b, n⟩ ∧ slice j 41 32 = n.val := by
  obtain ⟨i, s, hs, hc⟩ := requested_eq_some.mp h
  obtain ⟨_, -, he⟩ := turn_effect hw hs
  obtain ⟨n, hg, hn⟩ := he.grant_eq hc
  exact ⟨n, grant_eq_some.mpr ⟨i, hs, hg⟩, hn⟩

/-- A successful request spends its nullifier, which was not spent before. -/
theorem requested_spends (hw : WellFormed w) {b : Address} {j : Bytes} {n : BytesN 32}
    (h : requested (Machine.turn (step P) w x) = some (b, j)) (hn : slice j 41 32 = n.val) :
    w.spent n = false ∧ (step P w x).2.spent n = true := by
  obtain ⟨n', hg, hn'⟩ := grant_of_requested_turn hw h
  cases BytesN.ext (hn'.symm.trans hn)
  obtain ⟨i, hs, hg⟩ := grant_eq_some.mp hg
  obtain ⟨r, -, he⟩ := turn_effect hw hs
  obtain ⟨_, _, _, _, -, -, -, hfresh, -, hw'⟩ := he.of_grant hg
  refine ⟨hfresh, ?_⟩
  rw [hw', spent_payOut, decide_eq_true rfl, Bool.true_or]

theorem spent_step (hw : WellFormed w) (x : Input τ) {n : BytesN 32} (hn : w.spent n = true) :
    (step P w x).2.spent n = true := by
  cases hs : succeeded (Machine.turn (step P) w x) with
  | none =>
      exact (congrArg (Store.has · (.nullifier n)) (congrArg Storage.pers (turn_frame hs))).trans hn
  | some i =>
      obtain ⟨_, -, he⟩ := turn_effect hw hs
      cases hg : i.call.grant with
      | none => exact ((he.of_grant_none hg).1 n).trans hn
      | some g =>
          obtain ⟨_, _, _, _, -, -, -, -, -, hw'⟩ := he.of_grant hg
          rw [hw', spent_payOut, Bool.or_eq_true]
          exact .inr hn

theorem grants_concat (ts : List (Turn τ)) (t : Turn τ) :
    grants (ts ++ [t]) = grants ts ++ (grant t).toList := by
  unfold grants
  rw [List.filterMap_append]
  cases h : grant t <;> simp [h]

/-! ## The one `init` -/

/-- A policy that a successful call leaves was there before, or the call is the `init` with it. -/
theorem Effect.configured_before {w' : World τ} {r : Ret} {p : Policy} (h : Effect P w i r w')
    (hw : WellFormed w) (hp : Configured w' p) :
    Configured w p ∨
      ∃ a, i.call = .init a p.router p.imageId p.usdc p.requiredThreshold p.creditAmount := by
  rcases hw with he | ⟨q, hq⟩
  · cases hc : i.call.isInit with
    | true =>
        obtain ⟨a, q, hi, -, hq⟩ := h.isInit hc
        cases hp.unique hq
        exact .inr ⟨a, hi⟩
    | false => exact absurd (h.storage_of_empty he hc) (not_empty_of_configured hp)
  · cases hp.unique (h.configured hq)
    exact .inl hq

/-- The storage is empty and no `init` has succeeded, or exactly one has and its arguments are the
stored policy. -/
def OneInit (ts : List (Turn τ)) (w : World τ) : Prop :=
  (w.storage = Storage.empty ∧ ts.filter (does Call.isInit) = []) ∨
  ∃ p t i a, Configured w p ∧ ts.filter (does Call.isInit) = [t] ∧ succeeded t = some i ∧
    i.call = .init a p.router p.imageId p.usdc p.requiredThreshold p.creditAmount

theorem filter_concat_of_false {α : Type} {f : α → Bool} {x : α} (h : f x = false) (l : List α) :
    (l ++ [x]).filter f = l.filter f := by
  simp [List.filter_append, h]

theorem OneInit.step {ts : List (Turn τ)} (h : OneInit ts w) (x : Input τ) :
    OneInit (ts ++ [Machine.turn (Contract.step P) w x]) (Contract.step P w x).2 := by
  cases hs : succeeded (Machine.turn (Contract.step P) w x) with
  | none =>
      unfold OneInit
      rw [filter_concat_of_false (does_of_none hs)]
      rcases h with ⟨he, hf⟩ | ⟨p, t, i, a, hp, hf, ht, hc⟩
      · exact .inl ⟨(turn_frame hs).trans he, hf⟩
      · exact .inr ⟨p, t, i, a, hp.of_storage (turn_frame hs), hf, ht, hc⟩
  | some i =>
      have hd := does_of_some (p := Call.isInit) hs
      rcases h with ⟨he, hf⟩ | ⟨p, t, j, a, hp, hf, ht, hc⟩
      · obtain ⟨_, -, heff⟩ := turn_effect (.inl he) hs
        cases hi : i.call.isInit with
        | true =>
            obtain ⟨a, p, hc, -, hp⟩ := heff.isInit hi
            rw [hi] at hd
            refine .inr ⟨p, _, i, a, hp, ?_, hs, hc⟩
            rw [List.filter_append, hf, List.nil_append, List.filter_singleton, hd]
            rfl
        | false =>
            rw [hi] at hd
            exact .inl ⟨heff.storage_of_empty he hi, (filter_concat_of_false hd ts).trans hf⟩
      · obtain ⟨_, -, heff⟩ := turn_effect (.inr ⟨p, hp⟩) hs
        have hi : i.call.isInit = false := by
          obtain ⟨b, hb⟩ := hp.admin
          by_contra hc
          obtain ⟨-, -, -, hn, -⟩ := heff.isInit (Bool.not_eq_false _ ▸ hc)
          rw [hn] at hb; cases hb
        rw [hi] at hd
        exact .inr ⟨p, t, j, a, heff.configured hp, (filter_concat_of_false hd ts).trans hf, ht, hc⟩

theorem oneInit_run (P : Platform τ) (t₀ : τ) (xs : List (Input τ)) :
    OneInit (history P t₀ xs) (run P t₀ xs) :=
  Machine.history_induction (.inl ⟨rfl, rfl⟩) (fun _ _ x h => h.step x) xs

end ZkUnderwrite.Contract
