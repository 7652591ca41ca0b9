import ZkUnderwrite.Contract.Lemmas.Claims
import ZkUnderwrite.System.Deployment
import ZkUnderwrite.System.Format

/-!
# Backed requests

An invariant of the system's runs ties the executions to what the issuers have signed. With it the
checks of the contract on a journal turn into checks of the guest on a signed statement.
-/

namespace ZkUnderwrite.System
open ByteString Contract Guest

variable {τ : Type} {D : Deployment τ} {image : BytesN 32} {s : Sys τ} {S : Set Bytes}

/-! ## The journal of an execution -/

theorem journal_eq_pack (C : Crates) (st : Statement) (pk : BytesN 32) (threshold : UInt64) :
    st.journal C pk threshold = (packJournal (C.sha256 pk.val) threshold (st.meets threshold)
      (C.sha256 st.scope.preimage) st.period).val := rfl

theorem parse_of_journal {C : Crates} {st : Statement} {pk : BytesN 32} {threshold : UInt64}
    {j : BytesN journalLen} (h : j.val = st.journal C pk threshold) :
    Journal.parse j = ⟨C.sha256 pk.val, threshold, if st.meets threshold then 1 else 0,
      C.sha256 st.scope.preimage, st.period⟩ := by
  rw [BytesN.ext (h.trans (journal_eq_pack C st pk threshold)), parse_packJournal]

theorem policyError_of_journal {C : Crates} {st : Statement} {pk : BytesN 32} {threshold : UInt64}
    {j : BytesN journalLen} {w : World τ} {p : Policy} (h : j.val = st.journal C pk threshold) :
    policyError w p (Journal.parse j) = none ↔
      w.registered (C.sha256 pk.val) = true ∧ p.requiredThreshold ≤ threshold ∧
        st.meets threshold = true ∧ w.spent (C.sha256 st.scope.preimage) = false := by
  rw [policyError_eq_none, parse_of_journal h]
  cases st.meets threshold <;> simp

/-! ## The invariant -/

theorem Deployment.step_world (D : Deployment τ) (s : Sys τ) (m : Move τ) :
    (D.step s m).2.world = s.world ∨ ∃ x, m = .contract x ∧
      (D.step s m).2.world = (Contract.step D.platform s.world x).2 := by
  cases m with
  | sign _ _ => exact .inl rfl
  | prove inp => cases h : main D.crates inp <;> simp [Deployment.step, h]
  | contract x => exact .inr ⟨x, rfl, rfl⟩

structure Inv (D : Deployment τ) (image : BytesN 32) (S : Set Bytes) (s : Sys τ) : Prop where
  wellFormed : WellFormed s.world
  image : ∀ p, Configured s.world p → p.imageId = image
  committed : ∀ e ∈ s.executions, main D.crates e.input = .ok e.journal ∧ e.journal ∈ S
  signed : ∀ e ∈ s.executions, D.SignatureSound s e.input

theorem Inv.empty (D : Deployment τ) (image : BytesN 32) (S : Set Bytes) (t : τ) :
    Inv D image S (Sys.empty t) where
  wellFormed := wellFormed_empty t
  image _ hp := absurd rfl (not_empty_of_configured hp)
  committed := nofun
  signed := nofun

def JournalIn (D : Deployment τ) (S : Set Bytes) : Move τ → Prop
  | .sign _ _ => True
  | .prove inp => ∀ j, main D.crates inp = .ok j → j ∈ S
  | .contract (.call i) => ∀ b s j, i.call = .requestCredit b s j → j ∈ S
  | .contract (.token _) => True

theorem Inv.step (h : Inv D image S s) {m : Move τ} (hm : D.Trusted image s m)
    (hS : JournalIn D S m) : Inv D image S (D.step s m).2 := by
  cases m with
  | sign pk message =>
      refine ⟨h.wellFormed, h.image, h.committed, fun e he pk' sig hpk hsig hver => ?_⟩
      exact List.mem_cons_of_mem _ (h.signed e he pk' sig hpk hsig hver)
  | prove inp =>
      cases hj : main D.crates inp with
      | error a =>
          have hstep : (D.step s (.prove inp)).2 = s := by simp [Deployment.step, hj]
          rwa [hstep]
      | ok j =>
          have hstep : (D.step s (.prove inp)).2 =
              { s with executions := ⟨inp, j⟩ :: s.executions } := by simp [Deployment.step, hj]
          rw [hstep]
          refine ⟨h.wellFormed, h.image, fun e he => ?_, fun e he => ?_⟩
          · rcases List.mem_cons.mp he with rfl | he
            · exact ⟨hj, hS j hj⟩
            · exact h.committed e he
          · rcases List.mem_cons.mp he with rfl | he
            · exact hm
            · exact h.signed e he
  | contract x =>
      refine ⟨h.wellFormed.step x, fun p hp => ?_, h.committed, h.signed⟩
      cases hs : succeeded (Machine.turn (Contract.step D.platform) s.world x) with
      | none => exact h.image p (hp.of_storage (turn_frame hs).symm)
      | some i =>
          obtain ⟨r, rfl, he⟩ := turn_effect h.wellFormed hs
          rcases he.configured_before h.wellFormed hp with hp | ⟨a, hi⟩
          · exact h.image p hp
          · exact hm.2 _ _ _ _ _ _ _ _ hi he.invoke

/-! ## One request -/

theorem requested_eq_some {m : Move τ} {b : Address} {j : Bytes} :
    requested (Machine.turn D.step s m) = some (b, j) ↔
      ∃ x, m = .contract x ∧
        Contract.requested (Machine.turn (Contract.step D.platform) s.world x) = some (b, j) := by
  cases m with
  | sign _ _ | prove _ => simp [requested, contractTurn, Machine.turn]
  | contract x =>
      constructor
      · exact fun h => ⟨x, rfl, h⟩
      · rintro ⟨y, hy, h⟩
        cases hy
        exact h

theorem Inv.backs (h : Inv D image S s) {m : Move τ} (hm : D.Trusted image s m)
    (hS : JournalIn D S m) (hcol : Set.InjOn D.crates.sha256 S) {b : Address} {j : Bytes}
    (hr : requested (Machine.turn D.step s m) = some (b, j)) :
    ∃ p e pk st, Configured s.world p ∧ D.Backs s p j e pk st := by
  obtain ⟨x, rfl, hr⟩ := requested_eq_some.mp hr
  obtain ⟨i, sl, hs, hc⟩ := Contract.requested_eq_some.mp hr
  obtain ⟨r, rfl, he⟩ := turn_effect h.wellFormed hs
  obtain ⟨p, t, j, rfl, hp, hauth, hver, hpol, -, -⟩ := he.of_request hc
  rw [h.image p hp, D.sha256_eq] at hver
  obtain ⟨e, hex, hdigest⟩ := hm.1 _ _ _ hp.router hver
  obtain ⟨hmain, heS⟩ := h.committed e hex
  have hj : e.journal = j.val := hcol heS (hS _ _ _ hc) hdigest
  rw [hj] at hmain
  obtain ⟨pk, sig, st, hacc, hjournal⟩ := main_eq_ok.mp hmain
  obtain ⟨hreg, hthr, hmeets, -⟩ := (policyError_of_journal hjournal).mp hpol
  have hthr' : p.requiredThreshold.toNat ≤ e.input.threshold.toNat :=
    UInt64.le_iff_toNat_le.mp hthr
  refine ⟨p, e, pk, st, hp, hex, hj, hmain, hacc.parsed, ?_, hreg, hacc.months, ?_, ?_, ?_⟩
  · exact h.signed e hex pk sig hacc.pubkey hacc.signature hacc.verified
  · exact List.length_pos_iff.mpr hacc.nonempty
  · exact ((meets_eq_true hacc.months).mp hmeets).1
  · exact (Nat.mul_le_mul_right _ hthr').trans (le_exactSum_of_meets hacc.months hmeets)

/-! ## Runs -/

theorem journalIn_journals {ms : List (Move τ)} {m : Move τ} (h : m ∈ ms) :
    JournalIn D (D.journals ms) m := by
  cases m with
  | sign _ _ => trivial
  | prove inp => exact fun j hj => .inl ⟨inp, h, hj⟩
  | contract x =>
      cases x with
      | token _ => trivial
      | call i => exact fun b sl j hc => .inr ⟨i, b, sl, h, hc⟩

theorem backs_run {t₀ : τ} {ms : List (Move τ)}
    (hok : Machine.Admissible D.step (D.Trusted image) (Sys.empty t₀) ms)
    (hcol : Set.InjOn D.crates.sha256 (D.journals ms)) :
    ∀ t ∈ D.history t₀ ms, ∀ b j, requested t = some (b, j) →
      ∃ p e pk st, Configured t.before.world p ∧ D.Backs t.before p j e pk st := by
  have hok' : Machine.Admissible D.step
      (fun s m => D.Trusted image s m ∧ JournalIn D (D.journals ms) m) (Sys.empty t₀) ms :=
    fun t ht => ⟨hok t ht, journalIn_journals (Machine.input_mem_of_mem_turns ht)⟩
  refine (Machine.history_invariant (J := fun ts s => Inv D image (D.journals ms) s ∧
    ∀ t ∈ ts, ∀ b j, requested t = some (b, j) →
      ∃ p e pk st, Configured t.before.world p ∧ D.Backs t.before p j e pk st)
    ⟨Inv.empty D image _ t₀, nofun⟩ (fun ts s m h hm => ⟨h.1.step hm.1 hm.2, ?_⟩) hok').2
  intro t ht b j hr
  rcases List.mem_append.mp ht with ht | ht
  · exact h.2 t ht b j hr
  · cases List.mem_singleton.mp ht
    exact h.1.backs hm.1 hm.2 hcol hr

def Pays (n : BytesN 32) (t : Machine.Turn (Sys τ) (Move τ) (Option (Except Fault Ret))) : Prop :=
  ∃ b j, requested t = some (b, j) ∧ slice j 41 32 = n.val

theorem pays_once (D : Deployment τ) (t₀ : τ) (ms : List (Move τ)) (n : BytesN 32) :
    (D.history t₀ ms).Pairwise fun t t' => Pays n t → ¬ Pays n t' := by
  refine Machine.at_most_once (I := fun s => WellFormed s.world)
    (D := fun s => s.world.spent n = true) (fun s m h => ?_) (fun s m h hA => ?_)
    (fun s m h hD => ?_) (fun s m h hD hA => ?_) (wellFormed_empty t₀) ms
  · rcases D.step_world s m with hw | ⟨x, -, hw⟩ <;> rw [hw]
    · exact h
    · exact h.step x
  · obtain ⟨b, j, hr, hn⟩ := hA
    obtain ⟨x, rfl, hr⟩ := requested_eq_some.mp hr
    exact (requested_spends h hr hn).2
  · rcases D.step_world s m with hw | ⟨x, -, hw⟩ <;> rw [hw]
    · exact hD
    · exact spent_step h x hD
  · obtain ⟨b, j, hr, hn⟩ := hA
    obtain ⟨x, rfl, hr⟩ := requested_eq_some.mp hr
    rw [(requested_spends h hr hn).1] at hD
    cases hD

/-- The nullifier bytes of a backed request are determined by the scope of the statement. -/
theorem slice_of_backs {p : Policy} {j : Bytes} {e : Execution} {pk : BytesN 32} {st : Statement}
    (h : D.Backs s p j e pk st) : slice j 41 32 = (D.crates.sha256 st.scope.preimage).val := by
  obtain ⟨pk', sig, hacc, rfl⟩ := accepts_of_main h.committed h.parsed
  exact slice_nullifier _ _ _ _ _

/-! ## Claims -/

theorem nullifier_of_carries {pk : BytesN 32} {st : Statement} {c : Claim} (h : D.Carries pk st c) :
    c.nullifier = D.crates.sha256 st.scope.preimage := by
  obtain ⟨inp, sig, hacc, hmain⟩ := h
  have hj := (main_eq_ok.mpr ⟨pk, sig, st, hacc, rfl⟩).symm.trans hmain
  exact congrArg Journal.nullifier (parse_of_journal (Except.ok.inj hj).symm)

/-- Whoever signed them, two statements share a nullifier exactly when they share a scope. -/
theorem nullifier_eq_iff {S : Set Scope} (hcol : Set.InjOn D.crates.sha256 (Set.image Scope.preimage S))
    {pk pk' : BytesN 32} {st st' : Statement} {c c' : Claim} (h : D.Carries pk st c)
    (h' : D.Carries pk' st' c') (hst : st.scope ∈ S) (hst' : st'.scope ∈ S) :
    c.nullifier = c'.nullifier ↔ st.scope = st'.scope := by
  rw [nullifier_of_carries h, nullifier_of_carries h',
    hcol.eq_iff (Set.mem_image_of_mem _ hst) (Set.mem_image_of_mem _ hst'), Scope.preimage_inj]

end ZkUnderwrite.System
