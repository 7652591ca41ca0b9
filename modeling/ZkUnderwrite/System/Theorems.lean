import ZkUnderwrite.Contract.Theorems
import ZkUnderwrite.System.Lemmas.Soundness

/-!
# Theorems about guest and contract together

What holds of the guest's proofs once they reach the contract: soundness of every run, the policy that
the two decide together, the journal between them, and how the issuers' statements meet in the
nullifiers.
-/

namespace ZkUnderwrite.System
open ByteString Contract Guest

variable {τ : Type}

/-! ## A sample deployment -/

namespace Sample
open Serde Contract.Sample

def keyA : BytesN 32 := .ofNat 32 0xd75a980182b10ab7d54bfed3c964073a0ee172f3daa62325af021a68f707511a
def keyB : BytesN 32 := .ofNat 32 0x3d4017c3e843895a92b70aa74d1b7ebc9c982ccf2ec4968cc0cd55f12af4660c

def hashA : BytesN 32 := .ofNat 32 0x21fe31dfa154a261626bf854046fd2271b7bed4b6abe45aa58877ef47f9721b9
def hashB : BytesN 32 := .ofNat 32 0x39f713d0a644253f04529421b9f51b9b08979d08295959c4f3990ee617f5139f

/-- The example statement of the design document. -/
@[irreducible] def statementBytes : Bytes := asBytes
  ("\x7b\"schema\":\"zku.income.v1\",\"subject_id\":\"acct_4f9c2a17\",\"issuer\":\"bank-of-stellar\"," ++
    "\"currency\":\"USD\",\"issued_at\":1750550400,\"period\":202506,\"period_months\":3," ++
    "\"monthly_net_income\":[4200,4250,4180]\x7d")

def statementJson : Json := .object [("schema", .string "zku.income.v1"),
  ("subject_id", .string "acct_4f9c2a17"), ("issuer", .string "bank-of-stellar"),
  ("currency", .string "USD"), ("issued_at", .ofU64 1750550400), ("period", .ofU64 202506),
  ("period_months", .ofU32 3), ("monthly_net_income", .ofVecU64 [4200, 4250, 4180])]

def statement : Statement where
  schema := ⟨"zku.income.v1", by decide +kernel⟩
  subjectId := ⟨"acct_4f9c2a17", by decide +kernel⟩
  issuer := ⟨"bank-of-stellar", by decide +kernel⟩
  currency := ⟨"USD", by decide +kernel⟩
  issuedAt := 1750550400
  period := 202506
  periodMonths := 3
  monthlyNetIncome := [4200, 4250, 4180]

def signatureA : BytesN 64 := .ofNat 64
  0x4b0eb5f0b0706f716c094e43ef6d8ead206ffd9bc6d86f8260468942451509a8fe2e2ff21efe209d79d84142aef45298c7905c7c0330943a7b29a8f1dd2fb006
def signatureB : BytesN 64 := .ofNat 64
  0xcaaa4070c483bafff9c941837adee36c702fb828f66276e5309985bf04e520ddb4101f880ad11c8d0399efc4da10c3d88ec0dc852f84c2b065c46b8a780ffc02

def nullifier : BytesN 32 := .ofNat 32
  0x21ea98b6e3574eed5922773a4f54f26a9d18c3b91d1260e9b78f8b094e0f6493

def journalOf (h : BytesN 32) : BytesN journalLen := packJournal h 4000 true nullifier 202506

def digestA : BytesN 32 := .ofNat 32
  0x074f70c5d57455965aca3ec51026fd6b10fa1af19e363c727a28751b064f2d7f
def digestB : BytesN 32 := .ofNat 32
  0x67b363bad645f4c43b7aea1db5a124c912b9d389aafffb97f079ba9fceddf917

def sha256 (b : Bytes) : BytesN 32 :=
  if b = keyA.val then hashA
  else if b = keyB.val then hashB
  else if b = statement.scope.preimage then nullifier
  else if b = (journalOf hashA).val then digestA
  else if b = (journalOf hashB).val then digestB
  else .replicate 32 0

def deployment : Deployment Ledger where
  platform := .ofLedger contract sha256
  crates := {
    sha256 := sha256
    validKey := fun pk => pk = keyA || pk = keyB
    verify := fun pk m sig => m = statementBytes &&
      (pk = keyA && sig = signatureA || pk = keyB && sig = signatureB)
    parseJson := fun b => if b = statementBytes then some statementJson else none }
  sha256_eq := rfl

def inputOf (pk : BytesN 32) (sig : BytesN 64) : Guest.Input :=
  ⟨statementBytes, sig.val, pk.val, 4000⟩

theorem fromSlice_statementBytes :
    deployment.crates.fromSlice statementBytes = some statement := by
  have hjson : deployment.crates.parseJson statementBytes = some statementJson := if_pos rfl
  unfold Crates.fromSlice
  rw [hjson]
  decide +kernel

theorem accepts {pk : BytesN 32} {sig : BytesN 64}
    (h : pk = keyA ∧ sig = signatureA ∨ pk = keyB ∧ sig = signatureB) :
    Accepts deployment.crates (inputOf pk sig) pk sig statement where
  pubkey := rfl
  validKey := by rcases h with ⟨rfl, -⟩ | ⟨rfl, -⟩ <;> simp [deployment]
  signature := rfl
  verified := by rcases h with ⟨rfl, rfl⟩ | ⟨rfl, rfl⟩ <;> simp [deployment, inputOf]
  parsed := fromSlice_statementBytes
  months := rfl
  nonempty := nofun

theorem accepts_keyA : Accepts deployment.crates (inputOf keyA signatureA) keyA signatureA statement :=
  accepts (.inl ⟨rfl, rfl⟩)

theorem accepts_keyB : Accepts deployment.crates (inputOf keyB signatureB) keyB signatureB statement :=
  accepts (.inr ⟨rfl, rfl⟩)

theorem main_keyA : main deployment.crates (inputOf keyA signatureA) = .ok (journalOf hashA).val :=
  main_eq_ok.mpr ⟨_, _, _, accepts_keyA, by decide +kernel⟩

theorem main_keyB : main deployment.crates (inputOf keyB signatureB) = .ok (journalOf hashB).val :=
  main_eq_ok.mpr ⟨_, _, _, accepts_keyB, by decide +kernel⟩

def verify (r : Address) (_ : Bytes) (i d : BytesN 32) : Bool :=
  r = router && i = .replicate 32 1 && (d = digestA || d = digestB)

def call (a : Address) (c : Call) : Invocation := ⟨(· = a), verify, c⟩

def initCall : Invocation := call admin (.init admin router (.replicate 32 1) usdc 4000 500)
def registerCall (h : BytesN 32) : Invocation := call admin (.registerIssuer h)
def requestCall (h : BytesN 32) : Invocation :=
  call borrower (.requestCredit borrower [] (journalOf h).val)

/-- Two issuers sign the same statement, and a proof of each is submitted. -/
def moves : List (Move Ledger) :=
  [.sign keyA statementBytes, .sign keyB statementBytes, .prove (inputOf keyA signatureA),
    .prove (inputOf keyB signatureB), .contract (.call initCall),
    .contract (.call (registerCall hashA)), .contract (.call (requestCall hashA)),
    .contract (.call (registerCall hashB)), .contract (.call (requestCall hashB))]

theorem routerSound {s : Sys Ledger} {a : Address} {c : Call}
    (hA : ⟨inputOf keyA signatureA, (journalOf hashA).val⟩ ∈ s.executions)
    (hB : ⟨inputOf keyB signatureB, (journalOf hashB).val⟩ ∈ s.executions) :
    deployment.RouterSound (.replicate 32 1) s (call a c) := by
  intro r sl d _ hv
  simp only [call, verify, Bool.and_eq_true, Bool.or_eq_true, decide_eq_true_eq] at hv
  obtain ⟨-, rfl | rfl⟩ := hv
  · exact ⟨_, hA, by decide +kernel⟩
  · exact ⟨_, hB, by decide +kernel⟩

theorem initWith {s : Sys Ledger} {i : Invocation} (h : i.call.isInit = false) :
    deployment.InitWith (.replicate 32 1) s i := by
  intro _ _ _ _ _ _ _ _ hc _
  rw [hc] at h
  cases h

theorem trusted_moves : Machine.Admissible deployment.step
    (deployment.Trusted (.replicate 32 1)) (Sys.empty ledger) moves := by
  intro t ht
  simp only [moves, Machine.turns, List.mem_cons, List.not_mem_nil, or_false] at ht
  rcases ht with rfl | rfl | rfl | rfl | rfl | rfl | rfl | rfl | rfl
  · trivial
  · trivial
  · intro pk sig hpk _ _
    cases BytesN.ext hpk
    exact List.mem_cons_of_mem _ List.mem_cons_self
  · intro pk sig hpk _ _
    cases BytesN.ext hpk
    change (keyB, statementBytes) ∈ _
    simp [Machine.turn, Deployment.step, main_keyA]
  · refine ⟨routerSound ?_ ?_, ?_⟩
    · simp [Machine.turn, Deployment.step, main_keyA, main_keyB]
    · simp [Machine.turn, Deployment.step, main_keyA, main_keyB]
    · rintro _ _ _ _ _ _ _ _ hc -
      cases hc
      rfl
  all_goals
    refine ⟨routerSound ?_ ?_, initWith rfl⟩ <;>
      simp [Machine.turn, Deployment.step, main_keyA, main_keyB]

theorem injOn_journals : Set.InjOn sha256 (deployment.journals moves) := by
  have hj : ∀ j ∈ deployment.journals moves,
      j = (journalOf hashA).val ∨ j = (journalOf hashB).val := by
    rintro j (⟨inp, hm, hj⟩ | ⟨i, b, sl, hm, hc⟩)
    all_goals
      simp only [moves, List.mem_cons, List.not_mem_nil, or_false, reduceCtorEq, false_or,
        Move.prove.injEq, Move.contract.injEq, Contract.Input.call.injEq] at hm
    · rcases hm with rfl | rfl
      · exact .inl (Except.ok.inj (main_keyA.symm.trans hj)).symm
      · exact .inr (Except.ok.inj (main_keyB.symm.trans hj)).symm
    · rcases hm with rfl | rfl | rfl | rfl | rfl
      · cases hc
      · cases hc
      · exact .inl (Call.requestCredit.inj hc).2.2.symm
      · cases hc
      · exact .inr (Call.requestCredit.inj hc).2.2.symm
  have hne : sha256 (journalOf hashA).val ≠ sha256 (journalOf hashB).val := by decide +kernel
  intro x hx y hy hxy
  rcases hj x hx with rfl | rfl <;> rcases hj y hy with rfl | rfl
  · rfl
  · exact absurd hxy hne
  · exact absurd hxy hne.symm
  · rfl

def ready : World Ledger := run deployment.platform ledger
  [.call initCall, .call (registerCall hashA), .call (registerCall hashB)]

theorem configured_ready : Configured ready policy :=
  ⟨⟨admin, by decide +kernel⟩, by decide +kernel, by decide +kernel, by decide +kernel,
    by decide +kernel, by decide +kernel⟩

def claim (h : BytesN 32) : Claim := ⟨borrower, [], journalOf h, (· = borrower), verify⟩

theorem carries_keyA : deployment.Carries keyA statement (claim hashA) :=
  ⟨_, _, accepts_keyA, main_keyA⟩

theorem carries_keyB : deployment.Carries keyB statement (claim hashB) :=
  ⟨_, _, accepts_keyB, main_keyB⟩

theorem proven_claimA : (claim hashA).Proven deployment.platform policy :=
  ⟨by decide +kernel, by decide +kernel⟩

theorem policyError_claimA : policyError ready policy (claim hashA).values = none := by
  decide +kernel

end Sample

/-! ## Soundness -/

/-- What the turns `ts` of the system guarantee: every paid request is backed by a signed statement,
and no two by statements of the same scope. -/
structure Sound (D : Deployment τ)
    (ts : List (Machine.Turn (Sys τ) (Move τ) (Option (Except Fault Ret)))) : Prop where
  backed : ∀ t ∈ ts, ∀ b j, requested t = some (b, j) →
    ∃ p e pk st, Configured t.before.world p ∧ D.Backs t.before p j e pk st
  paid_once : ts.Pairwise fun t t' => ∀ b j p e pk st b' j' p' e' pk' st',
    requested t = some (b, j) → D.Backs t.before p j e pk st →
    requested t' = some (b', j') → D.Backs t'.before p' j' e' pk' st' → st.scope ≠ st'.scope

/-- Soundness of guest and contract: whoever calls, proves and signs, in any order. -/
theorem end_to_end (D : Deployment τ) (image : BytesN 32) (t₀ : τ) (ms : List (Move τ))
    (hok : Machine.Admissible D.step (D.Trusted image) (Sys.empty t₀) ms)
    (hcol : Set.InjOn D.crates.sha256 (D.journals ms)) : Sound D (D.history t₀ ms) where
  backed := backs_run hok hcol
  paid_once := by
    refine List.pairwise_iff_getElem.mpr fun i k hi hk hik => ?_
    intro b j p e pk st b' j' p' e' pk' st' hr hb hr' hb' hscope
    have honce := List.pairwise_iff_getElem.mp (pays_once D t₀ ms (D.crates.sha256 st.scope.preimage))
      i k hi hk hik
    refine honce ⟨b, j, hr, slice_of_backs hb⟩ ⟨b', j', hr', ?_⟩
    rw [hscope]
    exact slice_of_backs hb'

theorem end_to_end_sample :
    (Sample.deployment.history Contract.Sample.ledger Sample.moves).filterMap requested =
        [(Contract.Sample.borrower, (Sample.journalOf Sample.hashA).val)] ∧
      Sound Sample.deployment (Sample.deployment.history Contract.Sample.ledger Sample.moves) :=
  ⟨by decide +kernel, end_to_end _ _ _ _ Sample.trusted_moves Sample.injOn_journals⟩

/-! ## The lender's policy -/

/-- The average that `st` proves reaches the threshold `t` of a proof, and `t` that of the policy. -/
def MeetsPolicy (p : Policy) (st : Statement) (t : UInt64) : Prop :=
  (∀ m ∈ st.monthlyNetIncome, 0 < m) ∧ p.requiredThreshold ≤ t ∧
    t.toNat ≤ st.exactSum / st.monthlyNetIncome.length

/-- How the claims in the state `w` with a proof of the statement in `inp` end: by the threshold of
the proof alone. -/
structure PolicyExact (D : Deployment τ) (w : World τ) (p : Policy) (inp : Guest.Input)
    (st : Statement) : Prop where
  decides : ∀ t : UInt64, ∃ j : BytesN journalLen,
    main D.crates { inp with threshold := t } = .ok j.val ∧
      ∀ c : Claim, c.journal = j → c.Proven D.platform p →
        ((∃ r, (claimStep D.platform w c).1 = .ok r) ↔ MeetsPolicy p st t)
  honest : (∀ m ∈ st.monthlyNetIncome, 0 < m) →
    p.requiredThreshold.toNat * st.monthlyNetIncome.length ≤ st.exactSum →
    ∃ j : BytesN journalLen, main D.crates { inp with threshold := p.requiredThreshold } = .ok j.val ∧
      ∀ c : Claim, c.journal = j → c.Proven D.platform p →
        (claimStep D.platform w c).1 = .ok (.amount p.creditAmount)

/-- Guest and contract together decide exactly the lender's policy. -/
theorem exact_policy (D : Deployment τ) (hT : FundedToken D.platform) (w : World τ) (p : Policy)
    (hp : Configured w p) (inp : Guest.Input) (pk : BytesN 32) (sig : BytesN 64) (st : Statement)
    (hacc : Accepts D.crates inp pk sig st) (hsum : st.exactSum < 2 ^ 64)
    (hreg : w.registered (D.crates.sha256 pk.val) = true)
    (hspent : w.spent (D.crates.sha256 st.scope.preimage) = false)
    (hfunds : p.creditAmount ≤
      D.platform.balance p.usdc w.token D.platform.currentContractAddress) :
    PolicyExact D w p inp st := by
  have hjournal : ∀ t, ∃ j : BytesN journalLen,
      main D.crates { inp with threshold := t } = .ok j.val ∧
        j.val = st.journal D.crates pk t :=
    fun t => ⟨packJournal _ _ _ _ _, main_eq_ok.mpr ⟨pk, sig, st, hacc.with_threshold t, rfl⟩, rfl⟩
  have hpolicy : ∀ (t : UInt64) (c : Claim), c.journal.val = st.journal D.crates pk t →
      (policyError w p c.values = none ↔ MeetsPolicy p st t) := by
    intro t c hj
    have h := policyError_of_journal (w := w) (p := p) hj
    rw [meets_of_lt hacc.months hsum] at h
    simp only [hreg, hspent, true_and, and_true] at h
    exact h.trans and_left_comm
  refine ⟨fun t => ?_, fun hpos hincome => ?_⟩
  · obtain ⟨j, hmain, hj⟩ := hjournal t
    refine ⟨j, hmain, ?_⟩
    rintro c rfl hc
    rw [claimStep_of_funded hT hp hc hfunds, ← hpolicy t c hj]
    cases policyError w p c.values <;> simp
  · obtain ⟨j, hmain, hj⟩ := hjournal p.requiredThreshold
    refine ⟨j, hmain, ?_⟩
    rintro c rfl hc
    have havg := (Nat.le_div_iff_mul_le (List.length_pos_iff.mpr hacc.nonempty)).mpr hincome
    have hnone := (hpolicy _ c hj).mpr ⟨hpos, UInt64.le_refl _, havg⟩
    rw [claimStep_of_funded hT hp hc hfunds, hnone]

theorem exact_policy_sample :
    PolicyExact Sample.deployment Sample.ready Contract.Sample.policy
      (Sample.inputOf Sample.keyA Sample.signatureA) Sample.statement :=
  exact_policy _ (fundedToken_ofLedger _ _) _ _ Sample.configured_ready _ _ _ _ Sample.accepts_keyA
    (by decide +kernel) (by decide +kernel) (by decide +kernel) (by decide +kernel)

/-! ## The journal -/

/-- What the guest writes the contract reads, and a journal that the contract can read as the guest's
is the one that the guest writes. -/
structure RoundTrip : Prop where
  length_eq : ∀ h t m n p, (encodeJournal h t m n p).length = 81
  reads : ∀ h t m n p, Reads (encodeJournal h t m n p) ⟨h, t, if m then 1 else 0, n, p⟩
  rebuilds : ∀ j, Flagged j → ∃ v, Reads j v ∧ encode v = j
  injective : ∀ j j' v, Flagged j → Flagged j' → Reads j v → Reads j' v → j = j'

theorem journal_round_trip : RoundTrip where
  length_eq := length_encodeJournal
  reads h t m n p := by
    have hr := reads_parse (packJournal h t m n p)
    rwa [parse_packJournal] at hr
  rebuilds j hj :=
    have hr := reads_parse ⟨j, hj.length_eq⟩
    ⟨_, hr, hj.encode_of_reads hr⟩
  injective j j' v hj hj' h h' := by
    rw [← hj.encode_of_reads h, ← hj'.encode_of_reads h']

/-! ## Nullifiers of different issuers -/

/-- The nullifier does not depend on the issuer's key: when another issuer has signed the same
subject, issuer name and period, whoever claims first burns the nullifier of both. -/
theorem other_issuer_burns_nullifier :
    Reachable Sample.deployment.platform Sample.ready ∧ Sample.keyA ≠ Sample.keyB ∧
      Sample.ready.registered (Sample.deployment.crates.sha256 Sample.keyA.val) = true ∧
      Sample.ready.registered (Sample.deployment.crates.sha256 Sample.keyB.val) = true ∧
      Sample.deployment.Carries Sample.keyA Sample.statement (Sample.claim Sample.hashA) ∧
      Sample.deployment.Carries Sample.keyB Sample.statement (Sample.claim Sample.hashB) ∧
      (claimStep Sample.deployment.platform Sample.ready (Sample.claim Sample.hashA)).1 =
        .ok (.amount 500) ∧
      (Sample.claim Sample.hashA).nullifier = (Sample.claim Sample.hashB).nullifier ∧
      (claimStep Sample.deployment.platform
        (afterClaims Sample.deployment.platform Sample.ready [Sample.claim Sample.hashB])
        (Sample.claim Sample.hashA)).1 = .error (.contract .nullifierAlreadyUsed) := by
  refine ⟨⟨Contract.Sample.ledger, _, rfl⟩, by decide +kernel, by decide +kernel, by decide +kernel,
    Sample.carries_keyA, Sample.carries_keyB, by decide +kernel, by decide +kernel, by decide +kernel⟩

/-- How the claims `cs` on statements signed under `pk` bear on a claim `a` on the statement `st` of
any issuer, where `S` holds the scopes of all these statements. -/
structure ScopesDecide (D : Deployment τ) (w : World τ) (S : Set Scope) (pk : BytesN 32)
    (cs : List Claim) (a : Claim) (st : Statement) : Prop where
  nullifier_iff : ∀ c ∈ cs, ∀ st', D.Carries pk st' c → st'.scope ∈ S →
    (c.nullifier = a.nullifier ↔ st'.scope = st.scope)
  refused_iff : (claimStep D.platform (afterClaims D.platform w cs) a).1 =
      .error (.contract .nullifierAlreadyUsed) ↔
    ∃ c ∈ paidClaims D.platform w cs, ∃ st', D.Carries pk st' c ∧ st'.scope = st.scope

/-- Claims on one issuer's statements burn the nullifier of another's exactly when a statement of the
same subject, issuer name and period is paid among them. -/
theorem scopes_decide (D : Deployment τ) (w : World τ) (p : Policy) (hp : Configured w p)
    (S : Set Scope) (hcol : Set.InjOn D.crates.sha256 (Set.image Scope.preimage S)) (pk : BytesN 32)
    (cs : List Claim) (hcs : ∀ c ∈ cs, ∃ st', D.Carries pk st' c ∧ st'.scope ∈ S)
    (pkA : BytesN 32) (a : Claim) (st : Statement) (ha : D.Carries pkA st a) (hst : st.scope ∈ S)
    (hproven : a.Proven D.platform p) (hpol : policyError w p a.values = none) :
    ScopesDecide D w S pk cs a st where
  nullifier_iff c _ st' hc hst' := nullifier_eq_iff hcol hc ha hst' hst
  refused_iff := by
    rw [claimStep_afterClaims hp cs hproven hpol]
    refine exists_congr fun c => and_congr_right fun hc => ?_
    constructor
    · intro hn
      obtain ⟨st', hst', hS⟩ := hcs c ((Machine.accepted_sublist _ _ _).mem hc)
      exact ⟨st', hst', (nullifier_eq_iff hcol hst' ha hS hst).mp hn⟩
    · rintro ⟨st', hst', hscope⟩
      exact (nullifier_eq_iff hcol hst' ha (hscope ▸ hst) hst).mpr hscope

theorem scopes_decide_sample :
    ScopesDecide Sample.deployment Sample.ready {Sample.statement.scope} Sample.keyB
      [Sample.claim Sample.hashB] (Sample.claim Sample.hashA) Sample.statement := by
  refine scopes_decide _ _ _ Sample.configured_ready _ ?_ _ _ ?_ Sample.keyA _ _ Sample.carries_keyA
    rfl Sample.proven_claimA Sample.policyError_claimA
  · rw [Set.image_singleton]
    exact Set.injOn_singleton _ _
  · exact fun c hc => ⟨_, List.mem_singleton.mp hc ▸ Sample.carries_keyB, rfl⟩

end ZkUnderwrite.System
