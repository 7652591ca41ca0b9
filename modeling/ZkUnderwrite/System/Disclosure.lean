import ZkUnderwrite.System.Theorems

/-!
# What a journal discloses

The journal of a proof against the signed statement behind it: the nullifier stands for the statement's
scope, the flag for a comparison of its incomes, and nothing else of the incomes is in it.
-/

namespace ZkUnderwrite.System
open ByteString Contract Guest

/-! ## Sample statements -/

namespace Sample
open Serde

/-- A statement of the same scope with other incomes, months and fields, in another order. -/
@[irreducible] def otherBytes : Bytes := asBytes
  ("\x7b \"monthly_net_income\": [9100, 12000], \"period_months\": 2, \"period\": 202506, " ++
    "\"issuer\": \"bank-of-stellar\", \"subject_id\": \"acct_4f9c2a17\", \"currency\": \"EUR\", " ++
    "\"schema\": \"zku.income.v2\", \"issued_at\": 1751328000 \x7d")

def otherJson : Json := .object [("monthly_net_income", .ofVecU64 [9100, 12000]),
  ("period_months", .ofU32 2), ("period", .ofU64 202506), ("issuer", .string "bank-of-stellar"),
  ("subject_id", .string "acct_4f9c2a17"), ("currency", .string "EUR"),
  ("schema", .string "zku.income.v2"), ("issued_at", .ofU64 1751328000)]

def other : Statement where
  schema := ⟨"zku.income.v2", by decide +kernel⟩
  subjectId := statement.subjectId
  issuer := statement.issuer
  currency := ⟨"EUR", by decide +kernel⟩
  issuedAt := 1751328000
  period := 202506
  periodMonths := 2
  monthlyNetIncome := [9100, 12000]

def otherSignature : BytesN 64 := .ofNat 64
  0xa7925ef16731270694d1a70c805dc7f96b63dddef6f0c62e9a79133bbfb38114b79a23b676464a8905ed0a1bc88e1e281bbcd5b915e17c903deeef8793c27300

/-- The statement of the design document with its first income raised to the end of the 64-bit range. -/
@[irreducible] def overflowingBytes : Bytes := asBytes
  ("\x7b\"schema\":\"zku.income.v1\",\"subject_id\":\"acct_4f9c2a17\",\"issuer\":\"bank-of-stellar\"," ++
    "\"currency\":\"USD\",\"issued_at\":1750550400,\"period\":202506,\"period_months\":3," ++
    "\"monthly_net_income\":[18446744073709551615,4250,4180]\x7d")

def overflowingJson : Json := .object [("schema", .string "zku.income.v1"),
  ("subject_id", .string "acct_4f9c2a17"), ("issuer", .string "bank-of-stellar"),
  ("currency", .string "USD"), ("issued_at", .ofU64 1750550400), ("period", .ofU64 202506),
  ("period_months", .ofU32 3), ("monthly_net_income", .ofVecU64 [18446744073709551615, 4250, 4180])]

def overflowing : Statement :=
  { statement with monthlyNetIncome := [18446744073709551615, 4250, 4180] }

def overflowingSignature : BytesN 64 := .ofNat 64
  0xa8186236f05d1fcf67ca3155e4cae487f2ad5bd81b998f12e74b87d8a352056283be1c38da616813bdb424b194e87704bef2f9a92811190f5d26b3c9545e9404

/-- The guest's crates on the three statements, signed with one key. -/
def crates : Crates where
  sha256 := sha256
  validKey pk := pk = keyA
  verify pk m sig := pk = keyA && (m = statementBytes && sig = signatureA ||
    m = otherBytes && sig = otherSignature || m = overflowingBytes && sig = overflowingSignature)
  parseJson b := if b = statementBytes then some statementJson
    else if b = otherBytes then some otherJson
    else if b = overflowingBytes then some overflowingJson
    else none

def otherInput : Guest.Input := ⟨otherBytes, otherSignature.val, keyA.val, 4000⟩

def overflowingInput : Guest.Input := ⟨overflowingBytes, overflowingSignature.val, keyA.val, 4000⟩

theorem fromSlice_other : crates.fromSlice otherBytes = some other := by decide +kernel

theorem fromSlice_overflowing : crates.fromSlice overflowingBytes = some overflowing := by
  decide +kernel

theorem main_other : main crates otherInput = .ok (journalOf hashA).val := by decide +kernel

theorem main_statement : main crates (inputOf keyA signatureA) = .ok (journalOf hashA).val := by
  decide +kernel

theorem main_overflowing :
    main crates overflowingInput = .ok (packJournal hashA 4000 false nullifier 202506).val := by
  decide +kernel

end Sample

variable {C : Crates} {inp inp' : Guest.Input} {j j' : Bytes} {st st' : Statement}

/-! ## The nullifier -/

/-- What the nullifiers of two committed journals say about the statements behind them. -/
structure NullifiersIdentify (C : Crates) (inp inp' : Guest.Input) (j j' : Bytes)
    (st st' : Statement) : Prop where
  hashed : slice j 41 32 = (C.sha256 st.scope.preimage).val ∧
    slice j' 41 32 = (C.sha256 st'.scope.preimage).val
  preimage_iff : st.scope.preimage = st'.scope.preimage ↔
    st.subjectId = st'.subjectId ∧ st.issuer = st'.issuer ∧ st.period = st'.period
  nullifier_iff : Set.InjOn C.sha256 {st.scope.preimage, st'.scope.preimage} →
    (slice j 41 32 = slice j' 41 32 ↔
      st.subjectId = st'.subjectId ∧ st.issuer = st'.issuer ∧ st.period = st'.period)
  host_free : inp.statementBytes = inp'.statementBytes →
    slice j 41 32 = slice j' 41 32 ∧ slice j 73 8 = slice j' 73 8

theorem scope_eq_iff : st.scope = st'.scope ↔
    st.subjectId = st'.subjectId ∧ st.issuer = st'.issuer ∧ st.period = st'.period := by
  simp only [Statement.scope, Scope.mk.injEq]

/-- Nullifiers identify exactly the subject, the issuer and the period. -/
theorem nullifiers_identify_scopes (C : Crates) (inp inp' : Guest.Input) (j j' : Bytes)
    (hmain : main C inp = .ok j) (hmain' : main C inp' = .ok j') (st st' : Statement)
    (hst : C.fromSlice inp.statementBytes = some st)
    (hst' : C.fromSlice inp'.statementBytes = some st') :
    NullifiersIdentify C inp inp' j j' st st' := by
  obtain ⟨pk, sig, -, rfl⟩ := accepts_of_main hmain hst
  obtain ⟨pk', sig', -, rfl⟩ := accepts_of_main hmain' hst'
  have hn : slice (st.journal C pk inp.threshold) 41 32 = (C.sha256 st.scope.preimage).val :=
    slice_nullifier _ _ _ _ _
  have hn' : slice (st'.journal C pk' inp'.threshold) 41 32 = (C.sha256 st'.scope.preimage).val :=
    slice_nullifier _ _ _ _ _
  refine ⟨⟨hn, hn'⟩, Scope.preimage_inj.trans scope_eq_iff, fun hcol => ?_, fun hbytes => ?_⟩
  · rw [hn, hn', ← scope_eq_iff, ← Scope.preimage_inj, ← BytesN.ext_iff]
    exact hcol.eq_iff (Set.mem_insert _ _) (Set.mem_insert_of_mem _ (Set.mem_singleton _))
  · rw [hbytes] at hst
    cases Option.some.inj (hst.symm.trans hst')
    exact ⟨hn.trans hn'.symm, (slice_period _ _ _ _ _).trans (slice_period _ _ _ _ _).symm⟩

theorem nullifiers_identify_scopes_sample :
    NullifiersIdentify Sample.crates (Sample.inputOf Sample.keyA Sample.signatureA)
      Sample.otherInput (Sample.journalOf Sample.hashA).val (Sample.journalOf Sample.hashA).val
      Sample.statement Sample.other :=
  nullifiers_identify_scopes _ _ _ _ _ Sample.main_statement Sample.main_other _ _
    (by decide +kernel) Sample.fromSlice_other

/-! ## The flag -/

theorem flag_of_journal {pk : BytesN 32} {t : UInt64} :
    (st.journal C pk t)[40]? = some 1 ↔ st.meets t = true := by
  rw [show (st.journal C pk t)[40]? = _ from getElem?_meets _ _ _ _ _]
  cases st.meets t <;> simp

/-- The flag of the journals committed for the statement `st` in `inp` is exact at every threshold. It
then falls with the threshold and grows with the incomes. -/
structure FlagExact (C : Crates) (inp : Guest.Input) (st : Statement) : Prop where
  exact : ∀ t j, main C { inp with threshold := t } = .ok j →
    (j[40]? = some 1 ↔ st.ExactlyMeets t)
  antitone : ∀ t t' j j', t ≤ t' → main C { inp with threshold := t } = .ok j →
    main C { inp with threshold := t' } = .ok j' → j'[40]? = some 1 → j[40]? = some 1
  monotone : ∀ inp₀ st₀ j₀ j, main C inp₀ = .ok j₀ →
    C.fromSlice inp₀.statementBytes = some st₀ →
    List.Forall₂ (· ≤ ·) st₀.monthlyNetIncome st.monthlyNetIncome →
    main C { inp with threshold := inp₀.threshold } = .ok j → j₀[40]? = some 1 → j[40]? = some 1

/-- The flag is exact at every threshold exactly when the incomes' sum fits 64 bits or a month is
without income; else it is wrong at the thresholds between the wrapped average and the exact one. -/
theorem flag_exact_iff (C : Crates) (inp : Guest.Input) (j : Bytes) (hmain : main C inp = .ok j)
    (st : Statement) (hst : C.fromSlice inp.statementBytes = some st) :
    (FlagExact C inp st ↔ st.exactSum < 2 ^ 64 ∨ 0 ∈ st.monthlyNetIncome) ∧
      ((j[40]? = some 1 ↔ st.ExactlyMeets inp.threshold) ↔
        st.exactSum < 2 ^ 64 ∨ 0 ∈ st.monthlyNetIncome ∨
          ¬ (st.exactSum % 2 ^ 64 < inp.threshold.toNat * st.monthlyNetIncome.length ∧
            inp.threshold.toNat * st.monthlyNetIncome.length ≤ st.exactSum)) := by
  obtain ⟨pk, sig, hacc, rfl⟩ := accepts_of_main hmain hst
  have hjournal : ∀ t, main C { inp with threshold := t } = .ok (st.journal C pk t) :=
    fun t => main_eq_ok.mpr ⟨pk, sig, st, hacc.with_threshold t, rfl⟩
  have hflag : ∀ t j, main C { inp with threshold := t } = .ok j →
      (j[40]? = some 1 ↔ st.meets t = true) := by
    intro t j hj
    rw [← Except.ok.inj ((hjournal t).symm.trans hj)]
    exact flag_of_journal
  refine ⟨⟨fun h => ?_, fun hcond => ⟨fun t j hj => ?_, ?_, ?_⟩⟩, ?_⟩
  · refine (forall_meets_iff_exactlyMeets hacc.months hacc.nonempty).mp fun t => ?_
    exact (hflag t _ (hjournal t)).symm.trans (h.exact t _ (hjournal t))
  · rw [hflag t j hj]
    exact (forall_meets_iff_exactlyMeets hacc.months hacc.nonempty).mpr hcond t
  · intro t t' j j' ht hj hj' hm
    exact (hflag t j hj).mpr (meets_antitone hacc.months ht ((hflag t' j' hj').mp hm))
  · intro inp₀ st₀ j₀ j hmain₀ hst₀ hle hj hm
    obtain ⟨pk₀, sig₀, hacc₀, rfl⟩ := accepts_of_main hmain₀ hst₀
    exact (hflag _ j hj).mpr (meets_of_forall₂ hacc₀.months hacc.months hacc.nonempty hle hcond
      (flag_of_journal.mp hm))
  · rw [flag_of_journal]
    exact meets_iff_exactlyMeets hacc.months hacc.nonempty inp.threshold

theorem flag_exact_iff_sample :
    (FlagExact Sample.crates Sample.otherInput Sample.other ↔
      Sample.other.exactSum < 2 ^ 64 ∨ 0 ∈ Sample.other.monthlyNetIncome) ∧
      Sample.other.exactSum = 21100 :=
  ⟨(flag_exact_iff _ _ _ Sample.main_other _ Sample.fromSlice_other).1, by decide +kernel⟩

/-- Raising one income of a signed statement to the end of the 64-bit range clears the flag: the exact
average is far above the threshold, the wrapped one below. -/
theorem raised_income_clears_flag :
    main Sample.crates (Sample.inputOf Sample.keyA Sample.signatureA) =
        .ok (Sample.journalOf Sample.hashA).val ∧
      (Sample.journalOf Sample.hashA).val[40]? = some 1 ∧
      Sample.crates.fromSlice Sample.overflowingInput.statementBytes = some Sample.overflowing ∧
      main Sample.crates Sample.overflowingInput =
        .ok (packJournal Sample.hashA 4000 false Sample.nullifier 202506).val ∧
      (packJournal Sample.hashA 4000 false Sample.nullifier 202506).val[40]? = some 0 ∧
      List.Forall₂ (· ≤ ·) Sample.statement.monthlyNetIncome Sample.overflowing.monthlyNetIncome ∧
      Sample.overflowing.ExactlyMeets 4000 ∧
      ¬ FlagExact Sample.crates Sample.overflowingInput Sample.overflowing := by
  have hexact : Sample.overflowing.ExactlyMeets 4000 := by decide +kernel
  have hflag : (packJournal Sample.hashA 4000 false Sample.nullifier 202506).val[40]? = some 0 := by
    decide +kernel
  refine ⟨Sample.main_statement, by decide +kernel, Sample.fromSlice_overflowing,
    Sample.main_overflowing, hflag, by decide +kernel, hexact, fun h => ?_⟩
  have hset := (h.exact 4000 _ Sample.main_overflowing).mpr hexact
  rw [hflag] at hset
  cases hset

/-! ## The incomes -/

/-- Two committed journals are equal, and requests that agree in all else, but for seals on which the
router gives the same verdict, end alike on them. -/
structure Indistinguishable (j j' : Bytes) : Prop where
  journal_eq : j = j'
  request : ∀ (τ : Type) (P : Platform τ) (w : World τ) (r r' : Request), r.journal = j →
    r'.journal = j' → r'.borrower = r.borrower →
    r'.authorized r.borrower = r.authorized r.borrower → r'.verdict P w = r.verdict P w →
    (invoke P r.invocation w).1 = (invoke P r'.invocation w).1 ∧
      SameState (invoke P r.invocation w).2 (invoke P r'.invocation w).2

/-- Of the incomes a journal discloses the flag alone. -/
theorem journal_hides_incomes (C : Crates) (inp inp' : Guest.Input) (j j' : Bytes)
    (hmain : main C inp = .ok j) (hmain' : main C inp' = .ok j') (st st' : Statement)
    (hst : C.fromSlice inp.statementBytes = some st)
    (hst' : C.fromSlice inp'.statementBytes = some st')
    (hkey : inp.issuerPubkeyBytes = inp'.issuerPubkeyBytes)
    (hthreshold : inp.threshold = inp'.threshold) (hsubject : st.subjectId = st'.subjectId)
    (hissuer : st.issuer = st'.issuer) (hperiod : st.period = st'.period)
    (hmeets : st.meets inp.threshold = st'.meets inp'.threshold) : Indistinguishable j j' := by
  obtain ⟨pk, sig, hacc, rfl⟩ := accepts_of_main hmain hst
  obtain ⟨pk', sig', hacc', rfl⟩ := accepts_of_main hmain' hst'
  have hpk : pk = pk' := BytesN.ext (hacc.pubkey.symm.trans (hkey.trans hacc'.pubkey))
  have hscope : st.scope = st'.scope := scope_eq_iff.mpr ⟨hsubject, hissuer, hperiod⟩
  have hj : st.journal C pk inp.threshold = st'.journal C pk' inp'.threshold := by
    unfold Statement.journal
    rw [hmeets, hscope, hperiod, hpk, hthreshold]
  refine ⟨hj, fun τ P w r r' hr hr' hb hauth hver => invoke_request_alike ⟨hb, hauth, hver, ?_, ?_⟩⟩
  · rw [hr, hr', hj]
  · rw [hr, hr', hj]

theorem journal_hides_incomes_sample :
    ∃ j j', main Sample.crates (Sample.inputOf Sample.keyA Sample.signatureA) = .ok j ∧
      main Sample.crates Sample.otherInput = .ok j' ∧
      Sample.statement.monthlyNetIncome ≠ Sample.other.monthlyNetIncome ∧ Indistinguishable j j' :=
  ⟨_, _, Sample.main_statement, Sample.main_other, by decide,
    journal_hides_incomes _ _ _ _ _ Sample.main_statement Sample.main_other Sample.statement
      Sample.other (by decide +kernel) Sample.fromSlice_other rfl rfl rfl rfl rfl (by decide +kernel)⟩

end ZkUnderwrite.System
