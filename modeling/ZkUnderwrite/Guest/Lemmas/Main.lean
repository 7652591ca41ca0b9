import Mathlib.Algebra.Group.Action.Defs
import Mathlib.Algebra.Order.BigOperators.Group.List
import Mathlib.Algebra.Order.Ring.Nat
import ZkUnderwrite.Guest.Main

/-!
# What the guest commits

`Accepts` collects the checks of `main`; the guest commits a journal exactly when they hold. The flag
is exact when the incomes' sum fits 64 bits, and never too generous when it does not.
-/

namespace ZkUnderwrite.Guest
open ByteString

variable {α β : Type} {C : Crates} {inp : Input} {st : Statement}

theorem expect_bind_eq_ok {o : Option α} {a : Abort} {f : α → Except Abort β} {y : β} :
    (expect o a >>= f) = .ok y ↔ ∃ x, o = some x ∧ f x = .ok y := by
  cases o with
  | none => simp [expect, bind, Except.bind]
  | some x => simp [expect, bind, Except.bind]

theorem ensure_bind_eq_ok {c : Bool} {a : Abort} {f : Unit → Except Abort β} {y : β} :
    (ensure c a >>= f) = .ok y ↔ c = true ∧ f () = .ok y := by
  cases c <;> simp [ensure, bind, Except.bind]

theorem checkedDiv_bind_eq_ok {a b : UInt64} {f : UInt64 → Except Abort β} {y : β} :
    (checkedDiv a b >>= f) = .ok y ↔ b ≠ 0 ∧ f (a / b) = .ok y := by
  unfold checkedDiv
  split <;> simp_all [bind, Except.bind]

/-- The checks that the host's inputs have to pass. -/
structure Accepts (C : Crates) (inp : Input) (pk : BytesN 32) (sig : BytesN 64) (st : Statement) :
    Prop where
  pubkey : inp.issuerPubkeyBytes = pk.val
  validKey : C.validKey pk = true
  signature : inp.signatureBytes = sig.val
  verified : C.verify pk inp.statementBytes sig = true
  parsed : C.fromSlice inp.statementBytes = some st
  months : st.periodMonths.toNat = st.monthlyNetIncome.length
  nonempty : st.monthlyNetIncome ≠ []

theorem Accepts.with_threshold {pk : BytesN 32} {sig : BytesN 64} (h : Accepts C inp pk sig st)
    (t : UInt64) : Accepts C { inp with threshold := t } pk sig st :=
  ⟨h.pubkey, h.validKey, h.signature, h.verified, h.parsed, h.months, h.nonempty⟩

/-- The flag that `main` computes. -/
def Statement.meets (st : Statement) (threshold : UInt64) : Bool :=
  (st.monthlyNetIncome.all fun m => 0 < m) &&
    threshold ≤ sumIncome st.monthlyNetIncome / st.periodMonths.toUInt64

def Statement.journal (C : Crates) (st : Statement) (pk : BytesN 32) (threshold : UInt64) : Bytes :=
  encodeJournal (C.sha256 pk.val) threshold (st.meets threshold) (C.sha256 st.scope.preimage)
    st.period

theorem months_ne_zero (h : st.periodMonths.toNat = st.monthlyNetIncome.length) :
    st.periodMonths.toUInt64 ≠ 0 ↔ st.monthlyNetIncome ≠ [] := by
  rw [← List.length_pos_iff, ← h, ← UInt64.toNat_inj.ne]
  simp

/-- The guest commits a journal exactly when the checks hold. -/
theorem main_eq_ok {j : Bytes} :
    main C inp = .ok j ↔
      ∃ pk sig st, Accepts C inp pk sig st ∧ j = st.journal C pk inp.threshold := by
  unfold main
  simp only [expect_bind_eq_ok, ensure_bind_eq_ok, checkedDiv_bind_eq_ok, BytesN.ofBytes_eq_some,
    decide_eq_true_iff]
  constructor
  · rintro ⟨pk, hpk, hvalid, sig, hsig, hver, st, hst, hmon, hne, hj⟩
    refine ⟨pk, sig, st, ⟨hpk, hvalid, hsig, hver, hst, hmon, (months_ne_zero hmon).mp hne⟩, ?_⟩
    rw [hpk] at hj
    exact (Except.ok.inj hj).symm
  · rintro ⟨pk, sig, st, ⟨hpk, hvalid, hsig, hver, hst, hmon, hne⟩, rfl⟩
    refine ⟨pk, hpk, hvalid, sig, hsig, hver, st, hst, hmon, (months_ne_zero hmon).mpr hne, ?_⟩
    rw [hpk]
    rfl

theorem accepts_of_main {j : Bytes} (hmain : main C inp = .ok j)
    (hst : C.fromSlice inp.statementBytes = some st) :
    ∃ pk sig, Accepts C inp pk sig st ∧ j = st.journal C pk inp.threshold := by
  obtain ⟨pk, sig, st', hacc, hj⟩ := main_eq_ok.mp hmain
  cases Option.some.inj (hacc.parsed.symm.trans hst)
  exact ⟨pk, sig, hacc, hj⟩

/-- A statement that is signed but cannot be read aborts the guest. -/
theorem main_of_fromSlice_none {pk : BytesN 32} {sig : BytesN 64} {message : Bytes}
    {threshold : UInt64} (hvalid : C.validKey pk = true) (hver : C.verify pk message sig = true)
    (hnone : C.fromSlice message = none) :
    main C ⟨message, sig.val, pk.val, threshold⟩ = .error .malformedStatement := by
  simp [main, expect, ensure, hvalid, hver, hnone, bind, Except.bind]

/-! ## The flag -/

/-- The sum of the incomes without a bound. -/
def Statement.exactSum (st : Statement) : Nat := (st.monthlyNetIncome.map UInt64.toNat).sum

theorem sumIncome_toNat (l : List UInt64) :
    (sumIncome l).toNat = (l.map UInt64.toNat).sum % 2 ^ 64 := by
  have h : ∀ a : UInt64, (l.foldl (· + ·) a).toNat =
      (a.toNat + (l.map UInt64.toNat).sum) % 2 ^ 64 := by
    induction l with
    | nil => intro a; simp [Nat.mod_eq_of_lt a.toNat_lt]
    | cons m l ih =>
        intro a
        rw [List.foldl_cons, ih, UInt64.toNat_add, List.map_cons, List.sum_cons]
        omega
  simpa [sumIncome] using h 0

theorem avg_toNat (h : st.periodMonths.toNat = st.monthlyNetIncome.length) :
    (sumIncome st.monthlyNetIncome / st.periodMonths.toUInt64).toNat =
      st.exactSum % 2 ^ 64 / st.monthlyNetIncome.length := by
  rw [UInt64.toNat_div, sumIncome_toNat, UInt32.toNat_toUInt64, h]
  rfl

theorem meets_eq_true (h : st.periodMonths.toNat = st.monthlyNetIncome.length)
    {threshold : UInt64} :
    st.meets threshold = true ↔ (∀ m ∈ st.monthlyNetIncome, 0 < m) ∧
      threshold.toNat ≤ st.exactSum % 2 ^ 64 / st.monthlyNetIncome.length := by
  unfold Statement.meets
  rw [Bool.and_eq_true, List.all_eq_true, decide_eq_true_iff, UInt64.le_iff_toNat_le, avg_toNat h]
  simp only [decide_eq_true_iff]

/-- A set flag is backed by the exact sum, also when the sum overflows. -/
theorem le_exactSum_of_meets (h : st.periodMonths.toNat = st.monthlyNetIncome.length)
    {threshold : UInt64} (hm : st.meets threshold = true) :
    threshold.toNat * st.monthlyNetIncome.length ≤ st.exactSum := by
  obtain ⟨-, hle⟩ := (meets_eq_true h).mp hm
  calc threshold.toNat * st.monthlyNetIncome.length
      ≤ st.exactSum % 2 ^ 64 / st.monthlyNetIncome.length * st.monthlyNetIncome.length :=
        Nat.mul_le_mul_right _ hle
    _ ≤ st.exactSum % 2 ^ 64 := Nat.div_mul_le_self _ _
    _ ≤ st.exactSum := Nat.mod_le _ _

/-- Without an overflow the flag compares the threshold with the exact average. -/
theorem meets_of_lt (h : st.periodMonths.toNat = st.monthlyNetIncome.length)
    (hsum : st.exactSum < 2 ^ 64) {threshold : UInt64} :
    st.meets threshold = true ↔ (∀ m ∈ st.monthlyNetIncome, 0 < m) ∧
      threshold.toNat ≤ st.exactSum / st.monthlyNetIncome.length := by
  rw [meets_eq_true h, Nat.mod_eq_of_lt hsum]

/-! ## The flag against exact arithmetic -/

/-- Every income is positive and the exact average reaches the threshold. -/
def Statement.ExactlyMeets (st : Statement) (threshold : UInt64) : Prop :=
  (∀ m ∈ st.monthlyNetIncome, 0 < m) ∧
    threshold.toNat ≤ st.exactSum / st.monthlyNetIncome.length

instance (st : Statement) (threshold : UInt64) : Decidable (st.ExactlyMeets threshold) :=
  @instDecidableAnd _ _ (List.decidableBAll _ _) (Nat.decLe _ _)

theorem not_pos_of_zero_mem {l : List UInt64} (h : 0 ∈ l) : ¬ ∀ m ∈ l, 0 < m :=
  fun hpos => absurd (hpos 0 h) (by decide)

theorem pos_of_zero_notMem {l : List UInt64} (h : 0 ∉ l) : ∀ m ∈ l, 0 < m :=
  fun _ hm => UInt64.pos_iff_ne_zero.mpr fun h0 => h (h0 ▸ hm)

theorem exactSum_div_lt (st : Statement) :
    st.exactSum / st.monthlyNetIncome.length < 2 ^ 64 := by
  have hle : st.exactSum ≤ st.monthlyNetIncome.length * (2 ^ 64 - 1) := by
    have h := List.sum_le_card_nsmul (st.monthlyNetIncome.map UInt64.toNat) (2 ^ 64 - 1) (by
      simp only [List.mem_map]
      rintro _ ⟨m, -, rfl⟩
      have := m.toNat_lt
      omega)
    rwa [List.length_map, smul_eq_mul] at h
  calc st.exactSum / st.monthlyNetIncome.length ≤ 2 ^ 64 - 1 := Nat.div_le_of_le_mul hle
    _ < 2 ^ 64 := by decide

/-- A sum that overflows makes the average smaller: there are fewer than 2^32 months. -/
theorem wrapped_div_lt {n S : Nat} (hn : 0 < n) (hlt : n < 2 ^ 32) (hS : 2 ^ 64 ≤ S) :
    S % 2 ^ 64 / n < S / n := by
  calc S % 2 ^ 64 / n < (S % 2 ^ 64 + n) / n := by rw [Nat.add_div_right _ hn]; exact Nat.lt_succ_self _
    _ ≤ S / n := Nat.div_le_div_right (by omega)

/-- At one threshold the flag is wrong only when an overflowing sum of positive incomes lies above it
and the wrapped sum below. -/
theorem meets_iff_exactlyMeets (h : st.periodMonths.toNat = st.monthlyNetIncome.length)
    (hne : st.monthlyNetIncome ≠ []) (threshold : UInt64) :
    (st.meets threshold = true ↔ st.ExactlyMeets threshold) ↔
      st.exactSum < 2 ^ 64 ∨ 0 ∈ st.monthlyNetIncome ∨
        ¬ (st.exactSum % 2 ^ 64 < threshold.toNat * st.monthlyNetIncome.length ∧
          threshold.toNat * st.monthlyNetIncome.length ≤ st.exactSum) := by
  have hn := List.length_pos_iff.mpr hne
  by_cases hzero : 0 ∈ st.monthlyNetIncome
  · have hpos := not_pos_of_zero_mem hzero
    simp only [meets_eq_true h, Statement.ExactlyMeets, hpos, false_and, hzero, true_or, or_true]
  · rw [meets_eq_true h, Statement.ExactlyMeets, and_congr_right_iff,
      forall_prop_of_true (pos_of_zero_notMem hzero), Nat.le_div_iff_mul_le hn,
      Nat.le_div_iff_mul_le hn]
    have hmod := Nat.mod_le st.exactSum (2 ^ 64)
    have hlt : st.exactSum < 2 ^ 64 → st.exactSum % 2 ^ 64 = st.exactSum := Nat.mod_eq_of_lt
    constructor
    · intro hiff
      exact .inr (.inr fun hgap => by omega)
    · rintro (hs | h0 | hgap)
      · rw [hlt hs]
      · exact absurd h0 hzero
      · omega

/-- The flag is right at every threshold exactly when the sum does not overflow or a month is zero. -/
theorem forall_meets_iff_exactlyMeets (h : st.periodMonths.toNat = st.monthlyNetIncome.length)
    (hne : st.monthlyNetIncome ≠ []) :
    (∀ t, st.meets t = true ↔ st.ExactlyMeets t) ↔
      st.exactSum < 2 ^ 64 ∨ 0 ∈ st.monthlyNetIncome := by
  have hn := List.length_pos_iff.mpr hne
  constructor
  · intro hall
    by_contra hcon
    obtain ⟨hsum, hzero⟩ := not_or.mp hcon
    have hmonths := st.periodMonths.toNat_lt
    have hwrap := wrapped_div_lt hn (h ▸ hmonths) (Nat.not_lt.mp hsum)
    -- The exact average itself is a threshold that the wrapped sum misses.
    have havg : (UInt64.ofNat (st.exactSum / st.monthlyNetIncome.length)).toNat =
        st.exactSum / st.monthlyNetIncome.length := UInt64.toNat_ofNat_of_lt' (exactSum_div_lt st)
    have hexact : st.ExactlyMeets (UInt64.ofNat (st.exactSum / st.monthlyNetIncome.length)) :=
      ⟨pos_of_zero_notMem hzero, Nat.le_of_eq havg⟩
    have hflag := ((meets_eq_true h).mp ((hall _).mpr hexact)).2
    omega
  · intro hcond t
    refine (meets_iff_exactlyMeets h hne t).mpr ?_
    rcases hcond with hs | h0
    · exact .inl hs
    · exact .inr (.inl h0)

theorem meets_antitone (h : st.periodMonths.toNat = st.monthlyNetIncome.length) {t t' : UInt64}
    (ht : t ≤ t') (hm : st.meets t' = true) : st.meets t = true := by
  obtain ⟨hpos, hle⟩ := (meets_eq_true h).mp hm
  exact (meets_eq_true h).mpr ⟨hpos, (UInt64.le_iff_toNat_le.mp ht).trans hle⟩

theorem pos_of_forall₂_le {l l' : List UInt64} (h : List.Forall₂ (· ≤ ·) l l')
    (hpos : ∀ m ∈ l, 0 < m) : ∀ m ∈ l', 0 < m := by
  induction h with
  | nil => exact hpos
  | cons hle _ ih =>
      obtain ⟨hm, hpos⟩ := List.forall_mem_cons.mp hpos
      exact List.forall_mem_cons.mpr ⟨UInt64.lt_of_lt_of_le hm hle, ih hpos⟩

theorem exactSum_le_of_forall₂ {st₀ : Statement}
    (h : List.Forall₂ (· ≤ ·) st₀.monthlyNetIncome st.monthlyNetIncome) :
    st₀.exactSum ≤ st.exactSum := by
  refine List.Forall₂.sum_le_sum ?_
  rw [List.forall₂_map_left_iff, List.forall₂_map_right_iff]
  exact h.imp fun _ _ => UInt64.le_iff_toNat_le.mp

/-- Raising incomes keeps the flag, as long as the raised sum does not overflow. -/
theorem meets_of_forall₂ {st₀ : Statement}
    (h₀ : st₀.periodMonths.toNat = st₀.monthlyNetIncome.length)
    (h : st.periodMonths.toNat = st.monthlyNetIncome.length) (hne : st.monthlyNetIncome ≠ [])
    (hle : List.Forall₂ (· ≤ ·) st₀.monthlyNetIncome st.monthlyNetIncome)
    (hcond : st.exactSum < 2 ^ 64 ∨ 0 ∈ st.monthlyNetIncome) {t : UInt64}
    (hm : st₀.meets t = true) : st.meets t = true := by
  have hpos := pos_of_forall₂_le hle ((meets_eq_true h₀).mp hm).1
  refine ((forall_meets_iff_exactlyMeets h hne).mpr hcond t).mpr ⟨hpos, ?_⟩
  rw [Nat.le_div_iff_mul_le (List.length_pos_iff.mpr hne), ← hle.length_eq]
  exact (le_exactSum_of_meets h₀ hm).trans (exactSum_le_of_forall₂ hle)

/-! ## The nullifier -/

/-- Different scopes are hashed from different bytes, whatever their strings contain. -/
theorem Scope.preimage_inj {s t : Scope} : s.preimage = t.preimage ↔ s = t := by
  refine ⟨fun h => ?_, congrArg Scope.preimage⟩
  obtain ⟨subject, issuer, period⟩ := s
  obtain ⟨subject', issuer', period'⟩ := t
  simp only [Scope.preimage, List.append_assoc] at h
  obtain ⟨hs, h⟩ := lengthPrefixed_append_inj subject.length_lt subject'.length_lt h
  obtain ⟨hi, h⟩ := lengthPrefixed_append_inj issuer.length_lt issuer'.length_lt h
  have hp := beBytes_inj period.toNat_lt period'.toNat_lt h
  obtain ⟨subject, _⟩ := subject
  obtain ⟨issuer, _⟩ := issuer
  cases asBytes_inj.mp hs
  cases asBytes_inj.mp hi
  cases UInt64.toNat_inj.mp hp
  rfl

end ZkUnderwrite.Guest
