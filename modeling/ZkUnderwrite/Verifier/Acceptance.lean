import ZkUnderwrite.Verifier.Lemmas.Groth16
import ZkUnderwrite.Verifier.Mock
import ZkUnderwrite.Verifier.Parameters
import ZkUnderwrite.Verifier.Theorems

/-!
# What the verifiers accept

Every outcome of the Groth16 verifier as a condition on the bytes of the receipt, what the digests and
the public signals leave open, and how many seals one claim has.
-/

namespace ZkUnderwrite.Verifier
open ByteString Contract Transaction

/-! ## Claims -/

/-- The digest of a claim binds all its fields but seven of the eight user code bytes. -/
theorem claim_digest_binds {sha256 : Bytes → BytesN 32} {S : Set Bytes} (hcol : Set.InjOn sha256 S)
    {c c' : ReceiptClaim} (hc : c.preimage ∈ S) (hc' : c'.preimage ∈ S) :
    c.digest sha256 = c'.digest sha256 ↔ c.Agree c' := by
  rw [← ReceiptClaim.preimage_eq_iff]
  exact hcol.eq_iff hc hc'

namespace Sample

/-- A claim of a program that has ended with a user code. -/
def exited (user : BytesN 8) : ReceiptClaim :=
  { ReceiptClaim.new (fun _ => zeroDigest) zeroDigest zeroDigest with exitCode := ⟨.halted, user⟩ }

def outputDigest : BytesN 32 := .ofNat 32
  0x69738ca3e63efaa6acb5abe74a350b4cf0a3b90ed8e434239260b14d6eed6693

def runInput (image : BytesN 32) : Bytes :=
  (ReceiptClaim.new (fun _ => outputDigest) image zeroDigest).preimage

/-- The digests of the strings that the samples hash. -/
def sha256 (b : Bytes) : BytesN 32 :=
  if b = (⟨zeroDigest, zeroDigest⟩ : Output).preimage then outputDigest
  else if b = runInput zeroDigest then
    .ofNat 32 0xeb9d94a0d90bf02393ddfae82d455ee3995686ec3247fca3e4290a143c024665
  else if b = runInput (.replicate 32 1) then
    .ofNat 32 0x93b83db91d7cf756a8cdd217e439f1e4bde43b9e93e561fd060f7af3d10127b4
  else if b = (exited (.replicate 8 0)).preimage then
    .ofNat 32 0xfc2f9ee5612c1a12e95b71bad9f9e36093836c55d7a60e09519f53ad4fde637b
  else zeroDigest

def keccak256 (b : Bytes) : BytesN 32 :=
  if b = (claimDigest sha256 zeroDigest zeroDigest).val then
    .ofNat 32 0x607ae562342d4e9eafca2b69d864477960706386f507113b6abb1a29c8e12787
  else if b = List.replicate 32 7 then
    .ofNat 32 0x7b062064095a97578a0f0cf535dd321f48f102ebc87a8ca16dd4b4c5fc6c4da8
  else zeroDigest

end Sample

theorem claim_digest_binds_sample :
    ((Sample.exited (.replicate 8 0)).digest Sample.sha256 =
        (Sample.exited (.ofNat 8 7)).digest Sample.sha256 ↔
      (Sample.exited (.replicate 8 0)).Agree (Sample.exited (.ofNat 8 7))) ∧
    Sample.exited (.replicate 8 0) ≠ Sample.exited (.ofNat 8 7) := by
  refine ⟨claim_digest_binds (S := {(Sample.exited (.replicate 8 0)).preimage}) ?_ rfl ?_,
    by decide +kernel⟩
  · exact Set.injOn_singleton _ _
  · exact ReceiptClaim.preimage_eq_iff.mpr ⟨rfl, rfl, rfl, rfl, rfl, by decide +kernel⟩

namespace Groth16Verifier

variable {B : Bn254} {G₁ G₂ Gₜ : Type} [AddCommGroup G₁] [AddCommGroup G₂] [AddCommGroup Gₜ]
  [Module Fr G₁] [Module Fr G₂] [Module Fr Gₜ] [DecidableEq Gₜ] {C : Curve B G₁ G₂ Gₜ}
  {v : Groth16Verifier}

/-! ## Receipts -/

/-- How `verify_integrity` ends on a receipt: the bytes of the seal, the points that are read from it, and
the equation for them. -/
inductive Outcome (K : C.KeyPoints v.verificationKey) (r : Receipt) : Except Fault Unit → Prop
  | malformedSeal (hlen : r.sealBytes.length ≠ 260) : Outcome K r (.error (.error .malformedSeal))
  | invalidSelector (hlen : r.sealBytes.length = 260) (hsel : slice r.sealBytes 0 4 ≠ v.selector.val) :
      Outcome K r (.error (.error .invalidSelector))
  | trap (hlen : r.sealBytes.length = 260) (hsel : slice r.sealBytes 0 4 = v.selector.val)
      (hpoints : ∀ p, ¬ Reads C v.selector r.sealBytes p) : Outcome K r (.error .trap)
  | invalidProof (p : Groth16.Proof G₁ G₂) (hreads : Reads C v.selector r.sealBytes p)
      (hfails : ¬ Attests K r.claimDigest p) : Outcome K r (.error (.error .invalidProof))
  | accepted (p : Groth16.Proof G₁ G₂) (hreads : Reads C v.selector r.sealBytes p)
      (hholds : Attests K r.claimDigest p) : Outcome K r (.ok ())

theorem outcome_verifyIntegrity (K : C.KeyPoints v.verificationKey) (r : Receipt) :
    Outcome K r (verifyIntegrity B v r) := by
  by_cases hlen : r.sealBytes.length = sealSize
  · obtain ⟨s, d, rfl⟩ := Receipt.exists_encode hlen
    rw [verifyIntegrity_encode K]
    by_cases hsel : s.selector = v.selector
    · rw [if_neg (not_not_intro hsel)]
      cases hp : C.proof s.proof with
      | none =>
          refine .trap hlen (s.slice_encode.trans (congrArg _ hsel)) fun p h => ?_
          cases hp.symm.trans (reads_encode.mp h).2
      | some p =>
          have hreads : Reads C v.selector s.encode p := reads_encode.mpr ⟨hsel, hp⟩
          dsimp only
          split
          · exact .accepted p hreads ‹_›
          · exact .invalidProof p hreads ‹_›
    · rw [if_pos hsel]
      exact .invalidSelector hlen fun h => hsel (BytesN.ext (s.slice_encode.symm.trans h))
  · rw [verifyIntegrity_malformed hlen]
    exact .malformedSeal hlen

theorem verifyIntegrity_iff (K : C.KeyPoints v.verificationKey) (r : Receipt)
    (out : Except Fault Unit) : verifyIntegrity B v r = out ↔ Outcome K r out := by
  constructor
  · rintro rfl
    exact outcome_verifyIntegrity K r
  · intro h
    cases h with
    | malformedSeal h => exact verifyIntegrity_malformed h
    | invalidSelector h hsel =>
        obtain ⟨s, d, rfl⟩ := Receipt.exists_encode h
        rw [s.slice_encode] at hsel
        rw [verifyIntegrity_encode K, if_pos fun h => hsel (congrArg _ h)]
    | trap h hsel hpoints =>
        obtain ⟨s, d, rfl⟩ := Receipt.exists_encode h
        rw [s.slice_encode] at hsel
        have hnone : C.proof s.proof = none := Option.eq_none_iff_forall_ne_some.mpr fun p hp =>
          hpoints p (reads_encode.mpr ⟨BytesN.ext hsel, hp⟩)
        rw [verifyIntegrity_encode K, if_neg (not_not_intro (BytesN.ext hsel)), hnone]
    | invalidProof p hreads hfails => rw [verifyIntegrity_of_reads K hreads, if_neg hfails]
    | accepted p hreads hholds => rw [verifyIntegrity_of_reads K hreads, if_pos hholds]

/-- The outcome of `verify_integrity` for every receipt. A seal of three points is read as these. -/
theorem verify_integrity_outcome (K : C.KeyPoints v.verificationKey) (r : Receipt)
    (out : Except Fault Unit) :
    (verifyIntegrity B v r = out ↔ Outcome K r out) ∧
      ∀ p q, Reads C v.selector (sealOf C v.selector p) q ↔ p = q :=
  ⟨verifyIntegrity_iff K r out, fun _ _ => reads_sealOf⟩

namespace Sample

/-- The contract built from a file whose points are scalars, and the points of its key. -/
def scalars : Groth16Verifier := Build.Sample.scalarContents.constants Build.Sample.sha256

def scalarKey : Curve.scalars.KeyPoints scalars.verificationKey :=
  Build.Sample.coordinates.keyPoints Build.Sample.scalarContents Build.Sample.sha256

/-- Scalars that satisfy the equation for a claim. -/
def scalarProof (d : BytesN 32) : Groth16.Proof Fr Fr where
  a := 1
  b := 1 + Groth16.input scalarKey.ic₀ ((publicSignals Bn254.scalars scalars d).zip scalarKey.ic)
  c := 0

def scalarReceipt (d : BytesN 32) : Receipt :=
  ⟨sealOf Curve.scalars scalars.selector (scalarProof d), d⟩

theorem attests_scalarProof : Attests scalarKey zeroDigest (scalarProof zeroDigest) := by
  decide +kernel

end Sample

theorem verify_integrity_outcome_sample :
    verifyIntegrity Bn254.scalars Sample.scalars (Sample.scalarReceipt zeroDigest) = .ok () ∧
    verifyIntegrity Bn254.scalars Sample.scalars ⟨[], zeroDigest⟩ =
      .error (.error .malformedSeal) := by
  have hreads := (verify_integrity_outcome Sample.scalarKey ⟨[], zeroDigest⟩ (.ok ())).2
    (Sample.scalarProof zeroDigest) (Sample.scalarProof zeroDigest)
  refine ⟨(verify_integrity_outcome Sample.scalarKey _ _).1.mpr ?_,
    (verify_integrity_outcome Sample.scalarKey _ _).1.mpr (.malformedSeal nofun)⟩
  exact .accepted (Sample.scalarProof zeroDigest) (hreads.mpr rfl) Sample.attests_scalarProof

/-! ## Signals -/

theorem public_signals_bind (C : Curve B G₁ G₂ Gₜ) (v : Groth16Verifier)
    {sha256 : Bytes → BytesN 32} {S : Set Bytes} (hcol : Set.InjOn sha256 S)
    {image image' journal journal' : BytesN 32}
    (hS : ∀ x ∈ claimInputs sha256 image journal, x ∈ S)
    (hS' : ∀ x ∈ claimInputs sha256 image' journal', x ∈ S) :
    publicSignals B v (claimDigest sha256 image journal) =
        publicSignals B v (claimDigest sha256 image' journal') ↔
      image = image' ∧ journal = journal' := by
  constructor
  · intro h
    exact claimDigest_inj hcol hS hS' (publicSignals_inj C h).2.2
  · rintro ⟨rfl, rfl⟩
    rfl

theorem public_signals_bind_sample :
    publicSignals Bn254.scalars Sample.groth16 (claimDigest Sample.sha256 zeroDigest zeroDigest) =
        publicSignals Bn254.scalars Sample.groth16
          (claimDigest Sample.sha256 (.replicate 32 1) zeroDigest) ↔
      zeroDigest = .replicate 32 1 ∧ zeroDigest = zeroDigest := by
  refine public_signals_bind Curve.scalars _ (S := {x | x ∈
    claimInputs Sample.sha256 zeroDigest zeroDigest ++
      claimInputs Sample.sha256 (.replicate 32 1) zeroDigest}) ?_ ?_ ?_
  · have hcol : ∀ x ∈ claimInputs Sample.sha256 zeroDigest zeroDigest ++
        claimInputs Sample.sha256 (.replicate 32 1) zeroDigest, ∀ y ∈
        claimInputs Sample.sha256 zeroDigest zeroDigest ++
          claimInputs Sample.sha256 (.replicate 32 1) zeroDigest,
        Sample.sha256 x = Sample.sha256 y → x = y := by decide +kernel
    exact fun x hx y hy h => hcol x hx y hy h
  · exact fun x hx => List.mem_append_left _ hx
  · exact fun x hx => List.mem_append_right _ hx

/-! ## Many seals for one claim -/

/-- From one seal anyone makes another for each unit and scalar: they are accepted alike, and for
different units or scalars they differ. -/
structure Malleable (K : C.KeyPoints v.verificationKey) (p : Groth16.Proof G₁ G₂) : Prop where
  alike : ∀ (u : Frˣ) (t : Fr) (d : BytesN 32),
    verifyIntegrity B v ⟨sealOf C v.selector (p.rerandomize K.key u t), d⟩ =
      verifyIntegrity B v ⟨sealOf C v.selector p, d⟩
  differ : (∀ t : Fr, t • p.a = 0 → t = 0) → Function.Injective fun ut : Frˣ × Fr =>
    sealOf C v.selector (p.rerandomize K.key ut.1 ut.2)

theorem seals_malleable (K : C.KeyPoints v.verificationKey) (p : Groth16.Proof G₁ G₂) :
    Malleable K p where
  alike u t d := by
    have hattests : Attests K d (p.rerandomize K.key u t) ↔ Attests K d p :=
      Groth16.Proof.holds_rerandomize
    rw [verifyIntegrity_of_reads K (reads_sealOf.mpr rfl),
      verifyIntegrity_of_reads K (reads_sealOf.mpr rfl)]
    simp only [hattests]
  differ ha := by
    rintro ⟨u, t⟩ ⟨u', t'⟩ h
    have hproof := sealOf_inj.mp h
    have hu : (u : Fr) = u' := by
      have hpoint : (u : Fr) • p.a = (u' : Fr) • p.a := congrArg Groth16.Proof.a hproof
      exact sub_eq_zero.mp (ha _ (by rw [sub_smul, hpoint, sub_self]))
    cases Units.ext hu
    have ht : (u : Fr) * t = u * t' := by
      have hpoint := congrArg Groth16.Proof.c hproof
      simp only [Groth16.Proof.rerandomize, add_right_inj] at hpoint
      exact sub_eq_zero.mp (ha _ (by rw [sub_smul, hpoint, sub_self]))
    rw [u.isUnit.mul_left_cancel ht]

theorem seals_malleable_sample :
    Malleable Sample.scalarKey (Sample.scalarProof zeroDigest) ∧
    Function.Injective (fun ut : Frˣ × Fr => sealOf Curve.scalars Sample.scalars.selector
      ((Sample.scalarProof zeroDigest).rerandomize Sample.scalarKey.key ut.1 ut.2)) := by
  have h := seals_malleable Sample.scalarKey (Sample.scalarProof zeroDigest)
  exact ⟨h, h.differ fun t ht => (mul_one t).symm.trans ht⟩

end Groth16Verifier

/-! ## The mock verifier -/

namespace MockVerifier
variable {sha256 keccak256 : Bytes → BytesN 32} {s : BytesN 4} {S : Set Bytes}

/-- Without collisions the comparison of the hashes is one of the digests. -/
theorem verifyIntegrity_eq_ok {sealBytes : Bytes} {d : BytesN 32} (hcol : Set.InjOn keccak256 S)
    (hseal : sealBytes.drop 4 ∈ S) (hd : d.val ∈ S) :
    (constructor s).verifyIntegrity keccak256 ⟨sealBytes, d⟩ = .ok () ↔ sealBytes = s.val ++ d.val := by
  have hsplit : sealBytes = slice sealBytes 0 4 ++ sealBytes.drop 4 :=
    (List.take_append_drop 4 sealBytes).symm
  unfold verifyIntegrity readSelector constructor
  by_cases hlen : sealBytes.length < 4
  · refine iff_of_false (by simp [hlen, bind, Except.bind]) ?_
    rintro rfl
    rw [List.length_append, s.length_eq] at hlen
    omega
  · simp only [hlen, if_false, bind, Except.bind]
    by_cases hsel : slice sealBytes 0 4 = s.val
    · rw [if_neg (not_not_intro hsel)]
      by_cases hhash : keccak256 (sealBytes.drop 4) = keccak256 d.val
      · rw [if_neg (not_not_intro hhash)]
        refine iff_of_true rfl ?_
        rw [hsplit, hsel, hcol hseal hd hhash]
      · rw [if_pos hhash]
        refine iff_of_false (by rintro ⟨⟩) ?_
        rintro rfl
        exact hhash (congrArg keccak256 (List.drop_left' s.length_eq))
    · rw [if_pos hsel]
      refine iff_of_false (by rintro ⟨⟩) ?_
      rintro rfl
      exact hsel (slice_append_append (a := []) rfl s.length_eq)

/-- The mock verifier accepts one seal for a run, the one that `mock_prove` writes. -/
theorem mock_accepts_own (s : BytesN 4) (hcol : Set.InjOn keccak256 S) {image journal : BytesN 32}
    {sealBytes : Bytes} (hseal : sealBytes.drop 4 ∈ S)
    (hclaim : (claimDigest sha256 image journal).val ∈ S) :
    (constructor s).verify sha256 keccak256 sealBytes image journal = .ok () ↔
      (constructor s).mockProve sha256 image journal =
        .ok ⟨sealBytes, claimDigest sha256 image journal⟩ := by
  have hprove : (constructor s).mockProve sha256 image journal =
      .ok ⟨s.val ++ (claimDigest sha256 image journal).val, claimDigest sha256 image journal⟩ := rfl
  rw [verify, verifyIntegrity_eq_ok hcol hseal hclaim, hprove, Except.ok.injEq, Receipt.mk.injEq,
    and_iff_left rfl]
  exact eq_comm

theorem mock_accepts_own_sample :
    (constructor Sample.selector).verify Sample.sha256 Sample.keccak256
        (Sample.selector.val ++ List.replicate 32 7) zeroDigest zeroDigest = .ok () ↔
      (constructor Sample.selector).mockProve Sample.sha256 zeroDigest zeroDigest =
        .ok ⟨Sample.selector.val ++ List.replicate 32 7,
          claimDigest Sample.sha256 zeroDigest zeroDigest⟩ := by
  have hne : Sample.keccak256 (List.replicate 32 7) ≠
      Sample.keccak256 (claimDigest Sample.sha256 zeroDigest zeroDigest).val := by decide +kernel
  exact mock_accepts_own Sample.selector (Set.injOn_pair.mpr fun h => absurd h hne)
    (Set.mem_insert _ _) (Set.mem_insert_of_mem _ (Set.mem_singleton _))

end MockVerifier

end ZkUnderwrite.Verifier
