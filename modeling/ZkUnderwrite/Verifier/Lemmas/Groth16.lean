import ZkUnderwrite.Verifier.Curve
import ZkUnderwrite.Verifier.Lemmas.Receipt

/-!
# The answers of the Groth16 verifier

Which bytes are seals, what the public signals determine, and what the pairing check computes: the
Groth16 equation on the points that the bytes encode.
-/

namespace ZkUnderwrite.Verifier
open ByteString Contract Transaction

/-! ## Seals -/

def Groth16Proof.encode (p : Groth16Proof) : Bytes := p.a.val ++ p.b.val ++ p.c.val

def Groth16Seal.encode (s : Groth16Seal) : Bytes := s.selector.val ++ s.proof.encode

theorem tryInto_eq_ok {n : Nat} {b : Bytes} {v : BytesN n} : tryInto n b = .ok v ↔ b = v.val := by
  unfold tryInto
  cases h : BytesN.ofBytes n b with
  | none =>
      refine iff_of_false nofun ?_
      rintro rfl
      rw [BytesN.ofBytes_val] at h
      cases h
  | some w =>
      have hw := BytesN.ofBytes_eq_some.mp h
      constructor
      · rintro ⟨⟩
        exact hw
      · intro hv
        rw [BytesN.ext (hw.symm.trans hv)]

theorem Groth16Proof.length_encode (p : Groth16Proof) : p.encode.length = proofSize := by
  simp only [encode, List.length_append, BytesN.length_eq]
  rfl

theorem Groth16Seal.length_encode (s : Groth16Seal) : s.encode.length = sealSize := by
  rw [encode, List.length_append, s.selector.length_eq, s.proof.length_encode]
  rfl

theorem Groth16Proof.tryFrom_eq_ok {value : Bytes} {p : Groth16Proof} :
    Groth16Proof.tryFrom value = .ok p ↔ value = p.encode := by
  constructor
  · intro h
    unfold Groth16Proof.tryFrom at h
    split at h
    · cases h
    rename_i hlen
    obtain ⟨a, ha, h⟩ := bind_eq_ok.mp h
    obtain ⟨b, hb, h⟩ := bind_eq_ok.mp h
    obtain ⟨c, hc, h⟩ := bind_eq_ok.mp h
    cases h
    rw [encode, ← tryInto_eq_ok.mp ha, ← tryInto_eq_ok.mp hb, ← tryInto_eq_ok.mp hc]
    have hab := slice_append_slice value 0 g1Size g2Size
    rw [Nat.zero_add] at hab
    rw [hab]
    exact (List.take_append_drop (g1Size + g2Size) value).symm
  · rintro rfl
    have ha : slice p.encode 0 g1Size = p.a.val := by
      rw [encode, List.append_assoc]
      exact slice_append_append (a := []) rfl p.a.length_eq
    have hb : slice p.encode g1Size g2Size = p.b.val := slice_append_append p.a.length_eq p.b.length_eq
    have hc : p.encode.drop (g1Size + g2Size) = p.c.val :=
      List.drop_left' (by simp only [List.length_append, BytesN.length_eq]; rfl)
    unfold Groth16Proof.tryFrom
    rw [if_neg (not_not_intro p.length_encode), ha, hb, hc, tryInto_eq_ok.mpr rfl,
      tryInto_eq_ok.mpr rfl, tryInto_eq_ok.mpr rfl]
    rfl

theorem Groth16Seal.slice_encode (s : Groth16Seal) : slice s.encode 0 4 = s.selector.val :=
  slice_append_append (a := []) rfl s.selector.length_eq

theorem Groth16Seal.tryFrom_eq_ok {value : Bytes} {s : Groth16Seal} :
    Groth16Seal.tryFrom value = .ok s ↔ value = s.encode := by
  constructor
  · intro h
    unfold Groth16Seal.tryFrom at h
    split at h
    · cases h
    obtain ⟨sel, hsel, h⟩ := bind_eq_ok.mp h
    obtain ⟨p, hp, h⟩ := bind_eq_ok.mp h
    cases h
    rw [encode, ← tryInto_eq_ok.mp hsel, ← Groth16Proof.tryFrom_eq_ok.mp hp]
    exact (List.take_append_drop selectorSize value).symm
  · rintro rfl
    have hsel : slice s.encode 0 selectorSize = s.selector.val := s.slice_encode
    have hp : s.encode.drop selectorSize = s.proof.encode := List.drop_left' s.selector.length_eq
    unfold Groth16Seal.tryFrom
    rw [if_neg (not_not_intro s.length_encode), hsel, hp, tryInto_eq_ok.mpr rfl,
      Groth16Proof.tryFrom_eq_ok.mpr rfl]
    rfl

theorem Groth16Seal.encode_inj {s t : Groth16Seal} : s.encode = t.encode ↔ s = t := by
  constructor
  · intro h
    exact Except.ok.inj ((tryFrom_eq_ok.mpr rfl).symm.trans (tryFrom_eq_ok.mpr h))
  · rintro rfl
    rfl

/-- The bytes of the right length are the seals. -/
theorem Groth16Seal.exists_encode {value : Bytes} (h : value.length = sealSize) :
    ∃ s : Groth16Seal, value = s.encode := by
  have hlen : ∀ off n, off + n ≤ 260 → (slice value off n).length = n :=
    fun off n hn => length_slice (by rw [h]; exact hn)
  refine ⟨⟨⟨slice value 0 4, hlen 0 4 (by decide)⟩, ⟨slice value 4 64, hlen 4 64 (by decide)⟩,
    ⟨slice value 68 128, hlen 68 128 (by decide)⟩, ⟨slice value 196 64, hlen 196 64 (by decide)⟩⟩, ?_⟩
  simp only [encode, Groth16Proof.encode, ← List.append_assoc]
  rw [slice_append_slice value 0, slice_append_slice value 0, slice_append_slice value 0]
  exact (slice_all h).symm

theorem Receipt.exists_encode {r : Receipt} (h : r.sealBytes.length = sealSize) :
    ∃ (s : Groth16Seal) (d : BytesN 32), r = ⟨s.encode, d⟩ := by
  obtain ⟨value, d⟩ := r
  obtain ⟨s, rfl⟩ := Groth16Seal.exists_encode h
  exact ⟨s, d, rfl⟩

theorem Groth16Seal.tryFrom_of_length {value : Bytes} (h : value.length ≠ sealSize) :
    Groth16Seal.tryFrom value = .error .malformedSeal := by
  unfold Groth16Seal.tryFrom
  rw [if_pos h]
  rfl

/-! ## Public signals -/

namespace Groth16Verifier

variable {B : Bn254} {G₁ G₂ Gₜ : Type} [AddCommGroup G₁] [AddCommGroup G₂] [AddCommGroup Gₜ]
  [Module Fr G₁] [Module Fr G₂] [Module Fr Gₜ] [DecidableEq Gₜ]

theorem beNat_padLeft (half : BytesN 16) : beNat (padLeft half).val = beNat half.val := by
  have hzero : beNat (List.replicate 16 0) = 0 := by decide
  rw [padLeft, beNat_append, hzero, Nat.zero_mul, Nat.zero_add]

/-- A half is a number below the order of the field, so that it survives as a scalar. -/
theorem cast_padLeft_inj {a b : BytesN 16}
    (h : ((beNat (padLeft a).val : Nat) : Fr) = (beNat (padLeft b).val : Nat)) : a = b := by
  have hlt : ∀ c : BytesN 16, beNat c.val < bn254Order := by
    intro c
    have := beNat_lt c.val
    rw [c.length_eq] at this
    exact this.trans (by decide)
  rw [beNat_padLeft, beNat_padLeft, ZMod.natCast_eq_natCast_iff', Nat.mod_eq_of_lt (hlt a),
    Nat.mod_eq_of_lt (hlt b)] at h
  have hbytes := congrArg (beBytes 16) h
  have ha := beBytes_beNat a.val
  have hb := beBytes_beNat b.val
  rw [a.length_eq] at ha
  rw [b.length_eq] at hb
  rw [ha, hb] at hbytes
  exact BytesN.ext hbytes

/-- The two halves make up the digest. -/
theorem reversedHalf_inj {d d' : BytesN 32}
    (h₁ : reversedHalf d 16 (by decide) = reversedHalf d' 16 (by decide))
    (h₀ : reversedHalf d 0 (by decide) = reversedHalf d' 0 (by decide)) : d = d' := by
  have hrev : ∀ e : BytesN 32, slice e.val.reverse 0 16 ++ slice e.val.reverse 16 16 =
      e.val.reverse := by
    intro e
    have := slice_append_slice e.val.reverse 0 16 16
    rw [Nat.zero_add] at this
    rw [this]
    exact slice_all (by rw [List.length_reverse, e.length_eq])
  have hd := hrev d
  have h₀' := congrArg BytesN.val h₀
  have h₁' := congrArg BytesN.val h₁
  rw [show slice d.val.reverse 0 16 = _ from h₀', show slice d.val.reverse 16 16 = _ from h₁'] at hd
  exact BytesN.ext (List.reverse_injective (hd.symm.trans (hrev d')))

section
variable (C : Curve B G₁ G₂ Gₜ)
include C

theorem frFromBytes_padLeft_inj {a b : BytesN 16}
    (h : B.frFromBytes (padLeft a) = B.frFromBytes (padLeft b)) : a = b := by
  rw [C.frFromBytes, C.frFromBytes] at h
  exact cast_padLeft_inj h

/-- The signals determine both halves of the control root and the claim digest. -/
theorem publicSignals_inj {v v' : Groth16Verifier} {d d' : BytesN 32}
    (h : publicSignals B v d = publicSignals B v' d') :
    v.controlRoot0 = v'.controlRoot0 ∧ v.controlRoot1 = v'.controlRoot1 ∧ d = d' := by
  simp only [publicSignals, List.cons.injEq, and_true] at h
  obtain ⟨h₀, h₁, hc₀, hc₁, -⟩ := h
  exact ⟨frFromBytes_padLeft_inj C h₀, frFromBytes_padLeft_inj C h₁,
    reversedHalf_inj (frFromBytes_padLeft_inj C hc₀) (frFromBytes_padLeft_inj C hc₁)⟩

end

/-! ## The pairing check -/

variable {C : Curve B G₁ G₂ Gₜ} {v : Groth16Verifier}

theorem accumulate_encode (C : Curve B G₁ G₂ Gₜ) (x : G₁) (terms : List (Fr × G₁)) :
    accumulate B (C.encodeG1 x) (terms.map fun t => (t.1, C.encodeG1 t.2)) =
      .ok (C.encodeG1 (Groth16.input x terms)) := by
  induction terms generalizing x with
  | nil => simp [accumulate, Groth16.input]
  | cons t terms ih =>
      have hinput : Groth16.input (x + t.1 • t.2) terms = Groth16.input x (t :: terms) := by
        simp only [Groth16.input, List.map_cons, List.sum_cons, add_assoc]
      rw [List.map_cons, accumulate, C.g1Mul_encode, ← hinput, ← ih]
      change (do accumulate B (← orTrap (B.g1Add _ _)) _) = _
      rw [C.g1Add_encode]
      rfl

theorem pairingCheck_eq {x₁ x₂ x₃ x₄ : BytesN 64} {y₁ y₂ y₃ y₄ : BytesN 128} (C : Curve B G₁ G₂ Gₜ) :
    B.pairingCheck [x₁, x₂, x₃, x₄] [y₁, y₂, y₃, y₄] =
      (C.g1 x₁).bind fun a₁ => (C.g1 x₂).bind fun a₂ => (C.g1 x₃).bind fun a₃ =>
        (C.g1 x₄).bind fun a₄ => (C.g2 y₁).bind fun b₁ => (C.g2 y₂).bind fun b₂ =>
          (C.g2 y₃).bind fun b₃ => (C.g2 y₄).bind fun b₄ =>
            some (decide (C.pair a₁ b₁ + C.pair a₂ b₂ + C.pair a₃ b₃ + C.pair a₄ b₄ = 0)) := by
  rw [C.pairingCheck _ _ (List.cons_ne_nil _ _)]
  simp only [List.mapM_cons, List.mapM_nil, Option.pure_def, Option.bind_eq_bind,
    Option.bind_assoc, Option.bind_some, List.length_cons, List.length_nil, if_true,
    List.zipWith_cons_cons, List.zipWith_nil_left, List.sum_cons, List.sum_nil, add_zero, add_assoc]

/-- The Groth16 equation that a proof has to satisfy for a list of public signals. -/
def Proves (K : C.KeyPoints v.verificationKey) (signals : List Fr) (p : Groth16.Proof G₁ G₂) : Prop :=
  Groth16.Holds C.pair K.key (Groth16.input K.ic₀ (signals.zip K.ic)) p

instance (K : C.KeyPoints v.verificationKey) (signals : List Fr) (p : Groth16.Proof G₁ G₂) :
    Decidable (Proves K signals p) := inferInstanceAs (Decidable (Groth16.Holds _ _ _ _))

theorem accumulate_key (K : C.KeyPoints v.verificationKey) (signals : List Fr) :
    (do accumulate B (← orTrap v.verificationKey.ic.head?)
          (signals.zip (v.verificationKey.ic.drop 1))) =
      .ok (C.encodeG1 (Groth16.input K.ic₀ (signals.zip K.ic))) := by
  have hzip : signals.zip (K.ic.map C.encodeG1) =
      (signals.zip K.ic).map fun t => (t.1, C.encodeG1 t.2) := List.zip_map_right
  rw [K.ic_eq, List.map_cons, List.head?_cons, List.drop_one, List.tail_cons, hzip,
    ← accumulate_encode]
  rfl

theorem orTrap_bind {α β : Type} (o : Option α) (f : α → Option β) :
    (do let a ← orTrap o; orTrap (f a)) = orTrap (o.bind f) := by
  cases o <;> rfl

/-- The last two steps of `verify_proof`: the host's check is the equation on the decoded points. -/
theorem checkPairing_eq (K : C.KeyPoints v.verificationKey) (proof : Groth16Proof) (x : G₁) :
    ((B.g1Neg proof.a).bind fun negA =>
      B.pairingCheck [negA, v.verificationKey.alpha, C.encodeG1 x, proof.c]
        [proof.b, v.verificationKey.beta, v.verificationKey.gamma, v.verificationKey.delta]) =
      (C.proof proof).map fun p => decide (Groth16.Holds C.pair K.key x p) := by
  calc _ = ((B.g1Neg proof.a).bind C.g1).bind fun a => (C.g1 proof.c).bind fun c =>
        (C.g2 proof.b).bind fun b => some (decide (C.pair a b + C.pair K.key.alpha K.key.beta +
          C.pair x K.key.gamma + C.pair c K.key.delta = 0)) := by
        rw [K.alpha, K.beta, K.gamma, K.delta]
        simp only [pairingCheck_eq C, C.g1_encode, C.g2_encode, Option.bind_some, Option.bind_assoc]
    _ = _ := by
        unfold Curve.proof Groth16.Holds
        cases (B.g1Neg proof.a).bind C.g1 <;> cases C.g2 proof.b <;> cases C.g1 proof.c <;>
          simp only [Option.bind_some, Option.bind_none, Option.map_some, Option.map_none, neg_neg]

/-- The contract computes the equation on the points of the proof; other bytes trap. -/
theorem verifyProof_eq (K : C.KeyPoints v.verificationKey) (proof : Groth16Proof) {signals : List Fr}
    (hlen : signals.length = publicInputsLen) :
    verifyProof B v proof signals =
      orTrap ((C.proof proof).map fun p => decide (Proves K signals p)) := by
  have hic : ¬ signals.length + 1 ≠ v.verificationKey.ic.length := by
    rw [hlen, v.verificationKey.length_ic]
    decide
  obtain ⟨ic₀, hic₀, hacc⟩ := bind_eq_ok.mp (accumulate_key K signals)
  unfold verifyProof
  simp only [if_neg hic, hic₀]
  change (do
    let vkX ← accumulate B ic₀ (signals.zip (v.verificationKey.ic.drop 1))
    let negA ← orTrap (B.g1Neg proof.a)
    orTrap (B.pairingCheck [negA, v.verificationKey.alpha, vkX, proof.c]
      [proof.b, v.verificationKey.beta, v.verificationKey.gamma, v.verificationKey.delta])) = _
  rw [hacc]
  exact (orTrap_bind _ _).trans (congrArg orTrap (checkPairing_eq K proof _))

/-! ## The outcome for a receipt -/

/-- The equation for the signals of a claim digest. -/
def Attests (K : C.KeyPoints v.verificationKey) (digest : BytesN 32) (p : Groth16.Proof G₁ G₂) :
    Prop :=
  Proves K (publicSignals B v digest) p

instance (K : C.KeyPoints v.verificationKey) (digest : BytesN 32) (p : Groth16.Proof G₁ G₂) :
    Decidable (Attests K digest p) := inferInstanceAs (Decidable (Proves _ _ _))

theorem verifyIntegrity_encode (K : C.KeyPoints v.verificationKey) (s : Groth16Seal)
    (digest : BytesN 32) :
    verifyIntegrity B v ⟨s.encode, digest⟩ =
      if s.selector ≠ v.selector then .error (.error .invalidSelector)
      else match C.proof s.proof with
        | none => .error .trap
        | some p => if Attests K digest p then .ok () else .error (.error .invalidProof) := by
  have hsignals : (publicSignals B v digest).length = publicInputsLen := rfl
  unfold verifyIntegrity
  rw [Groth16Seal.tryFrom_eq_ok.mpr rfl]
  simp only [Except.mapError, bind, Except.bind, verifyProof_eq K s.proof hsignals]
  by_cases hsel : s.selector ≠ v.selector
  · rw [if_pos hsel, if_pos hsel]
    rfl
  · rw [if_neg hsel, if_neg hsel]
    cases C.proof s.proof with
    | none => rfl
    | some p =>
        by_cases hp : Attests K digest p
        · rw [Option.map_some, decide_eq_true (p := Proves _ _ p) hp]
          exact (if_pos hp).symm
        · rw [Option.map_some, decide_eq_false (p := Proves _ _ p) hp]
          exact (if_neg hp).symm

theorem verifyIntegrity_malformed {r : Receipt} (h : r.sealBytes.length ≠ sealSize) :
    verifyIntegrity B v r = .error (.error .malformedSeal) := by
  unfold verifyIntegrity
  rw [Groth16Seal.tryFrom_of_length h]
  rfl

/-- The seal of a proof given by points. -/
def sealOf (C : Curve B G₁ G₂ Gₜ) (selector : BytesN 4) (p : Groth16.Proof G₁ G₂) : Bytes :=
  Groth16Seal.encode ⟨selector, C.encodeProof p⟩

/-- The bytes are the selector and three points, of which the first one is known by its negation. -/
def Reads (C : Curve B G₁ G₂ Gₜ) (selector : BytesN 4) (sealBytes : Bytes)
    (p : Groth16.Proof G₁ G₂) : Prop :=
  ∃ a, B.g1Neg a = some (C.encodeG1 (-p.a)) ∧
    sealBytes = Groth16Seal.encode ⟨selector, a, C.encodeG2 p.b, C.encodeG1 p.c⟩

theorem reads_encode {s : Groth16Seal} {selector : BytesN 4} {p : Groth16.Proof G₁ G₂} :
    Reads C selector s.encode p ↔ s.selector = selector ∧ C.proof s.proof = some p := by
  rw [C.proof_eq_some]
  constructor
  · rintro ⟨a, ha, hs⟩
    cases Groth16Seal.encode_inj.mp hs
    exact ⟨rfl, ha, rfl, rfl⟩
  · obtain ⟨sel, a, b, c⟩ := s
    rintro ⟨rfl, ha, rfl, rfl⟩
    exact ⟨a, ha, rfl⟩

/-- The seal of three points is read as these. -/
theorem reads_sealOf {selector : BytesN 4} {p q : Groth16.Proof G₁ G₂} :
    Reads C selector (sealOf C selector p) q ↔ p = q := by
  rw [sealOf, reads_encode, and_iff_right rfl, C.proof_encode, Option.some.injEq]

theorem sealOf_inj {selector : BytesN 4} {p p' : Groth16.Proof G₁ G₂} :
    sealOf C selector p = sealOf C selector p' ↔ p = p' := by
  constructor
  · intro h
    exact (reads_sealOf.mp (h ▸ reads_sealOf.mpr rfl)).symm
  · rintro rfl
    rfl

/-- A seal that is read as points is accepted by the equation on them. -/
theorem verifyIntegrity_of_reads (K : C.KeyPoints v.verificationKey) {r : Receipt}
    {p : Groth16.Proof G₁ G₂} (h : Reads C v.selector r.sealBytes p) : verifyIntegrity B v r =
      if Attests K r.claimDigest p then .ok () else .error (.error .invalidProof) := by
  obtain ⟨value, d⟩ := r
  obtain ⟨a, ha, rfl⟩ := h
  rw [verifyIntegrity_encode K, if_neg (not_not_intro rfl), C.proof_eq_some.mpr ⟨ha, rfl, rfl⟩]

theorem verifyIntegrity_eq_ok (K : C.KeyPoints v.verificationKey) {r : Receipt} :
    verifyIntegrity B v r = .ok () ↔
      ∃ p, Reads C v.selector r.sealBytes p ∧ Attests K r.claimDigest p := by
  constructor
  · intro h
    by_cases hlen : r.sealBytes.length = sealSize
    · obtain ⟨s, d, rfl⟩ := Receipt.exists_encode hlen
      rw [verifyIntegrity_encode K] at h
      split at h
      · cases h
      rename_i hsel
      split at h
      · cases h
      rename_i p hp
      split at h
      · rename_i hatt
        exact ⟨p, reads_encode.mpr ⟨not_not.mp hsel, hp⟩, hatt⟩
      · cases h
    · rw [verifyIntegrity_malformed hlen] at h
      cases h
  · rintro ⟨p, hreads, hatt⟩
    rw [verifyIntegrity_of_reads K hreads, if_pos hatt]

end Groth16Verifier

end ZkUnderwrite.Verifier
