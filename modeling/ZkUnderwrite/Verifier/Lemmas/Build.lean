import ZkUnderwrite.Verifier.Build
import ZkUnderwrite.Verifier.Lemmas.Groth16

/-!
# What the build makes

The build is split into what the file of parameters says, once its points and digests are read, and
the constants that follow from that. Both ways of writing a coordinate give the same bytes, and these
determine the point.
-/

namespace ZkUnderwrite.Verifier.Build
open ByteString

variable {A : Ark} {sha256 : Bytes → BytesN 32}

/-! ## Points -/

instance : NeZero bn254Modulus := ⟨by decide⟩

theorem val_lt (f : Fq) : f.val < 256 ^ 32 := (ZMod.val_lt f).trans (by decide)

theorem hashedFqToBeBytes_eq (f : Fq) : hashedFqToBeBytes f = (fqToBeBytes f).val := by
  rw [hashedFqToBeBytes, serializeUncompressed, List.reverse_reverse, fqToBeBytes, BytesN.ofNat]

theorem fqToBeBytes_inj {f g : Fq} : fqToBeBytes f = fqToBeBytes g ↔ f = g := by
  constructor
  · intro h
    have hbytes : beBytes 32 f.val = beBytes 32 g.val := by
      simpa only [fqToBeBytes, BytesN.ofNat, BytesN.mk.injEq] using h
    exact ZMod.val_injective _ (beBytes_inj (val_lt f) (val_lt g) hbytes)
  · rintro rfl
    rfl

theorem beNat_fqToBeBytes (f : Fq) : beNat (fqToBeBytes f).val = f.val :=
  beNat_beBytes_of_lt (val_lt f)

theorem hashG1Point_eq (p : G1Affine A) :
    hashG1Point sha256 p = sha256 (serializeG1Point p).val := by
  simp only [hashG1Point, hashedFqToBeBytes_eq, serializeG1Point]

theorem hashG2Point_eq (p : G2Affine A) :
    hashG2Point sha256 p = sha256 (serializeG2Point p).val := by
  simp only [hashG2Point, hashedFqToBeBytes_eq, serializeG2Point]

theorem serializeG1Point_inj {p q : G1Affine A} : serializeG1Point p = serializeG1Point q ↔ p = q := by
  constructor
  · intro h
    obtain ⟨hx, hy⟩ := append_val_inj.mp (congrArg BytesN.val h)
    exact G1Affine.ext (fqToBeBytes_inj.mp (BytesN.ext hx)) (fqToBeBytes_inj.mp hy)
  · rintro rfl
    rfl

theorem serializeG2Point_inj {p q : G2Affine A} : serializeG2Point p = serializeG2Point q ↔ p = q := by
  constructor
  · intro h
    have h := congrArg BytesN.val h
    simp only [serializeG2Point, append_val_inj] at h
    obtain ⟨⟨⟨hx₁, hx₀⟩, hy₁⟩, hy₀⟩ := h
    exact G2Affine.ext
      (Fq2.ext (fqToBeBytes_inj.mp hx₀) (fqToBeBytes_inj.mp (BytesN.ext hx₁)))
      (Fq2.ext (fqToBeBytes_inj.mp hy₀) (fqToBeBytes_inj.mp hy₁))
  · rintro rfl
    rfl

/-- The bytes of a point as one number. -/
theorem serializeG1Point_eq (p : G1Affine A) :
    serializeG1Point p = .ofNat 64 (p.x.val * 256 ^ 32 + p.y.val) := by
  apply BytesN.eq_ofNat
  rw [serializeG1Point, beNat_append, beNat_fqToBeBytes, beNat_fqToBeBytes, BytesN.length_eq]

theorem serializeG2Point_eq (p : G2Affine A) : serializeG2Point p = .ofNat 128
    (((p.x.c1.val * 256 ^ 32 + p.x.c0.val) * 256 ^ 32 + p.y.c1.val) * 256 ^ 32 + p.y.c0.val) := by
  apply BytesN.eq_ofNat
  simp only [serializeG2Point, beNat_append, beNat_fqToBeBytes, BytesN.length_eq]

/-! ## What the file says -/

/-- The contents of a file of parameters that the build accepts. -/
structure Contents (A : Ark) where
  version : String
  controlRoot : BytesN 32
  bn254ControlId : BytesN 32
  vk : VerificationKey A
  length_ic : vk.ic.length = icLen

/-- The contents of the file, when its points and digests can be read. -/
def VerifierParameters.contents (A : Ark) (params : VerifierParameters) : Option (Contents A) := do
  let vk ← params.verificationKey.toVerificationKey A
  let controlRoot ← decodeDigest params.controlRoot
  let bn254ControlId ← decodeDigest params.bn254ControlId
  if h : vk.ic.length = icLen then some ⟨params.version, controlRoot, bn254ControlId, vk, h⟩ else none

namespace Contents

def icDigest (sha256 : Bytes → BytesN 32) (c : Contents A) : BytesN 32 :=
  chain sha256 (consInput sha256 "risc0_groth16.VerifyingKey.IC") zeroDigest
    (c.vk.ic.map (hashG1Point sha256))

/-- The string hashed for the digest of the key. -/
def vkInput (sha256 : Bytes → BytesN 32) (c : Contents A) : Bytes :=
  taggedInput sha256 "risc0_groth16.VerifyingKey"
    [hashG1Point sha256 c.vk.alpha, hashG2Point sha256 c.vk.beta, hashG2Point sha256 c.vk.gamma,
      hashG2Point sha256 c.vk.delta, c.icDigest sha256]

/-- The string hashed for the digest of the parameters. -/
def input (sha256 : Bytes → BytesN 32) (c : Contents A) : Bytes :=
  taggedInput sha256 "risc0.Groth16ReceiptVerifierParameters"
    [c.controlRoot, reverseDigest c.bn254ControlId, sha256 (c.vkInput sha256)]

def digest (sha256 : Bytes → BytesN 32) (c : Contents A) : BytesN 32 := sha256 (c.input sha256)

/-- The strings hashed for the digest, apart from the tags. -/
def hashed (sha256 : Bytes → BytesN 32) (c : Contents A) : List Bytes :=
  [c.input sha256, c.vkInput sha256, (serializeG1Point c.vk.alpha).val,
    (serializeG2Point c.vk.beta).val, (serializeG2Point c.vk.gamma).val,
    (serializeG2Point c.vk.delta).val] ++
  chainInputs sha256 (consInput sha256 "risc0_groth16.VerifyingKey.IC") zeroDigest
    (c.vk.ic.map (hashG1Point sha256)) ++
  c.vk.ic.map fun p => (serializeG1Point p).val

theorem low_le : 16 + 16 ≤ 32 := by decide

theorem high_le : 0 + 16 ≤ 32 := by decide

/-- The files that follow from the contents. -/
def generated (sha256 : Bytes → BytesN 32) (c : Contents A) : Generated where
  selector := firstFour (c.digest sha256)
  versionCode := quoted c.version
  controlRoot0 := Groth16Verifier.reversedHalf c.controlRoot 16 low_le
  controlRoot1 := Groth16Verifier.reversedHalf c.controlRoot 0 high_le
  bn254ControlId := c.bn254ControlId
  verificationKey := verificationKeyBytes c.vk c.length_ic

/-- The constants that follow from the contents, with the version as it is in the file. -/
def constants (sha256 : Bytes → BytesN 32) (c : Contents A) : Groth16Verifier :=
  (c.generated sha256).constants c.version

end Contents

theorem computeVkDigest_eq (c : Contents A) :
    computeVkDigest sha256 c.vk = some (sha256 (c.vkInput sha256)) := by
  simp only [computeVkDigest, taggedIter_eq, Option.bind_eq_bind, Option.bind_some]
  exact taggedStruct_eq_some.mpr ⟨by simp, rfl⟩

theorem decodeDigest_eq_some {s : String} {d : BytesN 32} :
    decodeDigest s = some d ↔ hexDecode (asBytes s) = some d.val := by
  simp only [decodeDigest, Option.bind_eq_some_iff, BytesN.ofBytes_eq_some]
  constructor
  · rintro ⟨b, hb, rfl⟩
    exact hb
  · intro h
    exact ⟨_, h, rfl⟩

theorem parametersDigest_eq {root id : String} {r i vkDigest : BytesN 32}
    (hr : decodeDigest root = some r) (hi : decodeDigest id = some i) :
    parametersDigest sha256 root id vkDigest =
      some (sha256 (taggedInput sha256 "risc0.Groth16ReceiptVerifierParameters"
        [r, reverseDigest i, vkDigest])) := by
  simp only [parametersDigest, hr, hi, Option.bind_eq_bind, Option.bind_some]
  exact taggedStruct_eq_some.mpr ⟨by simp, rfl⟩

/-- On 32 bytes neither slice of `compute_control_roots` panics. -/
theorem computeControlRoots_eq {root : String} {r : BytesN 32} (hr : decodeDigest root = some r) :
    computeControlRoots root =
      some (Groth16Verifier.reversedHalf r 16 (by decide), Groth16Verifier.reversedHalf r 0 (by decide)) := by
  have h₁ : BytesN.ofBytes 16 (slice r.val.reverse 16 16) =
      some (Groth16Verifier.reversedHalf r 16 (by decide)) := BytesN.ofBytes_eq_some.mpr rfl
  have h₀ : BytesN.ofBytes 16 (slice r.val.reverse 0 16) =
      some (Groth16Verifier.reversedHalf r 0 (by decide)) := BytesN.ofBytes_eq_some.mpr rfl
  simp only [computeControlRoots, decodeDigest_eq_some.mp hr, Option.bind_eq_bind, Option.bind_some,
    h₁, h₀, Option.pure_def]

theorem contents_eq_some {params : VerifierParameters} {c : Contents A} :
    params.contents A = some c ↔ params.verificationKey.toVerificationKey A = some c.vk ∧
      decodeDigest params.controlRoot = some c.controlRoot ∧
      decodeDigest params.bn254ControlId = some c.bn254ControlId ∧ params.version = c.version := by
  simp only [VerifierParameters.contents, Option.bind_eq_bind, Option.bind_eq_some_iff]
  constructor
  · rintro ⟨vk, hvk, r, hr, i, hi, h⟩
    split at h
    · cases h
      exact ⟨hvk, hr, hi, rfl⟩
    · cases h
  · rintro ⟨hvk, hr, hi, hversion⟩
    refine ⟨_, hvk, _, hr, _, hi, ?_⟩
    rw [dif_pos c.length_ic, hversion]

/-- The build succeeds on the files whose contents can be read. -/
theorem main_eq (params : VerifierParameters) :
    main A sha256 params = (params.contents A).map (Contents.generated sha256) := by
  cases hc : params.contents A with
  | some c =>
      obtain ⟨hvk, hr, hi, hversion⟩ := contents_eq_some.mp hc
      simp only [main, hvk, hi, hversion, Option.bind_eq_bind, Option.bind_some, dif_pos c.length_ic,
        computeVkDigest_eq, computeSelector, parametersDigest_eq hr hi, computeControlRoots_eq hr,
        Option.map_some, Option.pure_def]
      rfl
  | none =>
      rw [Option.map_none, Option.eq_none_iff_forall_ne_some]
      intro v hv
      simp only [main, Option.bind_eq_bind, Option.bind_eq_some_iff] at hv
      obtain ⟨vk, hvk, hv⟩ := hv
      split at hv
      · rename_i hlen
        simp only [computeSelector, parametersDigest, Option.bind_eq_bind, Option.bind_eq_some_iff,
          Option.map_eq_some_iff] at hv
        obtain ⟨-, -, -, ⟨-, ⟨r, hr, -⟩, -⟩, -, -, i, hi, -⟩ := hv
        cases hc.symm.trans (contents_eq_some (c := ⟨_, r, i, vk, hlen⟩).mpr ⟨hvk, hr, hi, rfl⟩)
      · cases hv

/-- The contract has the version of the file when this is plain. -/
theorem contract_eq (R : Compiler) {params : VerifierParameters}
    (hversion : plain params.version = true) :
    contract A R sha256 params = (params.contents A).map (Contents.constants sha256) := by
  unfold contract
  rw [main_eq]
  cases hc : params.contents A with
  | none => rfl
  | some c =>
      have hversion' := (contents_eq_some.mp hc).2.2.2
      rw [hversion'] at hversion
      simp only [Option.map_some, Option.bind_eq_bind, Option.bind_some, Contents.generated,
        R.strConst_quoted hversion, Option.pure_def]
      rfl

theorem digest_eq {params : VerifierParameters} {c : Contents A} (hc : params.contents A = some c) :
    params.digest A sha256 = some (c.digest sha256) := by
  obtain ⟨hvk, hr, hi, -⟩ := contents_eq_some.mp hc
  simp only [VerifierParameters.digest, hvk, Option.bind_eq_bind, Option.bind_some, computeVkDigest_eq,
    parametersDigest_eq hr hi]
  rfl

/-! ## What the digest binds -/

namespace Contents
variable {c c' : Contents A}

/-- The same parameters, whatever the version. -/
structure Same (c c' : Contents A) : Prop where
  controlRoot : c.controlRoot = c'.controlRoot
  bn254ControlId : c.bn254ControlId = c'.bn254ControlId
  vk : c.vk = c'.vk

theorem reverseDigest_inj {d d' : BytesN 32} : reverseDigest d = reverseDigest d' ↔ d = d' := by
  simp only [reverseDigest, List.reverse_inj, BytesN.ext_iff]

/-- Hashed strings of points tell the points apart. -/
theorem ic_inj {l l' : List (G1Affine A)} {S : Set Bytes} (hcol : Set.InjOn sha256 S)
    (hS : ∀ p ∈ l, (serializeG1Point p).val ∈ S) (hS' : ∀ p ∈ l', (serializeG1Point p).val ∈ S)
    (h : l.map (hashG1Point sha256) = l'.map (hashG1Point sha256)) : l = l' := by
  induction l generalizing l' with
  | nil => exact (List.map_eq_nil_iff.mp h.symm).symm
  | cons p l ih =>
      cases l' with
      | nil => cases h
      | cons p' l' =>
          obtain ⟨hp, hrest⟩ := List.cons.inj h
          rw [hashG1Point_eq, hashG1Point_eq] at hp
          have hval := hcol (hS p List.mem_cons_self) (hS' p' List.mem_cons_self) hp
          rw [serializeG1Point_inj.mp (BytesN.ext hval),
            ih (fun q hq => hS q (List.mem_cons_of_mem _ hq))
              (fun q hq => hS' q (List.mem_cons_of_mem _ hq)) hrest]

/-- The strings hashed for the digest, one by one. -/
theorem hashed_mem {S : Set Bytes} (hS : ∀ x ∈ c.hashed sha256, x ∈ S) :
    c.input sha256 ∈ S ∧ c.vkInput sha256 ∈ S ∧ (serializeG1Point c.vk.alpha).val ∈ S ∧
      (serializeG2Point c.vk.beta).val ∈ S ∧ (serializeG2Point c.vk.gamma).val ∈ S ∧
      (serializeG2Point c.vk.delta).val ∈ S ∧
      (∀ x ∈ chainInputs sha256 (consInput sha256 "risc0_groth16.VerifyingKey.IC") zeroDigest
        (c.vk.ic.map (hashG1Point sha256)), x ∈ S) ∧
      ∀ p ∈ c.vk.ic, (serializeG1Point p).val ∈ S := by
  simp only [hashed, List.forall_mem_append, List.forall_mem_cons, List.forall_mem_map] at hS
  obtain ⟨⟨⟨hin, hvk, ha, hb, hg, hd, -⟩, hcells⟩, hic⟩ := hS
  exact ⟨hin, hvk, ha, hb, hg, hd, hcells, hic⟩

/-- Equal digests come from the same parameters, where SHA-256 does not collide on what was hashed. -/
theorem same_of_digest {S : Set Bytes} (hcol : Set.InjOn sha256 S) (hS : ∀ x ∈ c.hashed sha256, x ∈ S)
    (hS' : ∀ x ∈ c'.hashed sha256, x ∈ S) (h : c.digest sha256 = c'.digest sha256) : c.Same c' := by
  obtain ⟨hin, hvk, ha, hb, hg, hd, hcells, hic⟩ := hashed_mem hS
  obtain ⟨hin', hvk', ha', hb', hg', hd', hcells', hic'⟩ := hashed_mem hS'
  have hfields := (taggedInput_inj (hcol hin hin' h)).2
  simp only [List.cons.injEq, and_true] at hfields
  obtain ⟨hroot, hid, hkey⟩ := hfields
  have hpoints := (taggedInput_inj (hcol hvk hvk' hkey)).2
  simp only [List.cons.injEq, and_true, hashG1Point_eq, hashG2Point_eq] at hpoints
  obtain ⟨halpha, hbeta, hgamma, hdelta, hlist⟩ := hpoints
  have hchain := chain_inj_of_length (fun _ _ _ _ => consInput_inj) hcol
    (by rw [List.length_map, List.length_map, c.length_ic, c'.length_ic]) hcells hcells' hlist
  exact ⟨hroot, reverseDigest_inj.mp hid, VerificationKey.ext
    (serializeG1Point_inj.mp (BytesN.ext (hcol ha ha' halpha)))
    (serializeG2Point_inj.mp (BytesN.ext (hcol hb hb' hbeta)))
    (serializeG2Point_inj.mp (BytesN.ext (hcol hg hg' hgamma)))
    (serializeG2Point_inj.mp (BytesN.ext (hcol hd hd' hdelta))) (ic_inj hcol hic hic' hchain)⟩

/-- The files show all parameters. -/
theorem same_iff_generated :
    { c.generated sha256 with versionCode := quoted c'.version } = c'.generated sha256 ↔
      c.Same c' := by
  constructor
  · intro h
    simp only [generated, Generated.mk.injEq, verificationKeyBytes,
      Verifier.VerificationKey.mk.injEq, serializeG1Point_inj, serializeG2Point_inj] at h
    obtain ⟨-, -, h₀, h₁, hid, halpha, hbeta, hgamma, hdelta, hic⟩ := h
    have hinj : Function.Injective (serializeG1Point (A := A)) := fun _ _ => serializeG1Point_inj.mp
    exact ⟨Groth16Verifier.reversedHalf_inj h₀ h₁, hid,
      VerificationKey.ext halpha hbeta hgamma hdelta (hinj.list_map hic)⟩
  · intro h
    obtain ⟨version, root, id, vk, hlen⟩ := c
    obtain ⟨version', root', id', vk', hlen'⟩ := c'
    obtain ⟨rfl, rfl, rfl⟩ := h
    rfl

end Contents

/-! ## What the constants mean -/

/-- The number that a digest is in the circuit: its bytes, least significant first. -/
def digestNat (d : BytesN 32) : Nat := beNat d.val.reverse

theorem digestNat_eq (d : BytesN 32) : digestNat d =
    beNat (Groth16Verifier.reversedHalf d 0 (by decide)).val * 2 ^ 128 +
      beNat (Groth16Verifier.reversedHalf d 16 (by decide)).val := by
  have hrev : d.val.reverse = slice d.val.reverse 0 16 ++ slice d.val.reverse 16 16 := by
    rw [slice_append_slice d.val.reverse 0 16 16]
    exact (slice_all (by rw [List.length_reverse, d.length_eq])).symm
  rw [digestNat, hrev, beNat_append, length_slice (by rw [List.length_reverse, d.length_eq])]
  rfl

theorem beNat_half_lt (b : BytesN 16) : beNat b.val < 2 ^ 128 := by
  have := beNat_lt b.val
  rwa [b.length_eq] at this

theorem beNat_reversedHalf_low (d : BytesN 32) :
    beNat (Groth16Verifier.reversedHalf d 16 (by decide)).val = digestNat d % 2 ^ 128 := by
  rw [digestNat_eq, Nat.mul_add_mod_self_right, Nat.mod_eq_of_lt (beNat_half_lt _)]

theorem beNat_reversedHalf_high (d : BytesN 32) :
    beNat (Groth16Verifier.reversedHalf d 0 (by decide)).val = digestNat d / 2 ^ 128 := by
  rw [digestNat_eq, Nat.mul_comm, Nat.mul_add_div (by decide), Nat.div_eq_of_lt (beNat_half_lt _)]
  rfl

/-- The public input of the circuit for a claim. -/
def Contents.signals (c : Contents A) (claim : BytesN 32) : List Nat :=
  [digestNat c.controlRoot % 2 ^ 128, digestNat c.controlRoot / 2 ^ 128,
    digestNat claim % 2 ^ 128, digestNat claim / 2 ^ 128, beNat c.bn254ControlId.val]

section
variable {B : Bn254} {G₁ G₂ Gₜ : Type} [AddCommGroup G₁] [AddCommGroup G₂] [AddCommGroup Gₜ]
  [Module Fr G₁] [Module Fr G₂] [Module Fr Gₜ] [DecidableEq Gₜ] {C : Curve B G₁ G₂ Gₜ}

theorem publicSignals_constants (C : Curve B G₁ G₂ Gₜ) (c : Contents A) (claim : BytesN 32) :
    Groth16Verifier.publicSignals B (c.constants sha256) claim =
      (c.signals claim).map fun n : Nat => (n : Fr) := by
  simp only [Groth16Verifier.publicSignals, Groth16Verifier.splitDigest, Contents.constants,
    Generated.constants, Contents.generated, Contents.signals, C.frFromBytes,
    Groth16Verifier.beNat_padLeft, beNat_reversedHalf_low, beNat_reversedHalf_high, List.map_cons,
    List.map_nil]

/-- The host reads the points that the build accepts from their coordinates, most significant bytes
first and the imaginary parts in front. -/
structure Coordinates (A : Ark) (C : Curve B G₁ G₂ Gₜ) where
  g1 : G1Affine A → G₁
  g2 : G2Affine A → G₂
  encodeG1 : ∀ p, C.encodeG1 (g1 p) = serializeG1Point p
  encodeG2 : ∀ p, C.encodeG2 (g2 p) = serializeG2Point p

namespace Coordinates
variable (K : Coordinates A C) (c : Contents A)

def key : Groth16.Key G₁ G₂ := ⟨K.g1 c.vk.alpha, K.g2 c.vk.beta, K.g2 c.vk.gamma, K.g2 c.vk.delta⟩

/-- The point of the constant term. -/
def ic₀ : G₁ := K.g1 (c.vk.ic.head (List.ne_nil_of_length_pos (c.length_ic ▸ Nat.succ_pos _)))

def ic : List G₁ := c.vk.ic.tail.map K.g1

/-- The key that the contract includes consists of the points of the file. -/
def keyPoints (sha256 : Bytes → BytesN 32) : C.KeyPoints (c.constants sha256).verificationKey where
  key := K.key c
  ic₀ := K.ic₀ c
  ic := K.ic c
  alpha := (K.encodeG1 _).symm
  beta := (K.encodeG2 _).symm
  gamma := (K.encodeG2 _).symm
  delta := (K.encodeG2 _).symm
  ic_eq := by
    have hfun : C.encodeG1 ∘ K.g1 = serializeG1Point := funext K.encodeG1
    rw [ic, ic₀, ← List.map_cons, List.cons_head_tail, List.map_map, hfun]
    rfl

end Coordinates

end

end ZkUnderwrite.Verifier.Build
