import Mathlib.Algebra.Algebra.Bilinear
import ZkUnderwrite.Lib.Groth16
import ZkUnderwrite.Verifier.Groth16

/-!
# The curve behind the host functions

What is documented of the host's BN254 functions: they compute on the encodings of the points of two
groups with a bilinear pairing, every point has exactly one encoding, and whatever is not one makes
them fail. The negation is a function of the SDK, which does not look whether its argument is a point:
nothing is assumed of it but that it negates points.
-/

namespace ZkUnderwrite.Verifier
open ByteString Contract

structure Curve (B : Bn254) (G₁ G₂ Gₜ : Type) [AddCommGroup G₁] [AddCommGroup G₂] [AddCommGroup Gₜ]
    [Module Fr G₁] [Module Fr G₂] [Module Fr Gₜ] [DecidableEq Gₜ] where
  g1 : BytesN 64 → Option G₁
  g2 : BytesN 128 → Option G₂
  encodeG1 : G₁ → BytesN 64
  encodeG2 : G₂ → BytesN 128
  pair : G₁ →ₗ[Fr] G₂ →ₗ[Fr] Gₜ
  g1_eq_some : ∀ {b x}, g1 b = some x ↔ b = encodeG1 x
  g2_eq_some : ∀ {b y}, g2 b = some y ↔ b = encodeG2 y
  frFromBytes : ∀ b, B.frFromBytes b = (beNat b.val : Fr)
  g1Neg : ∀ x, B.g1Neg (encodeG1 x) = some (encodeG1 (-x))
  g1Mul : ∀ b s, B.g1Mul b s = (g1 b).map fun x => encodeG1 (s • x)
  g1Add : ∀ b b', B.g1Add b b' = (g1 b).bind fun x => (g1 b').map fun y => encodeG1 (x + y)
  pairingCheck : ∀ ps qs, ps ≠ [] → B.pairingCheck ps qs =
    (ps.mapM g1).bind fun xs => (qs.mapM g2).bind fun ys =>
      if xs.length = ys.length then some (decide ((List.zipWith (fun x y => pair x y) xs ys).sum = 0))
      else none

namespace Curve

section
variable {B : Bn254} {G₁ G₂ Gₜ : Type} [AddCommGroup G₁] [AddCommGroup G₂] [AddCommGroup Gₜ]
  [Module Fr G₁] [Module Fr G₂] [Module Fr Gₜ] [DecidableEq Gₜ] (C : Curve B G₁ G₂ Gₜ)

@[simp] theorem g1_encode (x : G₁) : C.g1 (C.encodeG1 x) = some x := C.g1_eq_some.mpr rfl

@[simp] theorem g2_encode (y : G₂) : C.g2 (C.encodeG2 y) = some y := C.g2_eq_some.mpr rfl

theorem g1Mul_encode (x : G₁) (s : Fr) :
    B.g1Mul (C.encodeG1 x) s = some (C.encodeG1 (s • x)) := by
  rw [C.g1Mul, g1_encode, Option.map_some]

theorem g1Add_encode (x y : G₁) :
    B.g1Add (C.encodeG1 x) (C.encodeG1 y) = some (C.encodeG1 (x + y)) := by
  rw [C.g1Add, g1_encode, g1_encode, Option.bind_some, Option.map_some]

/-- The points that the contract computes with. It gives the host the negation of `A` only, so that this
point is read off the negation. -/
def proof (p : Groth16Proof) : Option (Groth16.Proof G₁ G₂) :=
  ((B.g1Neg p.a).bind C.g1).bind fun negA =>
    (C.g2 p.b).bind fun b => (C.g1 p.c).map fun c => ⟨-negA, b, c⟩

def encodeProof (p : Groth16.Proof G₁ G₂) : Groth16Proof :=
  ⟨C.encodeG1 p.a, C.encodeG2 p.b, C.encodeG1 p.c⟩

theorem proof_eq_some {p : Groth16Proof} {q : Groth16.Proof G₁ G₂} :
    C.proof p = some q ↔ B.g1Neg p.a = some (C.encodeG1 (-q.a)) ∧ p.b = C.encodeG2 q.b ∧
      p.c = C.encodeG1 q.c := by
  simp only [proof, Option.bind_eq_some_iff, Option.map_eq_some_iff, C.g1_eq_some, C.g2_eq_some]
  constructor
  · rintro ⟨negA, ⟨bytes, hneg, rfl⟩, b, hb, c, hc, rfl⟩
    exact ⟨by rw [hneg, neg_neg], hb, hc⟩
  · rintro ⟨hneg, hb, hc⟩
    exact ⟨-q.a, ⟨_, hneg, rfl⟩, q.b, hb, q.c, hc, by rw [neg_neg]⟩

/-- The encoding of three points is read as these. -/
theorem proof_encode (q : Groth16.Proof G₁ G₂) : C.proof (C.encodeProof q) = some q :=
  C.proof_eq_some.mpr ⟨C.g1Neg q.a, rfl, rfl⟩

/-- The points of a verification key, which the build checks to be on the curve. -/
structure KeyPoints (vk : VerificationKey) where
  key : Groth16.Key G₁ G₂
  ic₀ : G₁
  ic : List G₁
  alpha : vk.alpha = C.encodeG1 key.alpha
  beta : vk.beta = C.encodeG2 key.beta
  gamma : vk.gamma = C.encodeG2 key.gamma
  delta : vk.delta = C.encodeG2 key.delta
  ic_eq : vk.ic = (ic₀ :: ic).map C.encodeG1

end

end Curve

/-! ## An instance -/

instance : NeZero bn254Order := ⟨by decide⟩

def scalarBytes (n : Nat) (x : Fr) : BytesN n := BytesN.ofNat n x.val

def scalar {n : Nat} (b : BytesN n) : Option Fr :=
  if b = scalarBytes n (beNat b.val) then some (beNat b.val) else none

theorem scalar_eq_some {n : Nat} (hn : bn254Order ≤ 256 ^ n) {b : BytesN n} {x : Fr} :
    scalar b = some x ↔ b = scalarBytes n x := by
  have hx : (beNat (scalarBytes n x).val : Fr) = x := by
    change ((beNat (beBytes n x.val) : Nat) : Fr) = x
    rw [beNat_beBytes_of_lt (x.val_lt.trans_le hn), ZMod.natCast_zmod_val]
  unfold scalar
  constructor
  · intro h
    split at h
    · rename_i hb
      rw [hb, Option.some.inj h]
    · cases h
  · rintro rfl
    rw [hx, if_pos rfl]

/-- Functions that compute on scalars in place of points: the pairing is their product. -/
def Bn254.scalars : Bn254 where
  frFromBytes b := (beNat b.val : Fr)
  g1Neg b := (scalar b).map fun x => scalarBytes 64 (-x)
  g1Mul b s := (scalar b).map fun x => scalarBytes 64 (s • x)
  g1Add b b' := (scalar b).bind fun x => (scalar b').map fun y => scalarBytes 64 (x + y)
  pairingCheck ps qs :=
    if ps = [] then none
    else (ps.mapM scalar).bind fun xs => (qs.mapM scalar).bind fun ys =>
      if xs.length = ys.length then some (decide ((List.zipWith (fun x y => x * y) xs ys).sum = 0))
      else none

def Curve.scalars : Curve Bn254.scalars Fr Fr Fr where
  g1 := scalar
  g2 := scalar
  encodeG1 := scalarBytes 64
  encodeG2 := scalarBytes 128
  pair := LinearMap.mul Fr Fr
  g1_eq_some := scalar_eq_some (by decide)
  g2_eq_some := scalar_eq_some (by decide)
  frFromBytes _ := rfl
  g1Neg x := by
    have hx : scalar (scalarBytes 64 x) = some x := (scalar_eq_some (by decide)).mpr rfl
    simp only [Bn254.scalars, hx, Option.map_some]
  g1Mul _ _ := rfl
  g1Add _ _ := rfl
  pairingCheck _ _ h := by
    simp only [Bn254.scalars, if_neg h]
    rfl

end ZkUnderwrite.Verifier
