import Mathlib.Algebra.Module.BigOperators
import Mathlib.LinearAlgebra.BilinearMap
import Mathlib.Tactic.Abel

/-!
# The Groth16 equation

A verification key, a proof and the pairing equation that a proof has to satisfy for a public input,
over any commutative ring of scalars and any bilinear pairing. The equation does not determine the
proof: whoever has one proof can write down others for the same input.
-/

namespace Groth16

variable {R G₁ G₂ Gₜ : Type*} [CommRing R] [AddCommGroup G₁] [AddCommGroup G₂] [AddCommGroup Gₜ]
  [Module R G₁] [Module R G₂] [Module R Gₜ]

structure Key (G₁ G₂ : Type*) where
  alpha : G₁
  beta : G₂
  gamma : G₂
  delta : G₂

structure Proof (G₁ G₂ : Type*) where
  a : G₁
  b : G₂
  c : G₁

/-- The public input as a point: the constant term and the weighted points of the key. -/
def input (ic₀ : G₁) (terms : List (R × G₁)) : G₁ :=
  ic₀ + (terms.map fun t => t.1 • t.2).sum

/-- The equation, with the pairings on the side of the verifier's product. -/
def Holds (pair : G₁ →ₗ[R] G₂ →ₗ[R] Gₜ) (k : Key G₁ G₂) (x : G₁) (p : Proof G₁ G₂) : Prop :=
  pair (-p.a) p.b + pair k.alpha k.beta + pair x k.gamma + pair p.c k.delta = 0

instance [DecidableEq Gₜ] (pair : G₁ →ₗ[R] G₂ →ₗ[R] Gₜ) (k : Key G₁ G₂) (x : G₁) (p : Proof G₁ G₂) :
    Decidable (Holds pair k x p) := inferInstanceAs (Decidable (_ = 0))

namespace Proof

/-- Another proof for the same input, one for each unit `u` and scalar `t`. -/
def rerandomize (k : Key G₁ G₂) (u : Rˣ) (t : R) (p : Proof G₁ G₂) : Proof G₁ G₂ where
  a := (u : R) • p.a
  b := ((u⁻¹ : Rˣ) : R) • p.b + t • k.delta
  c := p.c + ((u : R) * t) • p.a

theorem pair_rerandomize (pair : G₁ →ₗ[R] G₂ →ₗ[R] Gₜ) (k : Key G₁ G₂) (u : Rˣ) (t : R)
    (p : Proof G₁ G₂) :
    pair (-(p.rerandomize k u t).a) (p.rerandomize k u t).b =
      pair (-p.a) p.b - pair (((u : R) * t) • p.a) k.delta := by
  have hu : ((u⁻¹ : Rˣ) : R) * (u : R) = 1 := u.inv_mul
  simp only [rerandomize, map_neg, map_add, map_smul, LinearMap.neg_apply, LinearMap.smul_apply,
    smul_neg, smul_smul]
  rw [hu, one_smul, mul_comm t, sub_eq_add_neg]

/-- The equation holds of a proof exactly when it holds of the proofs made from it. -/
theorem holds_rerandomize {pair : G₁ →ₗ[R] G₂ →ₗ[R] Gₜ} {k : Key G₁ G₂} {x : G₁} {u : Rˣ} {t : R}
    {p : Proof G₁ G₂} : Holds pair k x (p.rerandomize k u t) ↔ Holds pair k x p := by
  have hc : pair (p.rerandomize k u t).c k.delta =
      pair p.c k.delta + pair (((u : R) * t) • p.a) k.delta := by
    simp only [rerandomize, map_add, LinearMap.add_apply]
  unfold Holds
  rw [pair_rerandomize, hc]
  constructor
  · intro h
    rw [← h]
    abel
  · intro h
    rw [← h]
    abel

end Proof

end Groth16
