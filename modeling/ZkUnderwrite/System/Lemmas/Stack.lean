import ZkUnderwrite.System.Lemmas.Soundness
import ZkUnderwrite.System.Stack
import ZkUnderwrite.Verifier.Theorems

/-!
# Runs of the whole system

A run of the system is a run of issuers, provers and the contract, and a run of the verifier network. A
request that is paid has had its proof accepted at the end of a route through the network.
-/

namespace ZkUnderwrite.System
open ByteString Contract Transaction

variable {τ O : Type} {I : Installation τ O} {s : Stack τ O} {act : Act τ}

/-! ## The two machines within -/

theorem eq_of_input {i : Verifier.Input} (h : I.input act = some i) : act = .verifier i := by
  cases act with
  | verifier j =>
      cases j with
      | deploy a c =>
          change (if a = I.platform.currentContractAddress then none else some _) = some i at h
          split at h
          · cases h
          · rw [Option.some.inj h]
      | call x a c => rw [Option.some.inj h]
  | _ => cases h

theorem step_of_move {m : Move τ} (h : I.move s act = some m) :
    I.step s act = (.contract (I.toDeployment.step s.sys m).1,
      { s with sys := (I.toDeployment.step s.sys m).2 }) := by
  unfold Installation.step
  rw [h]

theorem step_of_input {i : Verifier.Input} (h : I.input act = some i) :
    I.step s act = (.verifier (I.chain.step s.net i).1, { s with net := (I.chain.step s.net i).2 }) := by
  cases eq_of_input h
  unfold Installation.step
  rw [show I.move s (.verifier i) = none from rfl, h]

theorem step_of_none (hm : I.move s act = none) (hi : I.input act = none) :
    I.step s act = (.verifier (.error .trap), s) := by
  unfold Installation.step
  rw [hm, hi]

theorem projects_sys :
    Machine.Projects I.step I.toDeployment.step Stack.sys fun s act => (I.move s act).toList := by
  intro s act
  dsimp only
  cases hm : I.move s act with
  | some m => rw [step_of_move hm]; rfl
  | none =>
      cases hi : I.input act with
      | some i => rw [step_of_input hi]; rfl
      | none => rw [step_of_none hm hi]; rfl

theorem projects_net :
    Machine.Projects I.step I.chain.step Stack.net fun _ act => (I.input act).toList := by
  intro s act
  dsimp only
  cases hi : I.input act with
  | some i => rw [step_of_input hi]; rfl
  | none =>
      cases hm : I.move s act with
      | some m => rw [step_of_move hm]; rfl
      | none => rw [step_of_none hm hi]; rfl

variable (I) in
/-- What a run asks of the verifier network. -/
def Installation.inputs (t₀ : τ) (acts : List (Act τ)) : List Verifier.Input :=
  Machine.inputs I.step (fun _ act => (I.input act).toList) (Stack.empty t₀) acts

theorem net_run (t₀ : τ) (acts : List (Act τ)) :
    (I.run t₀ acts).net = Verifier.run I.chain (I.inputs t₀ acts) :=
  projects_net.view_final _ _

theorem wellFormed_step (h : WellFormed s.sys.world) (act : Act τ) :
    WellFormed (I.step s act).2.sys.world := by
  have hview := projects_sys (I := I) s act
  dsimp only at hview
  rw [hview]
  cases I.move s act with
  | none => exact h
  | some m =>
      change WellFormed (I.toDeployment.step s.sys m).2.world
      rcases I.toDeployment.step_world s.sys m with hw | ⟨x, -, hw⟩ <;> rw [hw]
      · exact h
      · exact h.step x

theorem wellFormed_stack (t₀ : τ) (acts : List (Act τ)) :
    WellFormed (I.run t₀ acts).sys.world :=
  Machine.invariant (I := fun s : Stack τ O => WellFormed s.sys.world)
    (fun _ act h => wellFormed_step h act) (wellFormed_empty t₀) acts

/-! ## Requests that are paid -/

theorem verify_eq_true {foreign : Verifier.Client} {net : Verifier.Net O} {router : Address}
    {sl : Bytes} {m d : BytesN 32} :
    I.verify foreign net router sl m d = true ↔
      I.chain.query foreign net I.chain.depthLimit [I.platform.currentContractAddress] router
        (.verify sl m d) = .ok () := by
  unfold Installation.verify
  cases I.chain.query foreign net I.chain.depthLimit [I.platform.currentContractAddress] router
    (.verify sl m d) with
  | error e => exact iff_of_false nofun nofun
  | ok u => exact iff_of_true rfl rfl

theorem paid_eq_some {b : Address} {sl j : Bytes} :
    paid (Machine.turn I.step s act) = some (b, sl, j) ↔
      ∃ authorized foreign r, act = .credit authorized foreign (.requestCredit b sl j) ∧
        (Contract.invoke I.platform ⟨authorized, I.verify foreign s.net, .requestCredit b sl j⟩
          s.sys.world).1 = .ok r := by
  unfold paid
  constructor
  · intro h
    split at h
    · rename_i authorized foreign b' sl' j' r hin hout
      cases h
      cases (hin : act = _)
      exact ⟨authorized, foreign, r, rfl, Option.some.inj (Outcome.contract.inj hout)⟩
    · cases h
  · rintro ⟨authorized, foreign, r, rfl, hr⟩
    split
    · rename_i hin _
      cases hin
      rfl
    · rename_i hno
      exact absurd (congrArg (fun o => Outcome.contract (some o)) hr) (hno _ _ _ _ _ r rfl)

/-- A request that is paid has been accepted by the router that the contract stores. -/
theorem verified_of_paid (hw : WellFormed s.sys.world) {b : Address} {sl j : Bytes}
    (h : paid (Machine.turn I.step s act) = some (b, sl, j)) :
    ∃ p authorized foreign, act = .credit authorized foreign (.requestCredit b sl j) ∧
      Configured s.sys.world p ∧
      I.chain.query foreign s.net I.chain.depthLimit [I.platform.currentContractAddress] p.router
        (.verify sl p.imageId (I.platform.sha256 j)) = .ok () := by
  obtain ⟨authorized, foreign, r, rfl, hr⟩ := paid_eq_some.mp h
  have heff := Effect.of_invoke hw (Prod.ext hr rfl)
  obtain ⟨p, -, j', rfl, hp, -, hver, -⟩ := heff.of_request rfl
  exact ⟨p, authorized, foreign, rfl, hp, verify_eq_true.mp hver⟩

end ZkUnderwrite.System
