import ZkUnderwrite.System.Anchors
import ZkUnderwrite.System.Lemmas.Stack
import ZkUnderwrite.System.Theorems

/-!
# The router of the verifier network is sound

An invariant of the whole system's runs: the router leads to genuine verifiers only. With it the verdict
of the network on the proof of a request is one that the contract can rely on.
-/

namespace ZkUnderwrite.System
open ByteString Contract Transaction
open Verifier (Groth16Verifier Net Router Route Passes Accepts)

variable {τ O : Type} {I : Installation τ O} {A : Anchors} {s : Stack τ O} {act : Act τ}

/-! ## The one verdict that a call asks for -/

/-- The same call, with no verdict but the one on the proof that it submits. -/
def narrow (sha256 : Bytes → BytesN 32) (i : Invocation) : Invocation :=
  { i with verify := fun r sl m d =>
      match i.call with
      | .requestCredit _ sl' j => i.verify r sl m d && decide (sl = sl' ∧ d = sha256 j)
      | _ => false }

theorem invoke_narrow (P : Platform τ) (i : Invocation) (w : World τ) :
    Contract.invoke P (narrow P.sha256 i) w = Contract.invoke P i w := by
  obtain ⟨authorized, verify, c⟩ := i
  cases c with
  | requestCredit b sl j =>
      let i : Invocation := ⟨authorized, verify, .requestCredit b sl j⟩
      have hverify : ∀ router m,
          (((narrow P.sha256 i).env P).routerVerify router sl m (P.sha256 j) : Contract.Host τ Unit) =
            (i.env P).routerVerify router sl m (P.sha256 j) := by
        intro router m
        simp only [i, Env.routerVerify, Invocation.env, narrow, and_self, decide_true, Bool.and_true]
        rfl
      have hsha : ∀ i : Invocation, (i.env P).sha256 = P.sha256 := fun _ => rfl
      have hreq : requestCredit ((narrow P.sha256 i).env P) b sl j = requestCredit (i.env P) b sl j := by
        unfold requestCredit
        simp only [hsha, hverify]
        rfl
      exact congrArg (fun m : Contract.Host τ Int => atomically (do return Ret.amount (← m)) w) hreq
  | _ => rfl

def narrowMove (I : Installation τ O) (s : Stack τ O) (act : Act τ) : Option (Move τ) :=
  (I.move s act).map fun
    | .contract (.call i) => .contract (.call (narrow I.platform.sha256 i))
    | m => m

theorem step_narrowMove {m : Move τ} (h : I.move s act = some m) :
    ∃ m', narrowMove I s act = some m' ∧
      I.toDeployment.step s.sys m' = I.toDeployment.step s.sys m := by
  unfold narrowMove
  rw [h, Option.map_some]
  refine ⟨_, rfl, ?_⟩
  cases m with
  | contract x =>
      cases x with
      | token t => rfl
      | call i =>
          dsimp only [Deployment.step, Contract.step]
          rw [invoke_narrow]
  | _ => rfl

theorem narrowMove_none (h : I.move s act = none) : narrowMove I s act = none := by
  unfold narrowMove
  rw [h]
  rfl

theorem projects_narrow :
    Machine.Projects I.step I.toDeployment.step Stack.sys fun s act =>
      (narrowMove I s act).toList := by
  intro s act
  have h := projects_sys (I := I) s act
  dsimp only at h ⊢
  rw [h]
  cases hm : I.move s act with
  | none => rw [narrowMove_none hm]
  | some m =>
      obtain ⟨m', hm', hstep⟩ := step_narrowMove hm
      rw [hm']
      exact congrArg Prod.snd hstep.symm

/-! ## Genuine verifiers -/

theorem Leads.mono {V : Set Groth16Verifier} {net net' : Net O} {a : Address}
    (h : Leads V net a) (hb : net.Becomes net') : Leads V net' a := by
  induction h with
  | verifier here genuine =>
      obtain ⟨i, hi, hb⟩ := hb _ _ here
      cases i with
      | groth16 v => exact .verifier (hi.trans (congrArg (some ∘ Verifier.Instance.groth16) hb)) genuine
      | _ => exact hb.elim
  | emergencyStop here wraps _ ih =>
      obtain ⟨i, hi, hb⟩ := hb _ _ here
      cases i with
      | emergencyStop e => exact .emergencyStop hi (hb.1.trans wraps) ih
      | _ => exact hb.elim

theorem Leads.accepts {V : Set Groth16Verifier} {P : Verifier.Chain O} {foreign : Verifier.Client}
    {net : Net O} {q : Verifier.Query} {a c : Address} {path : List Address} (h : Leads V net a)
    (hroute : Route (Passes net q) a path c) (hacc : Accepts P foreign net q c) :
    ∃ v ∈ V, v.answer P.bn254 P.sha256 q = .ok () := by
  induction h generalizing path with
  | @verifier a v here genuine =>
      cases hroute with
      | nil =>
          unfold Accepts at hacc
          rw [here] at hacc
          exact ⟨v, genuine, hacc⟩
      | cons hpass _ =>
          unfold Passes at hpass
          rw [here] at hpass
          exact hpass.elim
  | emergencyStop here wraps _ ih =>
      cases hroute with
      | nil => exact absurd hacc (Verifier.not_accepts_emergencyStop here)
      | cons hpass hrest =>
          cases wraps.symm.trans ((Verifier.passes_emergencyStop here).mp hpass).2
          exact ih hrest

/-- The address of the router is free, or holds a router that leads to genuine verifiers only. -/
def Rooted (A : Anchors) (net : Net O) : Prop :=
  net A.router = none ∨ ∃ r, net A.router = some (.router r) ∧
    ∀ selector v, r.verifiers selector = some (.active v) → Leads A.verifiers net v

theorem Rooted.accepts {P : Verifier.Chain O} {foreign : Verifier.Client} {net : Net O}
    {q : Verifier.Query} {depth : Nat} {stack : List Address} (h : Rooted A net)
    (hforeign : foreign A.router q ≠ .ok ())
    (hq : P.query foreign net depth stack A.router q = .ok ()) :
    ∃ v ∈ A.verifiers, v.answer P.bn254 P.sha256 q = .ok () := by
  obtain ⟨path, c, hroute, hacc, -⟩ := Verifier.query_eq_ok.mp hq
  rcases h with hnone | ⟨r, hr, hleads⟩
  · cases hroute with
    | nil =>
        unfold Accepts at hacc
        rw [hnone] at hacc
        exact absurd hacc hforeign
    | cons hpass _ =>
        unfold Passes at hpass
        rw [hnone] at hpass
        exact hpass.elim
  · cases hroute with
    | nil => exact absurd hacc (Verifier.not_accepts_router hr)
    | cons hpass hrest =>
        obtain ⟨selector, -, hv⟩ := (Verifier.passes_router hr).mp hpass
        exact (hleads selector _ hv).accepts hrest hacc

/-- An input of the network keeps the root when deployments and additions are as trusted. -/
theorem Rooted.step {P : Verifier.Chain O} {net : Net O} (h : Rooted A net) (i : Verifier.Input)
    (hdeploy : ∀ a c, i = .deploy a c → a = A.router → ∃ owner, c = .router owner)
    (hadd : ∀ x selector v, i = .call x A.router (.router (.addVerifier selector v)) →
      (∃ r o, net A.router = some (.router r) ∧ P.library.getOwner r.ownable = some o ∧
        x.authorized o = true) → Leads A.verifiers net v) :
    Rooted A (P.step net i).2 := by
  have hbec := Verifier.step_becomes (P := P) net i
  rcases h with hnone | ⟨r, hr, hleads⟩
  · cases hnet : (P.step net i).2 A.router with
    | none => exact .inl hnet
    | some inst =>
        rcases Verifier.step_cases P net i with hsame | heff
        · rw [hsame, hnone] at hnet
          cases hnet
        · generalize (P.step net i).2 = net' at hnet heff ⊢
          cases heff with
          | deploy a c _ =>
              by_cases ha : A.router = a
              · obtain ⟨owner, rfl⟩ := hdeploy a c rfl ha.symm
                refine .inr ⟨Router.constructor P.library owner, ?_, nofun⟩
                rw [ha]
                exact Function.update_self ..
              · rw [Function.update_of_ne ha, hnone] at hnet
                cases hnet
          | router x a c r r' here _ | emergencyStop x a c r r' here _ =>
              by_cases ha : A.router = a
              · rw [ha, here] at hnone
                cases hnone
              · rw [Function.update_of_ne ha, hnone] at hnet
                cases hnet
  · obtain ⟨inst, hi, hb⟩ := hbec _ _ hr
    cases inst with
    | router r' =>
        refine .inr ⟨r', hi, fun selector v hv => ?_⟩
        have hentry := Verifier.entry_turn P net i A.router selector
        have he := Verifier.entry_of_router (s := selector) hr
        have he' := Verifier.entry_of_router (s := selector) hi
        rcases hentry with ⟨hsame, -⟩ | ⟨hown, ⟨v', hadds, -, -, hnew⟩ | ⟨_, -, -, htomb⟩⟩
        · refine (hleads selector v ?_).mono hbec
          exact he.symm.trans (hsame.symm.trans (he'.trans hv))
        · cases hv.symm.trans (he'.symm.trans hnew)
          obtain ⟨x, _, hx, -⟩ := hadds
          obtain ⟨y, _, r'', o, hy, hr'', ho, hauth⟩ := hown
          cases (hx : i = _)
          cases (hy : _ = Verifier.Input.call y A.router _)
          exact (hadd x selector v rfl ⟨r'', o, hr'', ho, hauth⟩).mono hbec
        · cases hv.symm.trans (he'.symm.trans htomb)
    | _ => exact hb.elim

/-! ## The invariant -/

structure StackInv (I : Installation τ O) (A : Anchors) (J : Set Bytes) (s : Stack τ O) : Prop where
  wellFormed : WellFormed s.sys.world
  router : ∀ p, Configured s.sys.world p → p.router = A.router
  rooted : Rooted A s.net
  executed : ∀ e ∈ s.sys.executions, e.journal ∈ J

def ActIn (I : Installation τ O) (J : Set Bytes) : Act τ → Prop
  | .prove inp => ∀ j, Guest.main I.crates inp = .ok j → j ∈ J
  | .credit _ _ c => ∀ b sl j, c = .requestCredit b sl j → j ∈ J
  | _ => True

theorem actIn_journals {acts : List (Act τ)} (h : act ∈ acts) : ActIn I (I.journals acts) act := by
  cases act with
  | prove inp => exact fun j hj => .inl ⟨inp, h, hj⟩
  | credit authorized foreign c =>
      rintro b sl j rfl
      exact .inr ⟨authorized, foreign, b, sl, h⟩
  | _ => trivial

variable {J : Set Bytes}

theorem StackInv.empty (t : τ) : StackInv I A J (Stack.empty t) where
  wellFormed := wellFormed_empty t
  router _ hp := absurd rfl (not_empty_of_configured hp)
  rooted := .inl rfl
  executed := nofun

/-- The policy that a call leaves names the router when an `init` is as trusted. -/
theorem router_of_invoke {i : Invocation} {w : World τ} (hw : WellFormed w)
    (hrouter : ∀ p, Configured w p → p.router = A.router)
    (hinit : ∀ admin router m usdc threshold amount r w',
      i.call = .init admin router m usdc threshold amount →
      Contract.invoke I.platform i w = (.ok r, w') → m = A.image ∧ router = A.router)
    {p : Policy} (hp : Configured (Contract.invoke I.platform i w).2 p) : p.router = A.router := by
  cases ho : (Contract.invoke I.platform i w).1 with
  | error e =>
      rw [invoke_error ho] at hp
      exact hrouter p hp
  | ok r =>
      have hinv : Contract.invoke I.platform i w = (.ok r, _) := Prod.ext ho rfl
      rcases (Effect.of_invoke hw hinv).configured_before hw hp with hp | ⟨a, hc⟩
      · exact hrouter p hp
      · exact (hinit _ _ _ _ _ _ _ _ hc hinv).2

theorem StackInv.step (h : StackInv I A J s) (hm : I.Trusted A s act) (hJ : ActIn I J act) :
    StackInv I A J (I.step s act).2 := by
  refine ⟨wellFormed_step h.wellFormed act, ?_, ?_, ?_⟩
  · cases act with
    | sign pk m => exact h.router
    | token t => exact fun p hp => h.router p (hp.of_storage rfl)
    | prove inp =>
        change ∀ p, Configured (I.toDeployment.step s.sys (.prove inp)).2.world p → _
        rcases I.toDeployment.step_world s.sys (.prove inp) with hw | ⟨x, hx, -⟩
        · rw [hw]
          exact h.router
        · cases hx
    | credit authorized foreign c =>
        exact fun p hp => router_of_invoke h.wellFormed h.router hm.2.1 hp
    | verifier i =>
        cases hi : I.input (.verifier i) with
        | some i' => rw [step_of_input hi]; exact h.router
        | none => rw [step_of_none rfl hi]; exact h.router
  · cases hi : I.input act with
    | none =>
        cases hmv : I.move s act with
        | some m => rw [step_of_move hmv]; exact h.rooted
        | none => rw [step_of_none hmv hi]; exact h.rooted
    | some i =>
        rw [step_of_input hi]
        cases eq_of_input hi
        refine h.rooted.step i ?_ ?_
        · rintro a c rfl ha
          exact hm ha
        · rintro x selector v rfl hown
          exact hm selector v rfl rfl hown
  · cases act with
    | prove inp =>
        change ∀ e ∈ (I.toDeployment.step s.sys (.prove inp)).2.executions, _
        cases hj : Guest.main I.crates inp with
        | error e => simpa [Deployment.step, hj] using h.executed
        | ok j =>
            intro e he
            simp only [Deployment.step, hj, List.mem_cons] at he
            rcases he with rfl | he
            · exact hJ j hj
            · exact h.executed e he
    | verifier i =>
        cases hi : I.input (.verifier i) with
        | some i' => rw [step_of_input hi]; exact h.executed
        | none => rw [step_of_none rfl hi]; exact h.executed
    | _ => exact h.executed

/-! ## Trust in the router -/

/-- What the network says of a trusted request the contract can rely on. -/
theorem StackInv.trusted {acts : List (Act τ)} (h : StackInv I A (I.journals acts) s)
    (hm : I.Trusted A s act) (hJ : ActIn I (I.journals acts) act)
    (hcol : Set.InjOn I.crates.sha256 (I.hashed A acts)) {m : Move τ}
    (hmove : narrowMove I s act = some m) : I.toDeployment.Trusted A.image s.sys m := by
  cases act with
  | sign pk msg => cases hmove; trivial
  | token t => cases hmove; trivial
  | prove inp => cases hmove; exact hm
  | verifier i => cases hmove
  | credit authorized foreign c =>
      cases hmove
      obtain ⟨hproof, hinit, hforeign⟩ := hm
      refine ⟨?_, ?_⟩
      · intro router sl d hrouter hv
        cases c with
        | requestCredit b sl' j =>
            simp only [narrow, Bool.and_eq_true, decide_eq_true_eq] at hv
            obtain ⟨hv, rfl, rfl⟩ := hv
            obtain ⟨p, hp⟩ : ∃ p, Configured s.sys.world p := by
              rcases h.wellFormed with he | hp
              · unfold World.router at hrouter
                rw [he] at hrouter
                cases hrouter
              · exact hp
            have hr : router = A.router := by
              rw [← h.router p hp]
              exact Option.some.inj (hrouter.symm.trans hp.router)
            subst hr
            obtain ⟨v, hvV, hans⟩ := h.rooted.accepts (hforeign _) (verify_eq_true.mp hv)
            rw [I.sha256_eq] at hans ⊢
            have hj : ∀ j' ∈ I.journals acts, ∀ x ∈ Verifier.claimInputs I.crates.sha256 A.image
                (I.crates.sha256 j'), x ∈ I.hashed A acts := fun j' hj' x hx => .inr (.inl ⟨j', hj', hx⟩)
            rcases hproof b _ j rfl v hvV hans with ⟨e, he, hd⟩ | ⟨r, hr, hne, hd⟩
            · exact ⟨e, he, (Verifier.claimDigest_inj hcol (hj _ (h.executed e he))
                (hj _ (hJ b _ j rfl)) hd).2⟩
            · exact absurd (Verifier.claimDigest_inj hcol (fun x hx => .inr (.inr ⟨r, hr, hx⟩))
                (hj _ (hJ b _ j rfl)) hd).1 hne
        | _ => cases hv
      · intro admin router m usdc threshold amount r w' hc hinv
        rw [invoke_narrow] at hinv
        exact (hinit admin router m usdc threshold amount r w' hc hinv).1

theorem trusted_run {t₀ : τ} {acts : List (Act τ)}
    (hok : Machine.Admissible I.step (I.Trusted A) (Stack.empty t₀) acts)
    (hcol : Set.InjOn I.crates.sha256 (I.hashed A acts)) :
    ∀ t ∈ I.history t₀ acts, ∀ m, narrowMove I t.before t.input = some m →
      I.toDeployment.Trusted A.image t.before.sys m := by
  have hok' : Machine.Admissible I.step (fun s act => I.Trusted A s act ∧ ActIn I (I.journals acts) act)
      (Stack.empty t₀) acts :=
    fun t ht => ⟨hok t ht, actIn_journals (Machine.input_mem_of_mem_turns ht)⟩
  refine (Machine.history_invariant (J := fun ts s => StackInv I A (I.journals acts) s ∧
    ∀ t ∈ ts, ∀ m, narrowMove I t.before t.input = some m →
      I.toDeployment.Trusted A.image t.before.sys m)
    ⟨.empty t₀, nofun⟩ (fun ts s act h hm => ⟨h.1.step hm.1 hm.2, ?_⟩) hok').2
  intro t ht m hmove
  rcases List.mem_append.mp ht with ht | ht
  · exact h.2 t ht m hmove
  · cases List.mem_singleton.mp ht
    exact h.1.trusted hm.1 hm.2 hcol hmove

end ZkUnderwrite.System
