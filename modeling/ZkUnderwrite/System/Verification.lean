import ZkUnderwrite.System.Lemmas.Backing

/-!
# What the verifier network guarantees the contract

A request is paid only along a route through the network that has been open all along, and never again
once the route is closed. When the contracts at the end of the routes are genuine, it is backed by a
statement that the guest has checked.
-/

namespace ZkUnderwrite.System
open ByteString Contract Transaction
open Verifier (Net Router Route Passes Accepts Adds Removes Stops)

variable {τ O : Type} {I : Installation τ O}

/-! ## A sample installation

The sample deployment above the sample network, with the hashes of the one claim that is proved. -/

namespace StackSample
open Contract.Sample Sample
open Verifier.Sample (chain setUp estop selector groth16)

def outputDigest : BytesN 32 := .ofNat 32
  0x4c32455c26e9f0b4eec59bd1222a37a7b955514749fb60ea9aad4ecc3e64ffaf
def claimDigestA : BytesN 32 := .ofNat 32
  0xda278360f5a262d9d121a7dfda32bba81ea6421840a2a18186edef32a163d1ee

def image : BytesN 32 := .replicate 32 1

def outputInput : Bytes := (⟨digestA, Verifier.zeroDigest⟩ : Verifier.Output).preimage

def claimInput : Bytes :=
  (Verifier.ReceiptClaim.new (fun _ => outputDigest) image digestA).preimage

def sha256 (b : Bytes) : BytesN 32 :=
  if b = outputInput then outputDigest
  else if b = claimInput then claimDigestA
  else Sample.sha256 b

def installation : Installation Ledger Verifier.Sample.Ownership where
  platform := .ofLedger contract sha256
  crates := { deployment.crates with sha256 := sha256 }
  sha256_eq := rfl
  chain := chain sha256 fun _ => Verifier.zeroDigest
  chain_sha256 := rfl

theorem accepts_keyA :
    Guest.Accepts installation.crates (inputOf keyA signatureA) keyA signatureA statement :=
  { Sample.accepts_keyA with }

theorem main_keyA :
    Guest.main installation.crates (inputOf keyA signatureA) = .ok (journalOf hashA).val :=
  Guest.main_eq_ok.mpr ⟨_, _, _, accepts_keyA, by decide +kernel⟩

def sealA : Bytes := selector.val ++ List.replicate 256 0

def silent : Verifier.Client := fun _ _ => .error .missing

def credit (a : Address) (c : Call) : Act Ledger := .credit (· = a) silent c

def request : Act Ledger := credit borrower (.requestCredit borrower sealA (journalOf hashA).val)

/-- The network is set up, one issuer signs and is registered, and a proof of the statement is made. -/
def prepared : List (Act Ledger) :=
  setUp.map .verifier ++
    [.sign keyA statementBytes, .prove (inputOf keyA signatureA),
      credit admin (.init admin router image usdc 4000 500), credit admin (.registerIssuer hashA)]

end StackSample

/-! ## Open routes -/

/-- The contract at `a` passes on the seal, and `ts` shows why it can: a router whose owner has added the
next contract under the seal's selector and has never removed it, or an emergency stop that nobody has
stopped. -/
inductive Open (net : Net O) (ts : List (Verifier.Turn O)) (sl : Bytes) (a : Address) : Prop
  | router (r : Router O) (here : net a = some (.router r)) (selector : BytesN 4) (v : Address)
      (selects : Router.selectorFromSeal sl = .ok selector) (added : ∃ u ∈ ts, Adds a selector v u)
      (kept : ∀ u ∈ ts, ¬ Removes a selector u) : Open net ts sl a
  | emergencyStop (e : Verifier.EmergencyStop O) (here : net a = some (.emergencyStop e))
      (running : ∀ u ∈ ts, ¬ Stops a u) : Open net ts sl a

theorem open_of_passes {P : Verifier.Chain O} {is : List Verifier.Input} {q : Verifier.Query}
    {a b : Address} (h : Passes (Verifier.run P is) q a b) :
    Open (Verifier.run P is) (Verifier.history P is) q.sealBytes a := by
  unfold Passes at h
  split at h
  · rename_i r hr
    obtain ⟨s, hs, hv⟩ := h
    have hlife := Verifier.lifecycle_run (P := P) is a s
    rw [Verifier.entry_of_router hr, hv] at hlife
    cases hlife with
    | active _ hadd _ hrem => exact .router r hr s b hs hadd hrem
  · rename_i e he
    refine .emergencyStop e he fun u hu hstop => ?_
    obtain ⟨e', he', hp⟩ := (Verifier.stopped_run is a).mpr ⟨u, hu, hstop⟩
    cases he.symm.trans he'
    exact absurd hp (by rw [h.1]; nofun)
  · exact h.elim

theorem open_of_route {P : Verifier.Chain O} {is : List Verifier.Input} {q : Verifier.Query}
    {a c : Address} {path : List Address} (h : Route (Passes (Verifier.run P is) q) a path c) :
    ∀ x ∈ path, Open (Verifier.run P is) (Verifier.history P is) q.sealBytes x := by
  induction h with
  | nil a => exact fun x hx => nomatch hx
  | cons hpass _ ih =>
      intro x hx
      rcases List.mem_cons.mp hx with rfl | hx
      · exact open_of_passes hpass
      · exact ih x hx

/-- How the proof of a paid request came through the network. -/
structure Delivered (I : Installation τ O) (t₀ : τ) (acts : List (Act τ)) (foreign : Verifier.Client)
    (p : Policy) (sl j : Bytes) (path : List Address) (c : Address) : Prop where
  configured : Configured (I.run t₀ acts).sys.world p
  route : Route (Passes (I.run t₀ acts).net (.verify sl p.imageId (I.platform.sha256 j)))
    p.router path c
  accepts : Accepts I.chain foreign (I.run t₀ acts).net
    (.verify sl p.imageId (I.platform.sha256 j)) c
  once : (I.platform.currentContractAddress :: path ++ [c]).Nodup
  depth : path.length < I.chain.depthLimit
  opened : ∀ a ∈ path,
    Open (I.run t₀ acts).net (Verifier.history I.chain (I.inputs t₀ acts)) sl a

/-- In every run a request is paid only when a route, which visits no contract twice and has been open
ever since its contracts were set up, leads its proof from the router that the contract stores to a contract
that accepts it. -/
theorem paid_along_open_route (t₀ : τ) (acts : List (Act τ)) (act : Act τ) (b : Address) (sl j : Bytes)
    (h : paid (Machine.turn I.step (I.run t₀ acts) act) = some (b, sl, j)) :
    ∃ p authorized foreign path c, act = .credit authorized foreign (.requestCredit b sl j) ∧
      Delivered I t₀ acts foreign p sl j path c := by
  obtain ⟨p, authorized, foreign, rfl, hp, hq⟩ := verified_of_paid (wellFormed_stack t₀ acts) h
  obtain ⟨path, c, hroute, hacc, hlen, hnodup, hself⟩ := Verifier.query_eq_ok.mp hq
  refine ⟨p, authorized, foreign, path, c, rfl, hp, hroute, hacc, ?_, hlen, ?_⟩
  · refine List.nodup_cons.mpr ⟨fun hmem => ?_, hnodup⟩
    exact hself _ hmem (List.mem_singleton.mpr rfl)
  · rw [net_run] at hroute ⊢
    exact open_of_route hroute

theorem paid_along_open_route_sample :
    ∃ p authorized foreign path c, StackSample.request =
        .credit authorized foreign (.requestCredit Contract.Sample.borrower StackSample.sealA
          (Sample.journalOf Sample.hashA).val) ∧
      Delivered StackSample.installation Contract.Sample.ledger StackSample.prepared foreign p
        StackSample.sealA (Sample.journalOf Sample.hashA).val path c :=
  paid_along_open_route _ _ StackSample.request _ _ _ (by decide +kernel)

/-! ## Closed routes -/

/-- The router at `a` leads the selector nowhere: its owner has removed it, or the emergency stop that it
leads to has been stopped. -/
inductive Closed (net : Net O) (ts : List (Verifier.Turn O)) (a : Address) (selector : BytesN 4) : Prop
  | removed (h : ∃ u ∈ ts, Removes a selector u)
  | stopped (v : Address) (leads : net.entry a selector = some (.active v))
      (h : ∃ u ∈ ts, Stops v u)

/-- No route for a seal with the selector leads through the router. -/
def Net.Blocks (net : Net O) (a : Address) (selector : BytesN 4) : Prop :=
  net.entry a selector = some .tombstone ∨
    ∃ v, net.entry a selector = some (.active v) ∧ net.stopped v

theorem Closed.blocks {P : Verifier.Chain O} {is : List Verifier.Input} {a : Address}
    {selector : BytesN 4}
    (h : Closed (Verifier.run P is) (Verifier.history P is) a selector) :
    Net.Blocks (Verifier.run P is) a selector := by
  cases h with
  | removed h =>
      obtain ⟨u, hu, hrem⟩ := h
      have hlife := Verifier.lifecycle_run (P := P) is a selector
      generalize he : (Verifier.run P is).entry a selector = e at hlife
      cases hlife with
      | unset _ hno | active _ _ _ hno => exact absurd hrem (hno u hu)
      | removed _ => exact .inl he
  | stopped v hv h => exact .inr ⟨v, hv, (Verifier.stopped_run is v).mpr h⟩

theorem Net.Blocks.mono {net net' : Net O} {a : Address} {selector : BytesN 4}
    (h : Net.Blocks net a selector) (hb : net.Becomes net') : Net.Blocks net' a selector := by
  rcases h with ht | ⟨v, hv, hs⟩
  · obtain ⟨e, he, rfl | rfl⟩ := hb.entry a selector _ ht <;> exact .inl he
  · obtain ⟨e, he, rfl | rfl⟩ := hb.entry a selector _ hv
    · exact .inr ⟨v, he, hb.stopped hs⟩
    · exact .inl he

theorem Net.Blocks.query {P : Verifier.Chain O} {net : Net O} {foreign : Verifier.Client} {depth : Nat}
    {stack : List Address} {q : Verifier.Query} {a : Address} {selector : BytesN 4}
    (h : Net.Blocks net a selector) (hs : Router.selectorFromSeal q.sealBytes = .ok selector) :
    P.query foreign net depth stack a q ≠ .ok () := by
  intro hok
  obtain ⟨path, c, hroute, hacc, -⟩ := Verifier.query_eq_ok.mp hok
  obtain ⟨r, hr⟩ : ∃ r, net a = some (.router r) := by
    unfold Net.Blocks Net.entry at h
    split at h
    · rename_i r hr
      exact ⟨r, hr⟩
    · rcases h with h | ⟨v, h, -⟩ <;> cases h
  cases hroute with
  | nil => exact Verifier.not_accepts_router hr hacc
  | cons hpass hrest =>
      obtain ⟨s, hs', hv⟩ := (Verifier.passes_router hr).mp hpass
      cases hs.symm.trans hs'
      rw [← Verifier.entry_of_router hr] at hv
      rcases h with ht | ⟨v, hv', e, he, hp⟩
      · cases ht.symm.trans hv
      · cases hv.symm.trans hv'
        cases hrest with
        | nil => exact Verifier.not_accepts_emergencyStop he hacc
        | cons hpass _ => cases hp.symm.trans ((Verifier.passes_emergencyStop he).mp hpass).1

/-- Once the owner of the contract's router has removed a selector, or the emergency stop that it leads to
has been stopped, no request whose seal has this selector is ever paid again. -/
theorem closed_route_pays_nothing (t₀ : τ) (acts acts' : List (Act τ)) (a : Address)
    (selector : BytesN 4)
    (h : Closed (I.run t₀ acts).net (Verifier.history I.chain (I.inputs t₀ acts)) a selector) :
    ∀ t ∈ Machine.turns I.step (I.run t₀ acts) acts', ∀ b sl j p, paid t = some (b, sl, j) →
      Configured t.before.sys.world p → p.router = a →
      Router.selectorFromSeal sl ≠ .ok selector := by
  rw [net_run] at h
  refine Machine.turns_forall
    (I := fun s : Stack τ O => WellFormed s.sys.world ∧ Net.Blocks s.net a selector)
    (fun s act hs => ⟨wellFormed_step hs.1 act, ?_⟩) (fun s act hs => ?_)
    ⟨wellFormed_stack t₀ acts, net_run (I := I) t₀ acts ▸ h.blocks⟩ acts'
  · have hview := projects_net (I := I) s act
    dsimp only at hview
    rw [hview]
    exact hs.2.mono (Verifier.run_becomes s.net _)
  · intro b sl j p hpaid hp ha hsel
    obtain ⟨p', authorized, foreign, rfl, hp', hq⟩ := verified_of_paid hs.1 hpaid
    cases hp.unique hp'
    rw [ha] at hq
    exact hs.2.query (q := .verify sl p.imageId (I.platform.sha256 j)) hsel hq

theorem closed_route_pays_nothing_sample :
    (StackSample.installation.run Contract.Sample.ledger
      (StackSample.prepared ++ [.verifier Verifier.Sample.estop])).net.stopped Verifier.Sample.stop ∧
    ∀ t ∈ Machine.turns StackSample.installation.step (StackSample.installation.run
        Contract.Sample.ledger (StackSample.prepared ++ [.verifier Verifier.Sample.estop]))
        [StackSample.request], ∀ b sl j p, paid t = some (b, sl, j) →
      Configured t.before.sys.world p → p.router = Verifier.Sample.router →
      Router.selectorFromSeal sl ≠ .ok Verifier.Sample.selector := by
  have hstopped : (StackSample.installation.run Contract.Sample.ledger
      (StackSample.prepared ++ [.verifier Verifier.Sample.estop])).net.stopped
      Verifier.Sample.stop := ⟨_, rfl, rfl⟩
  refine ⟨hstopped, closed_route_pays_nothing _ _ _ _ _
    (.stopped Verifier.Sample.stop (by decide +kernel) ?_)⟩
  rw [net_run] at hstopped
  exact (Verifier.stopped_run _ _).mp hstopped

/-! ## Soundness through the network -/

/-- What the turns `ts` of the whole system guarantee: every paid request is backed by a signed statement,
and no two by statements of the same scope. -/
structure StackSound (I : Installation τ O) (ts : List (StackTurn τ O)) : Prop where
  backed : ∀ t ∈ ts, ∀ b sl j, paid t = some (b, sl, j) →
    ∃ p e pk st, Configured t.before.sys.world p ∧ I.Backs t.before.sys p j e pk st
  paid_once : ts.Pairwise fun t t' => ∀ b sl j p e pk st b' sl' j' p' e' pk' st',
    paid t = some (b, sl, j) → I.Backs t.before.sys p j e pk st →
    paid t' = some (b', sl', j') → I.Backs t'.before.sys p' j' e' pk' st' → st.scope ≠ st'.scope

theorem requested_of_paid {t : StackTurn τ O} (ht : ∃ s act, t = Machine.turn I.step s act)
    {b : Address} {sl j : Bytes} (h : paid t = some (b, sl, j)) :
    ∃ u ∈ Machine.innerTurns I.toDeployment.step Stack.sys (fun s act => (narrowMove I s act).toList) t,
      u.before = t.before.sys ∧ requested u = some (b, j) := by
  obtain ⟨s, act, rfl⟩ := ht
  obtain ⟨authorized, foreign, r, rfl, hr⟩ := paid_eq_some.mp h
  let i := narrow I.platform.sha256 ⟨authorized, I.verify foreign s.net, .requestCredit b sl j⟩
  have hsucc : succeeded (Machine.turn (Contract.step I.platform) s.sys.world (.call i)) = some i := by
    rw [succeeded_turn_call, invoke_narrow, hr]
  exact ⟨_, List.mem_singleton.mpr rfl, rfl,
    requested_eq_some.mpr ⟨_, rfl, Contract.requested_eq_some.mpr ⟨i, sl, hsucc, rfl⟩⟩⟩

theorem journals_inputs {t₀ : τ} {acts : List (Act τ)} {A : Anchors} :
    I.toDeployment.journals (Machine.inputs I.step (fun s act => (narrowMove I s act).toList)
      (Stack.empty t₀) acts) ⊆ I.hashed A acts := by
  have hmem : ∀ {m}, m ∈ Machine.inputs I.step (fun s act => (narrowMove I s act).toList)
      (Stack.empty t₀) acts → ∃ s, ∃ act ∈ acts, narrowMove I s act = some m := by
    intro m hm
    obtain ⟨t, ht, hm⟩ := Machine.exists_of_mem_inputs hm
    exact ⟨t.before, t.input, Machine.input_mem_of_mem_turns ht, Option.mem_toList.mp hm⟩
  rintro j (⟨inp, hm, hj⟩ | ⟨i, b, sl, hm, hc⟩) <;> obtain ⟨s, act, hact, hmove⟩ := hmem hm
  · cases act with
    | prove inp' =>
        cases hmove
        exact .inl (.inl ⟨inp, hact, hj⟩)
    | _ => cases hmove
  · cases act with
    | credit authorized foreign c =>
        cases hmove
        cases (hc : c = _)
        exact .inl (.inr ⟨authorized, foreign, b, sl, hact⟩)
    | _ => cases hmove

/-- Soundness of guest, verifier network and contract together: whoever signs, proves, deploys verifiers
and calls any of the contracts, in any order. -/
theorem end_to_end_through_network (I : Installation τ O) (A : Anchors) (t₀ : τ)
    (acts : List (Act τ)) (hok : Machine.Admissible I.step (I.Trusted A) (Stack.empty t₀) acts)
    (hcol : Set.InjOn I.crates.sha256 (I.hashed A acts)) : StackSound I (I.history t₀ acts) := by
  have htrusted : Machine.Admissible I.toDeployment.step (I.toDeployment.Trusted A.image)
      (Sys.empty t₀) (Machine.inputs I.step (fun s act => (narrowMove I s act).toList)
        (Stack.empty t₀) acts) := by
    refine projects_narrow.admissible (s := Stack.empty t₀) fun t ht u hu => ?_
    cases hm : narrowMove I t.before t.input with
    | none =>
        rw [Machine.innerTurns, hm] at hu
        cases hu
    | some m =>
        rw [Machine.innerTurns, hm] at hu
        cases List.mem_singleton.mp hu
        exact trusted_run hok hcol t ht m hm
  have hcol' := hcol.mono (@journals_inputs _ _ I t₀ acts A)
  have honce : (I.toDeployment.history t₀ (Machine.inputs I.step
      (fun s act => (narrowMove I s act).toList) (Stack.empty t₀) acts)).Pairwise fun t t' =>
        ∀ n, Pays n t → ¬ Pays n t' :=
    List.pairwise_iff_getElem.mpr fun i k hi hk hik n =>
      List.pairwise_iff_getElem.mp (pays_once I.toDeployment t₀ _ n) i k hi hk hik
  have hturn : ∀ t ∈ I.history t₀ acts, ∃ s act, t = Machine.turn I.step s act := by
    intro t ht
    obtain ⟨is, act, -, -, h⟩ := Machine.exists_of_mem_turns ht
    exact ⟨_, act, h⟩
  refine ⟨fun t ht b sl j hp => ?_, ?_⟩
  · obtain ⟨u, hu, hbefore, hreq⟩ := requested_of_paid (hturn t ht) hp
    rw [← hbefore]
    exact backs_run htrusted hcol' u (projects_narrow.mem_turns ht hu) b j hreq
  · refine (projects_narrow.pairwise honce).imp_of_mem fun {t t'} ht ht' h => ?_
    intro b sl j p e pk st b' sl' j' p' e' pk' st' hp hb hp' hb' hscope
    obtain ⟨u, hu, -, hreq⟩ := requested_of_paid (hturn t ht) hp
    obtain ⟨u', hu', -, hreq'⟩ := requested_of_paid (hturn t' ht') hp'
    refine h u hu u' hu' _ ⟨b, j, hreq, slice_of_backs hb⟩ ⟨b', j', hreq', ?_⟩
    rw [hscope]
    exact slice_of_backs hb'

namespace StackSample
open Contract.Sample Sample
open Verifier.Sample (groth16)

def anchors : Anchors := ⟨image, router, {groth16}, ∅⟩

def acts : List (Act Ledger) := prepared ++ [request]

theorem trusted_acts : Machine.Admissible installation.step (installation.Trusted anchors)
    (Stack.empty ledger) acts := by
  have hcredit : ∀ {s : Stack Ledger Verifier.Sample.Ownership} {a : Address} {c : Call},
      installation.ProofSound anchors s c →
      installation.InitWith anchors s ⟨(· = a), installation.verify silent s.net, c⟩ →
      installation.Trusted anchors s (credit a c) := fun hp hi => ⟨hp, hi, fun _ => by rintro ⟨⟩⟩
  intro t ht
  simp only [acts, prepared, Verifier.Sample.setUp, List.map_cons, List.map_nil, List.cons_append,
    List.nil_append, Machine.turns, List.mem_cons, List.not_mem_nil, or_false] at ht
  rcases ht with rfl | rfl | rfl | rfl | rfl | rfl | rfl | rfl | rfl
  · rintro ⟨⟩
  · rintro ⟨⟩
  · exact fun _ => ⟨_, rfl⟩
  · rintro selector v - ⟨⟩ -
    exact .emergencyStop rfl rfl (.verifier rfl rfl)
  · trivial
  · intro pk sig hpk _ _
    cases BytesN.ext hpk
    exact List.mem_cons_self
  · refine hcredit (by rintro _ _ _ ⟨⟩) ?_
    rintro _ _ _ _ _ _ _ _ ⟨⟩ -
    exact ⟨rfl, rfl⟩
  · exact hcredit (by rintro _ _ _ ⟨⟩) (by rintro _ _ _ _ _ _ _ _ ⟨⟩)
  · refine hcredit ?_ (by rintro _ _ _ _ _ _ _ _ ⟨⟩)
    rintro _ _ _ ⟨⟩ _ _ _
    refine .inl ⟨⟨inputOf keyA signatureA, (journalOf hashA).val⟩, ?_, rfl⟩
    simp [Machine.turn, Installation.step, Installation.move, Deployment.step, credit, main_keyA]

theorem journals_acts : ∀ j ∈ installation.journals acts, j = (journalOf hashA).val := by
  rintro j (⟨inp, hm, hj⟩ | ⟨authorized, foreign, b, sl, hm⟩)
  all_goals
    simp only [acts, prepared, request, credit, Verifier.Sample.setUp, List.map_cons, List.map_nil,
      List.cons_append, List.nil_append, List.mem_cons, List.not_mem_nil, or_false, reduceCtorEq,
      false_or, Act.prove.injEq, Act.credit.injEq, Call.requestCredit.injEq, and_false] at hm
  · cases hm
    exact (Except.ok.inj (main_keyA.symm.trans hj)).symm
  · exact hm.2.2.2.2

theorem injOn_hashed : Set.InjOn sha256 (installation.hashed anchors acts) := by
  have hclaim : Verifier.claimInputs sha256 image (sha256 (journalOf hashA).val) =
      [outputInput, claimInput] := by decide +kernel
  have hmem : ∀ x ∈ installation.hashed anchors acts,
      x ∈ [(journalOf hashA).val, outputInput, claimInput] := by
    rintro x (hx | ⟨j, hj, hx⟩ | ⟨r, hr, -⟩)
    · cases journals_acts x hx
      exact List.mem_cons_self
    · cases journals_acts j hj
      exact List.mem_cons_of_mem _ (hclaim ▸ hx)
    · cases hr
  have hne : ([(journalOf hashA).val, outputInput, claimInput].map sha256).Nodup := by decide +kernel
  exact fun x hx y hy h => List.inj_on_of_nodup_map hne (hmem x hx) (hmem y hy) h

end StackSample

theorem end_to_end_through_network_sample :
    (StackSample.installation.history Contract.Sample.ledger StackSample.acts).filterMap paid =
        [(Contract.Sample.borrower, StackSample.sealA, (Sample.journalOf Sample.hashA).val)] ∧
      StackSound StackSample.installation
        (StackSample.installation.history Contract.Sample.ledger StackSample.acts) :=
  ⟨by decide +kernel, end_to_end_through_network _ _ _ _ StackSample.trusted_acts
    StackSample.injOn_hashed⟩

end ZkUnderwrite.System
