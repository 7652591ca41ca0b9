import ZkUnderwrite.Borrower.Host
import ZkUnderwrite.Contract.Lemmas.Requests
import ZkUnderwrite.System.Verification

/-!
# What becomes of a proof

The way of a proof from the borrower's host program over `proof.txt` and the scripts to the contract. The
request that is made from the file is paid under conditions that can all be read off the statement, the
threshold of the proof and the state of the contracts.
-/

namespace ZkUnderwrite.System
open ByteString Contract Transaction
open Verifier (Net Route Passes Accepts)

variable {τ O : Type} {I : Installation τ O} {s : Stack τ O} {p : Policy}

/-! ## The checks of a request -/

/-- Past its shape a request has four things to pass. -/
theorem checks_passed {P : Platform τ} {w : World τ} (hp : Configured w p) (r : Request)
    (h : r.journal.length = journalLen) :
    firstFailure (r.checks P w) = none ↔ r.authorized r.borrower = true ∧ r.verdict P w = true ∧
      policyError w p (Journal.parse ⟨r.journal, h⟩) = none ∧ (r.transfer P w).isSome = true := by
  obtain ⟨a, ha⟩ := hp.admin
  have hpolicy := policyError_eq_firstFailure hp r h [((r.transfer P w).isSome, Fault.transfer)]
  simp only [Request.checks, firstFailure_cons, ha, show r.journal.length = 81 from h,
    Option.isSome_some, decide_true, if_true] at hpolicy ⊢
  rw [hpolicy]
  cases r.authorized r.borrower <;> cases r.verdict P w <;>
    cases policyError w p (Journal.parse ⟨r.journal, h⟩) <;> simp [Option.isSome_iff_ne_none]

/-- A request of the stack is paid when it passes the contract's checks. -/
theorem paid_iff_checks (hw : WellFormed s.sys.world) (authorized : Address → Bool)
    (foreign : Verifier.Client) (b : Address) (sl j : Bytes) :
    paid (Machine.turn I.step s (.credit authorized foreign (.requestCredit b sl j))) =
        some (b, sl, j) ↔
      firstFailure (Request.checks I.platform s.sys.world
        ⟨b, sl, j, authorized, I.verify foreign s.net⟩) = none := by
  rw [paid_eq_some]
  rcases request_cases (P := I.platform) hw ⟨b, sl, j, authorized, I.verify foreign s.net⟩ with
    ⟨e, he, hinv⟩ | ⟨hnone, p, k, t, c, -, -, -, hinv⟩
  · refine iff_of_false ?_ (by rw [he]; rintro ⟨⟩)
    rintro ⟨authorized', foreign', ret, hact, hr⟩
    cases hact
    cases (congrArg Prod.fst hinv).symm.trans hr
  · exact iff_of_true ⟨_, _, _, rfl, congrArg Prod.fst hinv⟩ hnone

/-! ## The way of a proof -/

/-- What a proof with the threshold `t` of the statement `st`, signed under `pk`, needs to be paid. -/
structure Payable (I : Installation τ O) (s : Stack τ O) (p : Policy) (authorized : Address → Bool)
    (foreign : Verifier.Client) (b : Address) (sl j : Bytes) (pk : BytesN 32) (st : Guest.Statement)
    (t : UInt64) : Prop where
  authorized : authorized b = true
  route : ∃ path c, Route (Passes s.net (.verify sl p.imageId (I.platform.sha256 j))) p.router path c ∧
    Accepts I.chain foreign s.net (.verify sl p.imageId (I.platform.sha256 j)) c ∧
    path.length < I.chain.depthLimit ∧ (path ++ [c]).Nodup ∧
    I.platform.currentContractAddress ∉ path ++ [c]
  registered : s.sys.world.registered (I.crates.sha256 pk.val) = true
  required : p.requiredThreshold ≤ t
  positive : ∀ m ∈ st.monthlyNetIncome, 0 < m
  average : t.toNat ≤ st.exactSum % 2 ^ 64 / st.monthlyNetIncome.length
  fresh : s.sys.world.spent (I.crates.sha256 st.scope.preimage) = false
  funds : (I.platform.transfer p.usdc s.sys.world.token I.platform.currentContractAddress b
    p.creditAmount).isSome = true

/-- What became of the inputs of the host program that wrote `txt`. -/
structure Way (I : Installation τ O) (Z : Borrower.Zkvm) (x : Borrower.Session) (txt : Bytes)
    (inp : Guest.Input) (pk : BytesN 32) (st : Guest.Statement) (sl j : Bytes) : Prop where
  reads : x.Reads inp
  accepts : ∃ sig, Guest.Accepts I.crates inp pk sig st
  journal : j = st.journal I.crates pk inp.threshold
  proved : Z.prove inp j = some sl
  lines : Borrower.Lines txt sl Z.imageId.val (I.crates.sha256 j).val j

theorem way_of_main {Z : Borrower.Zkvm} {x : Borrower.Session} {txt : Bytes} (hZ : Z.crates = I.crates)
    (h : Borrower.main Z x = some (.proof txt)) : ∃ inp pk st sl j, Way I Z x txt inp pk st sl j := by
  obtain ⟨-, inp, j, sl, hreads, hmain, hprove, rfl⟩ := Borrower.main_eq_proof.mp h
  have hlines := Borrower.lines_proofText Z sl j
  rw [hZ] at hmain hlines
  obtain ⟨pk, sig, st, hacc, hj⟩ := Guest.main_eq_ok.mp hmain
  exact ⟨inp, pk, st, sl, j, hreads, ⟨sig, hacc⟩, hj, hprove, hlines⟩

theorem payable_iff (hw : WellFormed s.sys.world) (hp : Configured s.sys.world p)
    {authorized : Address → Bool} {foreign : Verifier.Client} {b : Address} {sl j : Bytes}
    {pk : BytesN 32} {st : Guest.Statement} {t : UInt64} (hj : j = st.journal I.crates pk t)
    (hmonths : st.periodMonths.toNat = st.monthlyNetIncome.length) :
    paid (Machine.turn I.step s (.credit authorized foreign (.requestCredit b sl j))) =
        some (b, sl, j) ↔ Payable I s p authorized foreign b sl j pk st t := by
  have hlen : j.length = journalLen := by
    rw [hj, journal_eq_pack]
    exact (packJournal _ _ _ _ _).length_eq
  rw [paid_iff_checks hw, checks_passed hp _ hlen, verdict_of_configured hp, transfer_of_configured hp,
    policyError_of_journal hj, Guest.meets_eq_true hmonths]
  have hroute := @Verifier.query_eq_ok _ I.chain s.net foreign
    (.verify sl p.imageId (I.platform.sha256 j)) I.chain.depthLimit
    [I.platform.currentContractAddress] p.router
  constructor
  · rintro ⟨hauth, hver, ⟨hreg, hreq, ⟨hpos, havg⟩, hfresh⟩, hfunds⟩
    obtain ⟨path, c, hr, hacc, hdepth, hnodup, hself⟩ := hroute.mp (verify_eq_true.mp hver)
    exact ⟨hauth, ⟨path, c, hr, hacc, hdepth, hnodup,
      fun h => hself _ h (List.mem_singleton.mpr rfl)⟩, hreg, hreq, hpos, havg, hfresh, hfunds⟩
  · rintro ⟨hauth, ⟨path, c, hr, hacc, hdepth, hnodup, hself⟩, hreg, hreq, hpos, havg, hfresh,
      hfunds⟩
    refine ⟨hauth, verify_eq_true.mpr (hroute.mpr ⟨path, c, hr, hacc, hdepth, hnodup, ?_⟩),
      ⟨hreg, hreq, ⟨hpos, havg⟩, hfresh⟩, hfunds⟩
    intro a ha hmem
    cases List.mem_singleton.mp hmem
    exact hself ha

/-- Every proof that the host program writes can be submitted, and in any run the request made from its
file is paid exactly when the borrower authorises it, a route leads the seal to a contract that accepts it,
the issuer is registered, the threshold and the incomes meet the policy, the nullifier is fresh and the
transfer succeeds. -/
theorem written_proof_paid_iff (I : Installation τ O) (Z : Borrower.Zkvm) (hZ : Z.crates = I.crates)
    (t₀ : τ) (acts : List (Act τ)) (hp : Configured (I.run t₀ acts).sys.world p) (x : Borrower.Session)
    (txt : Bytes) (htxt : Borrower.main Z x = some (.proof txt)) :
    ∃ inp pk st sl j, Way I Z x txt inp pk st sl j ∧ ∀ b authorized foreign,
      Borrower.request b txt = some (.requestCredit b sl j) ∧
      (paid (Machine.turn I.step (I.run t₀ acts)
          (.credit authorized foreign (.requestCredit b sl j))) = some (b, sl, j) ↔
        Payable I (I.run t₀ acts) p authorized foreign b sl j pk st inp.threshold) := by
  obtain ⟨inp, pk, st, sl, j, hway⟩ := way_of_main hZ htxt
  obtain ⟨sig, hacc⟩ := hway.accepts
  refine ⟨inp, pk, st, sl, j, hway, fun b authorized foreign => ?_⟩
  exact ⟨Borrower.request_of_lines hway.lines b, payable_iff (wellFormed_stack t₀ acts) hp hway.journal
    hacc.months⟩

namespace StackSample
open Contract.Sample Sample

/-- A prover that proves one input, with the seal of the sample. -/
def zkvm : Borrower.Zkvm where
  crates := installation.crates
  imageId := image
  prove inp _ := if inp = inputOf keyA signatureA then some sealA else none

def session : Borrower.Session :=
  ⟨[], some statementBytes, some signatureA.val, some keyA.val, some "4000"⟩

def proofTxt : Bytes := Borrower.proofText zkvm sealA (journalOf hashA).val

theorem main_session : Borrower.main zkvm session = some (.proof proofTxt) :=
  Borrower.main_eq_proof.mpr ⟨rfl, inputOf keyA signatureA, _, _,
    ⟨rfl, rfl, rfl, by decide +kernel⟩, main_keyA, if_pos rfl, rfl⟩

theorem configured_prepared : Configured (installation.run ledger prepared).sys.world policy where
  admin := ⟨admin, by decide +kernel⟩
  router := by decide +kernel
  imageId := by decide +kernel
  usdc := by decide +kernel
  requiredThreshold := by decide +kernel
  creditAmount := by decide +kernel

end StackSample

theorem written_proof_paid_iff_sample :
    paid (Machine.turn StackSample.installation.step
        (StackSample.installation.run Contract.Sample.ledger StackSample.prepared)
        StackSample.request) = some (Contract.Sample.borrower, StackSample.sealA,
          (Sample.journalOf Sample.hashA).val) ∧
      ∃ inp pk st sl j, Way StackSample.installation StackSample.zkvm StackSample.session
          StackSample.proofTxt inp pk st sl j ∧ ∀ b authorized foreign,
        Borrower.request b StackSample.proofTxt = some (.requestCredit b sl j) ∧
        (paid (Machine.turn StackSample.installation.step
            (StackSample.installation.run Contract.Sample.ledger StackSample.prepared)
            (.credit authorized foreign (.requestCredit b sl j))) = some (b, sl, j) ↔
          Payable StackSample.installation
            (StackSample.installation.run Contract.Sample.ledger StackSample.prepared)
            Contract.Sample.policy authorized foreign b sl j pk st inp.threshold) :=
  ⟨by decide +kernel,
    written_proof_paid_iff _ _ rfl _ _ StackSample.configured_prepared _ _ StackSample.main_session⟩

end ZkUnderwrite.System
