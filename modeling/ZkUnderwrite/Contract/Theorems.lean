import ZkUnderwrite.Contract.Lemmas.Accounting
import ZkUnderwrite.Contract.Lemmas.Claims
import ZkUnderwrite.Contract.Lemmas.Handover
import ZkUnderwrite.Contract.Lemmas.Outcomes
import ZkUnderwrite.Contract.Lemmas.Requests
import ZkUnderwrite.Contract.Lemmas.TwoRuns

/-!
# Theorems about the contract

Each theorem is about every run from the empty contract, by any callers, with any router verdicts and
any activity of the token contracts between the calls. The lemmas are under `Lemmas/`.
-/

namespace ZkUnderwrite.Contract
open ByteString Transaction

variable {τ : Type}

/-! ## A sample deployment -/

namespace Sample

def admin : Address := ⟨1⟩
def router : Address := ⟨2⟩
def usdc : Address := ⟨3⟩
def contract : Address := ⟨10⟩
def borrower : Address := ⟨20⟩
def observer : Address := ⟨21⟩

def journal (n : UInt8) : Bytes :=
  List.replicate 32 7 ++ beBytes 8 4000 ++ [1] ++ List.replicate 32 n ++ beBytes 8 202506

def digest8 : BytesN 32 :=
  ⟨[0x3f, 0x76, 0x34, 0x2c, 0x1f, 0xa6, 0x3e, 0x62, 0x91, 0x55, 0xd2, 0x66, 0xa7, 0x71, 0x9d,
    0xce, 0x60, 0x77, 0xd6, 0x82, 0x6a, 0xb7, 0x53, 0x17, 0xa5, 0x92, 0xe3, 0x4d, 0x24, 0xcb,
    0x1c, 0xf8], rfl⟩

def digest9 : BytesN 32 :=
  ⟨[0xc9, 0x7e, 0x00, 0x14, 0x05, 0x35, 0x37, 0x09, 0x50, 0xde, 0xb7, 0xb5, 0xee, 0x2a, 0x6f,
    0x2d, 0x1e, 0xf3, 0x7c, 0xe1, 0x4a, 0x22, 0x79, 0xcd, 0xba, 0xcf, 0x9d, 0x9f, 0x82, 0xc6,
    0xcb, 0xc7], rfl⟩

def platform : Platform Ledger :=
  .ofLedger contract fun b =>
    if b = journal 8 then digest8 else if b = journal 9 then digest9 else .replicate 32 0

def ledger : Ledger := fun u a => if u = usdc ∧ a = contract then 1000 else 0

def verify (r : Address) (_ : Bytes) (i d : BytesN 32) : Bool :=
  r = router && i = .replicate 32 1 && (d = digest8 || d = digest9)

def call (a : Address) (c : Call) : Invocation := ⟨(· = a), verify, c⟩

def initCall : Invocation := call admin (.init admin router (.replicate 32 1) usdc 4000 500)
def registerCall : Invocation := call admin (.registerIssuer (.replicate 32 7))
def requestCall (a : Address) : Invocation := call a (.requestCredit a [] (journal 9))

def policy : Policy where
  router := router
  imageId := .replicate 32 1
  usdc := usdc
  requiredThreshold := 4000
  creditAmount := 500
  imageId_ne := by decide
  requiredThreshold_ne := by decide
  creditAmount_pos := by decide

def ready : World Ledger := run platform ledger [.call initCall, .call registerCall]

theorem configured_ready : Configured ready policy :=
  ⟨⟨admin, by decide +kernel⟩, by decide +kernel, by decide +kernel, by decide +kernel,
    by decide +kernel, by decide +kernel⟩

def request : Request := ⟨borrower, [], journal 9, (· = borrower), verify⟩

def claim (a : Address) (n : UInt8) : Claim := ⟨a, [], ⟨journal n, by rfl⟩, (· = a), verify⟩

end Sample

/-! ## The journal readers -/

/-- What the two readers do at the offset `off` of the bytes `b`, round by round. -/
structure ReadersExact (b : Bytes) (off : UInt32) : Prop where
  readU64Be_ok : off.toNat + 8 ≤ b.length → ∃ v, readU64Be b off = .ok v ∧
    v.toNat = ∑ i ∈ Finset.range 8, (b.getD (off.toNat + i) 0).toNat * 256 ^ (7 - i)
  readU64Be_error : b.length < off.toNat + 8 → readU64Be b off = .error (.contract .badJournal)
  readBytes32_ok : off.toNat + 32 ≤ b.length → ∃ v, readBytes32 b off = .ok v ∧
    v.val = slice b off.toNat 32
  readBytes32_error : b.length < off.toNat + 32 →
    readBytes32 b off = .error (.contract .badJournal)
  /-- In every state that starts a round the offset fits 32 bits and the shift drops no bit. -/
  readU64Be_round : ∀ k s, readU64BeLoop b off k ⟨0, 0⟩ = .ok s → s.i < 8 →
    off.toNat + s.i.toNat < 2 ^ 32 ∧ s.v.toNat * 2 ^ 8 < 2 ^ 64 ∧
      ∀ x : UInt8, ((s.v <<< 8) ||| x.toUInt64).toNat = s.v.toNat * 256 + x.toNat
  readBytes32_round : ∀ k s, readBytes32Loop b off k ⟨0, BytesN.replicate 32 0⟩ = .ok s →
    s.i < 32 → off.toNat + s.i.toNat < 2 ^ 32
  readU64Be_ends : (∀ s, readU64BeLoop b off 8 ⟨0, 0⟩ = .ok s → ¬ s.i < 8) ∧
    ∀ k, readU64BeLoop b off (8 + k) ⟨0, 0⟩ = readU64BeLoop b off 8 ⟨0, 0⟩
  readBytes32_ends :
    (∀ s, readBytes32Loop b off 32 ⟨0, BytesN.replicate 32 0⟩ = .ok s → ¬ s.i < 32) ∧
    ∀ k, readBytes32Loop b off (32 + k) ⟨0, BytesN.replicate 32 0⟩ =
      readBytes32Loop b off 32 ⟨0, BytesN.replicate 32 0⟩

/-- The readers are exact and safe at every offset of every byte string in the host's range. -/
theorem journal_readers_exact (b : Bytes) (hb : b.length < 2 ^ 32) (off : UInt32) :
    ReadersExact b off where
  readU64Be_ok h := by
    refine ⟨_, readU64Be_of_le hb h, ?_⟩
    have hlt : beNat (slice b off.toNat 8) < 2 ^ 64 := by
      have := beNat_lt (slice b off.toNat 8)
      rwa [length_slice h] at this
    rw [UInt64.toNat_ofNat_of_lt' hlt, beNat_slice h]
  readU64Be_error := readU64Be_of_gt hb
  readBytes32_ok h := ⟨_, readBytes32_of_le hb h, rfl⟩
  readBytes32_error := readBytes32_of_gt hb
  readU64Be_round k s h hi := by
    obtain ⟨hinv, hoff⟩ := readU64BeLoop_inv hb h
    have hv := hinv.v_lt (UInt32.lt_iff_toNat_lt.mp hi)
    exact ⟨hoff, by omega, fun x => shift_or_toNat hv⟩
  readBytes32_round k s h _ := (readBytes32Loop_inv hb h).2
  readU64Be_ends :=
    ⟨fun s h => of_decide_eq_false (readU64BeLoop_exits b off s h),
      (readU64BeLoop_exits b off).whileFuel_add⟩
  readBytes32_ends :=
    ⟨fun s h => of_decide_eq_false (readBytes32Loop_exits b off s h),
      (readBytes32Loop_exits b off).whileFuel_add⟩

theorem journal_readers_exact_sample :
    readU64Be (Sample.journal 9) 32 = .ok 4000 ∧
      readU64Be (Sample.journal 9) 4294967292 = .error (.contract .badJournal) ∧
      ReadersExact (Sample.journal 9) 32 ∧ ReadersExact (Sample.journal 9) 4294967292 :=
  ⟨by decide +kernel, by decide +kernel, journal_readers_exact _ (by decide +kernel) _,
    journal_readers_exact _ (by decide +kernel) _⟩

/-! ## Admin handover -/

/-- Who holds authority after a history `ts` that ended in the state `w`. -/
structure Authority (P : Platform τ) (ts : List (Turn τ)) (w : World τ) : Prop where
  admin_stays : ∀ t ∈ ts, t.before.admin.isSome = true → t.after.admin.isSome = true
  admin_written : ∀ t ∈ ts, t.after.admin ≠ t.before.admin → does Call.storesAdmin t = true
  admin_authorised : ∀ t ∈ ts, ∀ i, succeeded t = some i → i.call.storesAdmin = true →
    ∃ a, t.after.admin = some a ∧ i.authorized a = true
  pending_iff : ∀ p, w.pendingAdmin = some p ↔
    ∃ t i, Machine.lastTurn (does Call.touchesPending) ts = some t ∧ succeeded t = some i ∧
      i.call = .proposeAdmin p
  proposer : ∀ p, w.pendingAdmin = some p →
    ∃ t i a, Machine.lastTurn (does Call.touchesPending) ts = some t ∧ succeeded t = some i ∧
      i.call = .proposeAdmin p ∧ t.before.admin = some a ∧ i.authorized a = true ∧
      w.admin = some a
  accept : ∀ i r w', i.call = .acceptAdmin → invoke P i w = (.ok r, w') →
    ∃ p, w.pendingAdmin = some p ∧ i.authorized p = true ∧ w'.admin = some p ∧
      w'.pendingAdmin = none
  /-- The turns that change an issuer entry, or that set or cancel the pending admin. -/
  by_admin : ∀ t ∈ ts,
    (∃ h, t.after.issuer h ≠ t.before.issuer h) ∨ (∃ h, does (Call.touchesIssuer h) t = true) ∨
      (t.after.pendingAdmin ≠ t.before.pendingAdmin ∧ does (· = .acceptAdmin) t = false) ∨
      does (fun c => c.touchesPending && c ≠ .acceptAdmin) t = true →
    ∃ i a, succeeded t = some i ∧ t.before.admin = some a ∧ i.authorized a = true
  registered_iff : ∀ h, w.registered h = true ↔
    ∃ t i, Machine.lastTurn (does (Call.touchesIssuer h)) ts = some t ∧ succeeded t = some i ∧
      i.call = .registerIssuer h
  issuer_written : ∀ t ∈ ts, ∀ h, t.after.issuer h ≠ t.before.issuer h →
    does (Call.touchesIssuer h) t = true

/-- The two-step handover: in every run, authority lies with the stored admin alone. -/
theorem two_step_handover (P : Platform τ) (t₀ : τ) (xs : List (Input τ)) :
    Authority P (history P t₀ xs) (run P t₀ xs) where
  admin_stays := by
    refine history_forall (fun w x hw ha => ?_) t₀ xs
    cases hs : succeeded (Machine.turn (step P) w x) with
    | none => exact (congrArg Option.isSome (admin_of_turn_frame hs)).trans ha
    | some i =>
        obtain ⟨_, -, he⟩ := turn_effect hw hs
        exact he.admin_isSome ha
  admin_written := by
    refine history_forall (fun w x hw hne => ?_) t₀ xs
    cases hs : succeeded (Machine.turn (step P) w x) with
    | none => exact absurd (admin_of_turn_frame hs) hne
    | some i =>
        obtain ⟨_, -, he⟩ := turn_effect hw hs
        refine does_eq_true.mpr ⟨i, hs, ?_⟩
        by_contra hc
        exact hne (he.admin_of_not_storesAdmin (Bool.not_eq_true _ ▸ hc))
  admin_authorised := by
    refine history_forall (fun w x hw i hs hc => ?_) t₀ xs
    obtain ⟨_, -, he⟩ := turn_effect hw hs
    exact he.storesAdmin hc
  pending_iff p := by
    rw [pendingAdmin_run, Option.bind_eq_some_iff]
    simp only [proposal_eq_some, exists_and_left]
  proposer p hp := by
    rw [pendingAdmin_run, Option.bind_eq_some_iff] at hp
    obtain ⟨t, ht, hp⟩ := hp
    obtain ⟨i, hs, hc⟩ := proposal_eq_some.mp hp
    obtain ⟨a, hb, hauth, ha⟩ := proposer_in_office P t₀ xs t i p ht hs hc
    exact ⟨t, i, a, ht, hs, hc, hb, hauth, ha⟩
  accept i r w' hc hi := by
    have he := Effect.of_invoke (wellFormed_run P t₀ xs) hi
    cases he with
    | acceptAdmin _ _ hp hauth => exact ⟨_, hp, hauth, rfl, rfl⟩
    | init h _ _ | registerIssuer h _ _ | unregisterIssuer h _ _ | proposeAdmin h _ _
    | cancelAdminProposal h _ _ _ | requestCredit h _ _ _ _ _ | creditLine h =>
        rw [h] at hc; cases hc
  by_admin := by
    refine history_forall (fun w x hw h => does_byAdmin hw ?_) t₀ xs
    rcases h with ⟨k, hk⟩ | ⟨k, hk⟩ | ⟨hne, hacc⟩ | hp
    · exact does_mono (fun c => Call.byAdmin_of_touchesIssuer) (touchesIssuer_of_ne hw hk)
    · exact does_mono (fun c => Call.byAdmin_of_touchesIssuer) hk
    · obtain ⟨i, hs, hc⟩ := does_eq_true.mp (touchesPending_of_ne hw hne)
      refine does_eq_true.mpr ⟨i, hs, Call.byAdmin_of_touchesPending hc fun hi => ?_⟩
      rw [does_eq_true.mpr ⟨i, hs, decide_eq_true hi⟩] at hacc
      cases hacc
    · refine does_mono (fun c hc => ?_) hp
      rw [Bool.and_eq_true] at hc
      exact Call.byAdmin_of_touchesPending hc.1 (of_decide_eq_true hc.2)
  registered_iff k := by
    rw [registered_run, Option.any_eq_true]
    simp only [registers, does_eq_true, decide_eq_true_eq, exists_and_left]
  issuer_written := history_forall (fun _ _ hw _ hne => touchesIssuer_of_ne hw hne) t₀ xs

/-! ## Storage and policy -/

/-- What the entry points can rely on in a state `w` with the history `ts`. -/
structure StorageSound (ts : List (Turn τ)) (w : World τ) : Prop where
  shape : (w.storage = Storage.empty ∧ ts.filter (does Call.isInit) = []) ∨
    ∃ p t i a, Configured w p ∧ ts.filter (does Call.isInit) = [t] ∧ succeeded t = some i ∧
      i.call = .init a p.router p.imageId p.usdc p.requiredThreshold p.creditAmount
  before_init : w.storage = Storage.empty → ∀ (env : Env τ) c, c.isInit = false →
    (∀ b, c ≠ .creditLine b) → ∃ e, (perform env c).exec w = (.error e, w)
  no_fallback : (assertInit.exec w).1 = (.ok () : Except Fault Unit) → ∀ (env : Env τ) c,
    ((perform env c).exec w).1 ≠ .error (.contract .notInitialized)
  no_badJournal : ∀ (env : Env τ) b s j,
    ((requestCredit env b s j).exec w).1 ≠ .error (.contract .badJournal)
  /-- The digest that a request sends to the router is that of the bytes it parses afterwards. -/
  router_call : ∀ (env : Env τ) b s j, ((requestCredit env b s j).exec w).2 = w ∨
    ∃ p, ∃ h : j.length = journalLen, Configured w p ∧
      ((requestCredit env b s j).exec w).2.routerCalls =
        w.routerCalls ++ [⟨p.router, s, p.imageId, env.sha256 j⟩] ∧
      ((requestCredit env b s j).exec w).1 =
        if env.verify p.router s p.imageId (env.sha256 j) then
          (settle env w p b (Journal.parse ⟨j, h⟩)).1
        else .error .verifier

/-- The storage is empty or complete, and the policy is that of the one `init`. -/
theorem storage_wellFormed (P : Platform τ) (t₀ : τ) (xs : List (Input τ)) :
    StorageSound (history P t₀ xs) (run P t₀ xs) where
  shape := oneInit_run P t₀ xs
  before_init he env c hi hc :=
    exec_perform_of_admin_none env (admin_of_empty he) hi hc
  no_fallback h env c := by
    rcases wellFormed_run P t₀ xs with he | ⟨p, hp⟩
    · rw [exec_assertInit, admin_of_empty he] at h
      cases h
    · exact perform_ne_notInitialized hp env c
  no_badJournal env b s j := by
    rcases wellFormed_run P t₀ xs with he | ⟨p, hp⟩
    · rw [exec_requestCredit_of_admin_none env _ b s j (admin_of_empty he)]
      split <;> simp
    · exact (requestCredit_ne hp env b s j).2
  router_call env b s j := by
    rcases wellFormed_run P t₀ xs with he | ⟨p, hp⟩
    · rw [exec_requestCredit_of_admin_none env _ b s j (admin_of_empty he)]
      split <;> exact .inl rfl
    · rcases requestCredit_routerCalls hp env b s j with h | ⟨h, hr, ho⟩
      · exact .inl h
      · exact .inr ⟨p, h, hp, hr, ho⟩

/-! ## One request -/

/-- How the request `r` ends in the state `w`. -/
structure RequestExact (P : Platform τ) (w : World τ) (r : Request) : Prop where
  succeeds_iff : (∃ x, (invoke P r.invocation w).1 = .ok x) ↔ ∀ c ∈ r.checks P w, c.1 = true
  first_failure : ∀ e, (invoke P r.invocation w).1 = .error e ↔
    firstFailure (r.checks P w) = some e
  failure : ∀ e w', invoke P r.invocation w = (.error e, w') → w' = w
  success : ∀ x w', invoke P r.invocation w = (.ok x, w') → ∃ n k, w.creditAmount = some n ∧
    x = .amount n ∧ r.nullifier = some k ∧ Paid P w w' r.borrower n k
  unseen : ∀ r', r.Agrees P w r' → (invoke P r'.invocation w).1 = (invoke P r.invocation w).1 ∧
    SameState (invoke P r'.invocation w).2 (invoke P r.invocation w).2

/-- In every reachable state a request is accepted exactly when it passes the nine checks, fails with
the first one that it does not pass, and changes nothing beyond its own entries. -/
theorem request_credit_exact (P : Platform τ) (hT : StandardToken P) (w : World τ)
    (hw : Reachable P w) (r : Request) : RequestExact P w r := by
  have hunseen : ∀ r', r.Agrees P w r' →
      (invoke P r'.invocation w).1 = (invoke P r.invocation w).1 ∧
        SameState (invoke P r'.invocation w).2 (invoke P r.invocation w).2 := by
    intro r' hr
    obtain ⟨hfst, hsnd⟩ := invoke_request_alike hr
    exact ⟨hfst.symm, hsnd.storage.symm, hsnd.token.symm, hsnd.events.symm⟩
  rcases request_cases (P := P) hw.wellFormed r with
    ⟨e, he, hinv⟩ | ⟨hnone, p, k, t, c, hp, hk, ht, hinv⟩
  · refine ⟨?_, fun e' => ?_, fun e' w' hi => ?_, fun x w' hi => ?_, hunseen⟩
    · rw [← firstFailure_eq_none]
      simp [he, hinv]
    · simp [he, hinv]
    · exact (congrArg Prod.snd (hinv.symm.trans hi)).symm
    · cases hinv.symm.trans hi
  · refine ⟨?_, fun e' => ?_, fun e' w' hi => ?_, fun x w' hi => ?_, hunseen⟩
    · rw [← firstFailure_eq_none]
      simp [hnone, hinv]
    · simp [hnone, hinv]
    · cases hinv.symm.trans hi
    · cases hinv.symm.trans hi
      exact ⟨p.creditAmount, k, hp.creditAmount, rfl, hk, paid_of_transfer hT hp ht k c⟩

theorem request_credit_exact_sample :
    (invoke Sample.platform Sample.request.invocation Sample.ready).1 = .ok (.amount 500) ∧
      RequestExact Sample.platform Sample.ready Sample.request :=
  ⟨by decide +kernel, request_credit_exact _ (fundedToken_ofLedger _ _).toStandardToken _
    ⟨Sample.ledger, _, rfl⟩ _⟩

/-! ## Single spend and treasury -/

/-- What a history `ts` that ended in the state `w` has paid. -/
structure Accounts (P : Platform τ) (ts : List (Turn τ)) (w : World τ) : Prop where
  single_spend : ts.Pairwise fun t t' => ∀ b j b' j', requested t = some (b, j) →
    requested t' = some (b', j') → slice j 41 32 ≠ slice j' 41 32
  spent_iff : ∀ n, w.spent n = true ↔
    ∃ t ∈ ts, ∃ b j, requested t = some (b, j) ∧ slice j 41 32 = n.val
  never_removed : ∀ t ∈ ts, ∀ n, t.before.spent n = true → t.after.spent n = true
  paid_out : ∀ p, Configured w p →
    paidOut P p.usdc ts = p.creditAmount * {n | w.spent n = true}.ncard
  other_tokens : ∀ u, w.usdc ≠ some u → paidOut P u ts = 0
  credit_line : ∀ b a, w.credit b = some a ↔
    (∃ t ∈ ts, ∃ j, requested t = some (b, j)) ∧ w.creditAmount = some a

/-- In every run the nullifiers, the credit lines and the treasury tell the same story. -/
theorem single_spend_accounts (P : Platform τ) (hT : StandardToken P) (t₀ : τ)
    (xs : List (Input τ))
    (hself : ∀ i s j, .call i ∈ xs → i.call = .requestCredit P.currentContractAddress s j →
      i.authorized P.currentContractAddress = false) :
    Accounts P (history P t₀ xs) (run P t₀ xs) where
  single_spend := (books_run hT hself).single_spend (granted_run P t₀ xs)
  spent_iff n := (books_run hT hself).spent_iff
  never_removed := history_forall (fun w x hw n hn => spent_step hw x hn) t₀ xs
  paid_out p hp := by
    rw [(books_run hT hself).paidOut, hp.usdc, if_pos rfl, hp.creditAmount,
      (books_run hT hself).card_spent]
    rfl
  other_tokens u hu := ((books_run hT hself).paidOut u).trans (if_neg hu)
  credit_line b a := (books_run hT hself).credit_iff (granted_run P t₀ xs)

theorem single_spend_accounts_sample :
    let xs : List (Input Ledger) := [.call Sample.initCall, .call Sample.registerCall,
      .call (Sample.requestCall Sample.borrower), .call (Sample.requestCall Sample.observer)]
    paidOut Sample.platform Sample.usdc (history Sample.platform Sample.ledger xs) = 500 ∧
      Accounts Sample.platform (history Sample.platform Sample.ledger xs)
        (run Sample.platform Sample.ledger xs) := by
  refine ⟨by decide +kernel, single_spend_accounts _ ?_ _ _ ?_⟩
  · exact (fundedToken_ofLedger _ _).toStandardToken
  · intro i s j hi hc
    simp only [List.mem_cons, Input.call.injEq, List.not_mem_nil, or_false] at hi
    rcases hi with rfl | rfl | rfl | rfl <;> rfl

/-! ## The order of claims -/

/-- What the order of the claims `cs`, made from the state `w`, cannot change. -/
structure OrderFree (P : Platform τ) (w : World τ) (p : Policy) (cs : List Claim) : Prop where
  count : ∀ ds, ds.Perm cs → (paidClaims P w ds).length =
    min (cs.map Claim.nullifier).toFinset.card
      (P.balance p.usdc w.token P.currentContractAddress / p.creditAmount).toNat
  once : ∀ ds, ds.Perm cs → ((paidClaims P w ds).map Claim.nullifier).Nodup
  all_paid : (cs.map Claim.nullifier).Nodup →
    p.creditAmount * cs.length ≤ P.balance p.usdc w.token P.currentContractAddress →
    ∀ ds, ds.Perm cs → paidClaims P w ds = ds ∧
      (afterClaims P w ds).storage = (afterClaims P w cs).storage ∧
      ∀ u a, P.balance u (afterClaims P w ds).token a = P.balance u (afterClaims P w cs).token a
  /-- A claim that failed for lack of funds alone, at any place of any order. -/
  retry : ∀ ds, ds.Perm cs → ∀ es, es <+: ds → ∀ c ∈ cs,
    (claimStep P (afterClaims P w es) c).1 = .error .transfer →
      (claimStep P (afterClaims P w es) c).2 = afterClaims P w es ∧
      (afterClaims P w es).spent c.nullifier = false ∧
      ∀ t, p.creditAmount ≤ P.balance p.usdc t P.currentContractAddress →
        (claimStep P ((afterClaims P w es).setToken t) c).1 = .ok (.amount p.creditAmount)

/-- Claims that each pass all checks in the state `w` can be made in any order. -/
theorem claims_order_free (P : Platform τ) (hT : FundedToken P) (w : World τ) (p : Policy)
    (hp : Configured w p) (cs : List Claim) (hcs : ∀ c ∈ cs, c.Passes P w p) :
    OrderFree P w p cs := by
  have hperm : ∀ ds : List Claim, ds.Perm cs → ∀ c ∈ ds, c.Passes P w p :=
    fun ds h c hc => hcs c (h.mem_iff.mp hc)
  have hcount : ∀ ds : List Claim, ds.Perm cs → (paidClaims P w ds).length =
      min (cs.map Claim.nullifier).toFinset.card
        (P.balance p.usdc w.token P.currentContractAddress / p.creditAmount).toNat := by
    intro ds h
    rw [← List.length_map (f := Claim.nullifier), paidClaims_spec hT hp (hperm ds h),
      Spend.length_paid p.creditAmount_pos, Finset.sdiff_empty,
      List.toFinset_eq_of_perm _ _ (h.map Claim.nullifier)]
  refine ⟨hcount, fun ds h => ?_, fun hnd hB ds h => ?_, fun ds _ es _ c _ => ?_⟩
  · rw [paidClaims_spec hT hp (hperm ds h)]
    exact Spend.nodup_paid _
  · have hlen : ∀ es : List Claim, es.Perm cs → paidClaims P w es = es := by
      intro es he
      refine (Machine.accepted_sublist _ _ _).eq_of_length ?_
      rw [hcount es he, List.toFinset_card_of_nodup hnd, List.length_map, he.length_eq]
      have hdiv : (cs.length : ℤ) ≤
          P.balance p.usdc w.token P.currentContractAddress / p.creditAmount :=
        (Int.le_ediv_iff_mul_le p.creditAmount_pos).mpr (by rwa [Int.mul_comm])
      omega
    have hs : ∀ es : List Claim, es.Perm cs → Settled P p w es (afterClaims P w es) := by
      intro es he
      have := settled_paidClaims hT hp fun c hc => (hperm es he c hc).toProven
      rwa [hlen es he] at this
    obtain ⟨hst, hbal⟩ := (hs ds h).perm (hs cs (List.Perm.refl cs)) h
    exact ⟨hlen ds h, hst, hbal⟩
  · exact Contract.retry hT (hp.afterClaims es)

theorem claims_order_free_sample :
    OrderFree Sample.platform Sample.ready Sample.policy
      [Sample.claim Sample.borrower 9, Sample.claim Sample.observer 8,
        Sample.claim Sample.observer 9] := by
  refine claims_order_free _ (fundedToken_ofLedger _ _) _ _ Sample.configured_ready _ ?_
  have h : ∀ a n, a ≠ Sample.contract →
      Sample.platform.sha256 (Sample.journal n) = Sample.digest8 ∨
        Sample.platform.sha256 (Sample.journal n) = Sample.digest9 →
      policyError Sample.ready Sample.policy (Sample.claim a n).values = none →
      (Sample.claim a n).Passes Sample.platform Sample.ready Sample.policy :=
    fun a n ha hd hpol => ⟨⟨by simp [Sample.claim], by
      simpa [Sample.claim, Sample.verify, Sample.policy] using hd⟩, hpol, ha.symm⟩
  intro c hc
  simp only [List.mem_cons, List.not_mem_nil, or_false] at hc
  rcases hc with rfl | rfl | rfl
  · exact h _ _ (by decide) (by decide +kernel) (by decide +kernel)
  · exact h _ _ (by decide) (by decide +kernel) (by decide +kernel)
  · exact h _ _ (by decide) (by decide +kernel) (by decide +kernel)

/-! ## Requests that share a journal -/

/-- The journal does not name the payee: an observer who submits it first is paid, and then the
borrower who made the proof is refused. -/
theorem observer_takes_the_claim :
    Configured Sample.ready Sample.policy ∧ Reachable Sample.platform Sample.ready ∧
      (Sample.claim Sample.borrower 9).Passes Sample.platform Sample.ready Sample.policy ∧
      (claimStep Sample.platform Sample.ready (Sample.claim Sample.observer 9)).1 =
        .ok (.amount 500) ∧
      (claimStep Sample.platform (afterClaims Sample.platform Sample.ready
        [Sample.claim Sample.observer 9]) (Sample.claim Sample.borrower 9)).1 =
        .error (.contract .nullifierAlreadyUsed) := by
  refine ⟨Sample.configured_ready, ⟨Sample.ledger, _, rfl⟩, ⟨⟨?_, ?_⟩, ?_, ?_⟩, ?_, ?_⟩
  all_goals decide +kernel

/-- What happens to the requests with the journal `j` among the inputs that lead from `w` through the
turns `ts` to `w'`. -/
structure FirstClaimWins (P : Platform τ) (p : Policy) (j : BytesN journalLen)
    (ts : List (Turn τ)) (w' : World τ) : Prop where
  at_most_one : ts.Pairwise fun t t' => (∃ b, requested t = some (b, j.val)) →
    ¬ ∃ b, requested t' = some (b, j.val)
  paid_to_caller : ∀ t ∈ ts, ∀ b, requested t = some (b, j.val) →
    ∃ i s, t.input = .call i ∧ i.call = .requestCredit b s j.val ∧ i.authorized b = true ∧
      P.transfer p.usdc t.before.token P.currentContractAddress b p.creditAmount =
        some t.after.token ∧
      t.after.credit b = some p.creditAmount
  then_refused : (∃ t ∈ ts, ∃ b, requested t = some (b, j.val)) →
    ∀ c : Claim, c.journal = j → c.Proven P p → w'.registered c.values.issuerHash = true →
      claimStep P w' c = (.error (.contract .nullifierAlreadyUsed), w')
  any_borrower : ∀ c : Claim, c.journal = j → c.Proven P p → policyError w' p c.values = none →
    (P.transfer p.usdc w'.token P.currentContractAddress c.borrower p.creditAmount).isSome = true →
      (claimStep P w' c).1 = .ok (.amount p.creditAmount)

/-- In any interleaving the first request with a journal that passes is paid, to the borrower who
makes it, and every later one is refused. -/
theorem first_claim_wins (P : Platform τ) (w : World τ) (p : Policy) (hp : Configured w p)
    (j : BytesN journalLen) (xs : List (Input τ)) :
    FirstClaimWins P p j (Machine.turns (step P) w xs) (Machine.final (step P) w xs) where
  at_most_one :=
    Machine.at_most_once (I := fun w => Configured w p)
      (D := fun w => w.spent (Journal.parse j).nullifier = true)
      (fun _ x h => h.step x) (fun _ _ h ⟨_, hr⟩ => spent_of_requested h hr)
      (fun _ x h => spent_step (.inr ⟨p, h⟩) x) (fun _ _ h hn ⟨_, hr⟩ =>
        not_requested_of_spent h hn hr) hp xs
  paid_to_caller := by
    refine Machine.turns_forall (I := fun w => Configured w p) (fun _ x h => h.step x) ?_ hp xs
    intro w x h b hr
    obtain ⟨i, s, t, hx, hc, hauth, -, -, ht, hw⟩ := of_requested h hr
    have htok : (step P w x).2.token = t := by rw [hw]; rfl
    refine ⟨i, s, hx, hc, hauth, ht.trans (congrArg some htok.symm), ?_⟩
    exact (congrArg (World.credit · b) hw).trans ((credit_payOut _ _ _ _ _ _).trans (if_pos rfl))
  then_refused := by
    rintro ⟨t, ht, b, hr⟩ c rfl hc hreg
    exact claimStep_of_error (hp.final xs) hc (policyError_after_requested hp ht hr hreg)
  any_borrower := by
    rintro c rfl hc hpol ht
    obtain ⟨t, ht⟩ := Option.isSome_iff_exists.mp ht
    rw [claimStep_of_some (hp.final xs) hc hpol ht]

theorem first_claim_wins_sample :
    FirstClaimWins Sample.platform Sample.policy ⟨Sample.journal 9, by rfl⟩
      (Machine.turns (step Sample.platform) Sample.ready
        [.call (Sample.requestCall Sample.observer), .call (Sample.requestCall Sample.borrower)])
      (Machine.final (step Sample.platform) Sample.ready
        [.call (Sample.requestCall Sample.observer), .call (Sample.requestCall Sample.borrower)]) :=
  first_claim_wins _ _ _ Sample.configured_ready _ _

end ZkUnderwrite.Contract
