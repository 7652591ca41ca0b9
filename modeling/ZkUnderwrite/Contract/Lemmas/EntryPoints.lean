import ZkUnderwrite.Contract.Lemmas.Host
import ZkUnderwrite.Contract.Lemmas.Journal

/-!
# What each entry point does

One equation for each entry point: its outcome and the state in which it stops, case by case in the
order of its checks.
-/

namespace ZkUnderwrite.Contract
open ByteString Transaction

variable {τ : Type} (env : Env τ) (w : World τ)

theorem exec_assertInit :
    (assertInit : Host τ Unit).exec w =
      match w.admin with
      | some _ => (.ok (), w)
      | none => (.error (.contract .notInitialized), w) := by
  unfold assertInit World.admin
  rw [Txn.exec_bind_ok (exec_instanceHas w .admin)]
  cases h : w.storage.inst .admin <;> simp [Store.has, h]

theorem exec_getOrPanic {α : Type} (k : DataKey) (e : Error) (f : k.Value → Host τ α) :
    (do let v ← unwrapOrPanic (← instanceGet k) e
        f v : Host τ α).exec w =
      (w.storage.inst k).elim (.error (.contract e), w) fun v => (f v).exec w := by
  rw [Txn.exec_bind_ok (exec_instanceGet w k)]
  cases w.storage.inst k <;> simp [Txn.exec_bind]

theorem exec_getAdmin {α : Type} (e : Error) (f : Address → Host τ α) :
    (do let v : Address ← unwrapOrPanic (← instanceGet .admin) e
        f v : Host τ α).exec w =
      w.admin.elim (.error (.contract e), w) fun v => (f v).exec w := exec_getOrPanic w .admin e f

theorem exec_getPendingAdmin {α : Type} (e : Error) (f : Address → Host τ α) :
    (do let v : Address ← unwrapOrPanic (← instanceGet .pendingAdmin) e
        f v : Host τ α).exec w =
      w.pendingAdmin.elim (.error (.contract e), w) fun v => (f v).exec w :=
  exec_getOrPanic w .pendingAdmin e f

theorem exec_getRouter {α : Type} (e : Error) (f : Address → Host τ α) :
    (do let v : Address ← unwrapOrPanic (← instanceGet .router) e
        f v : Host τ α).exec w =
      w.router.elim (.error (.contract e), w) fun v => (f v).exec w := exec_getOrPanic w .router e f

theorem exec_getImageId {α : Type} (e : Error) (f : BytesN 32 → Host τ α) :
    (do let v : BytesN 32 ← unwrapOrPanic (← instanceGet .imageId) e
        f v : Host τ α).exec w =
      w.imageId.elim (.error (.contract e), w) fun v => (f v).exec w :=
  exec_getOrPanic w .imageId e f

theorem exec_getUsdc {α : Type} (e : Error) (f : Address → Host τ α) :
    (do let v : Address ← unwrapOrPanic (← instanceGet .usdc) e
        f v : Host τ α).exec w =
      w.usdc.elim (.error (.contract e), w) fun v => (f v).exec w := exec_getOrPanic w .usdc e f

theorem exec_getRequiredThreshold {α : Type} (e : Error) (f : UInt64 → Host τ α) :
    (do let v : UInt64 ← unwrapOrPanic (← instanceGet .requiredThreshold) e
        f v : Host τ α).exec w =
      w.requiredThreshold.elim (.error (.contract e), w) fun v => (f v).exec w :=
  exec_getOrPanic w .requiredThreshold e f

theorem exec_getCreditAmount {α : Type} (e : Error) (f : Int → Host τ α) :
    (do let v : Int ← unwrapOrPanic (← instanceGet .creditAmount) e
        f v : Host τ α).exec w =
      w.creditAmount.elim (.error (.contract e), w) fun v => (f v).exec w :=
  exec_getOrPanic w .creditAmount e f

/-- The outcome of an operation that only the stored admin may perform. -/
def adminOnly {α : Type} (f : Address → Except Fault α × World τ) : Except Fault α × World τ :=
  match w.admin with
  | none => (.error (.contract .notInitialized), w)
  | some a => if env.authorized a then f a else (.error (.unauthorized a), w)

theorem adminOnly_eq_ok {α : Type} {f : Address → Except Fault α × World τ} {x : α}
    {w' : World τ} :
    adminOnly env w f = (.ok x, w') ↔
      ∃ a, w.admin = some a ∧ env.authorized a = true ∧ f a = (.ok x, w') := by
  unfold adminOnly
  cases w.admin with
  | none => simp
  | some a => by_cases h : env.authorized a <;> simp [h]

variable {env w} in
/-- An entry point that is `adminOnly` and returns nothing. -/
theorem exec_unit_adminOnly {m : Host τ Unit} {f : Address → Except Fault Unit × World τ} {r : Ret}
    {w' : World τ} (hm : m.exec w = adminOnly env w f) :
    (do m; return .unit : Host τ Ret).exec w = (.ok r, w') ↔
      ∃ a, w.admin = some a ∧ env.authorized a = true ∧ f a = (.ok (), w') ∧ .unit = r := by
  rw [Txn.exec_map_eq_ok, hm]
  simp only [adminOnly_eq_ok]
  constructor
  · rintro ⟨⟨⟩, ⟨a, ha, hauth, hf⟩, hr⟩
    exact ⟨a, ha, hauth, hf, hr⟩
  · rintro ⟨a, ha, hauth, hf, hr⟩
    exact ⟨(), ⟨a, ha, hauth, hf⟩, hr⟩

/-- The common beginning of the admin operations: only the stored admin gets past it. -/
theorem exec_adminOnly {α : Type} (f : Address → Host τ α) :
    (do assertInit
        let admin : Address ← unwrapOrPanic (← instanceGet .admin) .notInitialized
        env.requireAuth admin
        f admin : Host τ α).exec w = adminOnly env w fun a => (f a).exec w := by
  unfold adminOnly
  cases ha : w.admin with
  | none => rw [Txn.exec_bind_error (by rw [exec_assertInit, ha])]
  | some a =>
      rw [Txn.exec_bind_ok (by rw [exec_assertInit, ha]), exec_getAdmin, ha]
      exact exec_requireAuth w env a (f a)

theorem exec_registerIssuer (h : BytesN 32) :
    (registerIssuer env h).exec w = adminOnly env w fun a =>
      (.ok (), (w.setPersistent (.issuer h) true).publish ⟨"iss_reg", .bytesN h, .address a⟩) :=
  exec_adminOnly env w _

theorem exec_unregisterIssuer (h : BytesN 32) :
    (unregisterIssuer env h).exec w = adminOnly env w fun a =>
      (.ok (), (w.removePersistent (.issuer h)).publish ⟨"iss_unreg", .bytesN h, .address a⟩) :=
  exec_adminOnly env w _

theorem exec_proposeAdmin (p : Address) :
    (proposeAdmin env p).exec w = adminOnly env w fun a =>
      (.ok (), (w.setInstance .pendingAdmin p).publish ⟨"adm_prop", .address a, .address p⟩) :=
  exec_adminOnly env w _

theorem exec_cancelAdminProposal :
    (cancelAdminProposal env).exec w = adminOnly env w fun a =>
      w.pendingAdmin.elim (.error (.contract .noPendingAdmin), w) fun p =>
        (.ok (), (w.removeInstance .pendingAdmin).publish ⟨"adm_cncl", .address a, .address p⟩) := by
  unfold cancelAdminProposal
  rw [exec_adminOnly]
  simp only [exec_getPendingAdmin]
  rfl

theorem exec_acceptAdmin :
    (acceptAdmin env).exec w =
      w.admin.elim (.error (.contract .notInitialized), w) fun a =>
        w.pendingAdmin.elim (.error (.contract .noPendingAdmin), w) fun p =>
          if env.authorized p then
            (.ok (), ((w.setInstance .admin p).removeInstance .pendingAdmin).publish
              ⟨"adm_acc", .address a, .address p⟩)
          else (.error (.unauthorized p), w) := by
  unfold acceptAdmin
  cases ha : w.admin with
  | none => rw [Txn.exec_bind_error (by rw [exec_assertInit, ha])]; rfl
  | some a =>
      rw [Txn.exec_bind_ok (by rw [exec_assertInit, ha]), exec_getPendingAdmin]
      cases w.pendingAdmin with
      | none => rfl
      | some p => simp only [Option.elim_some, exec_requireAuth, exec_getAdmin, ha]; rfl

theorem exec_init (admin router : Address) (m : BytesN 32) (usdc : Address) (t : UInt64) (c : Int) :
    (init env admin router m usdc t c).exec w =
      if w.admin.isSome then (.error (.contract .alreadyInitialized), w)
      else if c ≤ 0 then (.error (.contract .invalidCreditAmount), w)
      else if t = 0 then (.error (.contract .invalidThreshold), w)
      else if m = BytesN.replicate 32 0 then (.error (.contract .invalidImageId), w)
      else if env.authorized admin then
        (.ok (), (((((w.setInstance .admin admin).setInstance .router router).setInstance
          .imageId m).setInstance .usdc usdc).setInstance .requiredThreshold t).setInstance
          .creditAmount c)
      else (.error (.unauthorized admin), w) := by
  unfold init
  rw [Txn.exec_bind_ok (exec_instanceHas w .admin), exec_panicIf, exec_panicIf, exec_panicIf,
    exec_panicIf, exec_requireAuth]
  rfl

/-! ## `request_credit` -/

theorem Configured.logRouterCall {w : World τ} {p : Policy} (hw : Configured w p)
    (c : RouterCall) : Configured (w.logRouterCall c) p :=
  ⟨hw.admin, hw.router, hw.imageId, hw.usdc, hw.requiredThreshold, hw.creditAmount⟩

theorem policyError_eq_none {w : World τ} {p : Policy} {v : Journal} :
    policyError w p v = none ↔ w.registered v.issuerHash = true ∧
      p.requiredThreshold ≤ v.threshold ∧ v.meets = 1 ∧ w.spent v.nullifier = false := by
  unfold policyError
  split_ifs <;> simp_all [← UInt64.not_lt]

/-- Past the checks on the issuer, the threshold and the flag only the nullifier decides. -/
theorem policyError_of_checks {w : World τ} {p : Policy} {v : Journal}
    (hreg : w.registered v.issuerHash = true) (hthr : p.requiredThreshold ≤ v.threshold)
    (hmeets : v.meets = 1) :
    policyError w p v = if w.spent v.nullifier then some .nullifierAlreadyUsed else none := by
  unfold policyError
  rw [hreg, if_neg (by simp), if_neg (UInt64.not_lt.mpr hthr), if_neg (not_not.mpr hmeets)]

theorem settle_of_error {w : World τ} {p : Policy} {v : Journal} {e : Error} (b : Address)
    (h : policyError w p v = some e) : settle env w p b v = (.error (.contract e), w) := by
  unfold settle
  rw [h]

theorem settle_of_none {w : World τ} {p : Policy} {v : Journal} (b : Address)
    (h : policyError w p v = none) :
    settle env w p b v =
      match env.transfer p.usdc w.token env.currentContractAddress b p.creditAmount with
      | some t => (.ok p.creditAmount, w.payOut p b v.nullifier t)
      | none => (.error .transfer, w.setPersistent (.nullifier v.nullifier) true) := by
  unfold settle
  split
  · rename_i e he
    rw [h] at he
    cases he
  · rfl

theorem settle_of_transfer_none {w : World τ} {p : Policy} {v : Journal} {b : Address}
    (h : policyError w p v = none)
    (ht : env.transfer p.usdc w.token env.currentContractAddress b p.creditAmount = none) :
    settle env w p b v = (.error .transfer, w.setPersistent (.nullifier v.nullifier) true) := by
  rw [settle_of_none env b h, ht]

theorem settle_eq_ok {w w' : World τ} {p : Policy} {b : Address} {v : Journal} {n : Int} :
    settle env w p b v = (.ok n, w') ↔ n = p.creditAmount ∧ policyError w p v = none ∧
      ∃ t, env.transfer p.usdc w.token env.currentContractAddress b p.creditAmount = some t ∧
        w' = w.payOut p b v.nullifier t := by
  cases h : policyError w p v with
  | some e => simp [settle_of_error env b h]
  | none =>
      rw [settle_of_none env b h]
      cases env.transfer p.usdc w.token env.currentContractAddress b p.creditAmount <;>
        simp [eq_comm]

theorem exec_requestCredit_of_admin_none (b : Address) (s j : Bytes) (ha : w.admin = none) :
    (requestCredit env b s j).exec w =
      if env.authorized b then (.error (.contract .notInitialized), w)
      else (.error (.unauthorized b), w) := by
  unfold requestCredit
  rw [exec_requireAuth]
  refine congrArg (fun r => if env.authorized b then r else _) ?_
  exact Txn.exec_bind_error (by rw [exec_assertInit, ha]) _

/-- The last part of a request: the nullifier is written before the transfer, the credit line
after it. -/
theorem exec_disburse {w : World τ} {p : Policy} (hw : Configured w p) (b : Address)
    (n : BytesN 32) :
    (do persistentSet (.nullifier n) true
        let amount : Int ← unwrapOrPanic (← instanceGet .creditAmount) .notInitialized
        let usdc : Address ← unwrapOrPanic (← instanceGet .usdc) .notInitialized
        env.tokenTransfer usdc env.currentContractAddress b amount
        persistentSet (.creditLine b) amount
        publish ⟨"credit", .address b, .i128 amount⟩
        return amount : Host τ Int).exec w =
      match env.transfer p.usdc w.token env.currentContractAddress b p.creditAmount with
      | some t => (.ok p.creditAmount, w.payOut p b n t)
      | none => (.error .transfer, w.setPersistent (.nullifier n) true) := by
  refine (Txn.exec_bind_ok (exec_persistentSet w (.nullifier n) true) _).trans ?_
  have hc : (w.setPersistent (.nullifier n) true).creditAmount = _ := hw.creditAmount
  have hu : (w.setPersistent (.nullifier n) true).usdc = _ := hw.usdc
  rw [exec_getCreditAmount, hc, Option.elim_some, exec_getUsdc, hu, Option.elim_some,
    exec_tokenTransfer]
  rfl

/-- The five reads of a request, in a journal of the right length. -/
theorem exec_readJournal {α : Type} (j : BytesN journalLen)
    (f : BytesN 32 → UInt64 → UInt8 → BytesN 32 → Host τ α) :
    (do let issuerHash ← MonadExcept.ofExcept (readBytes32 j.val offIssuerHash)
        let threshold ← MonadExcept.ofExcept (readU64Be j.val offThreshold)
        let meets ← unwrapOrPanic j.val[offMeets.toNat]? .badJournal
        let nullifier ← MonadExcept.ofExcept (readBytes32 j.val offNullifier)
        let _period ← MonadExcept.ofExcept (readU64Be j.val offPeriod)
        f issuerHash threshold meets nullifier : Host τ α).exec w =
      (f (Journal.parse j).issuerHash (Journal.parse j).threshold (Journal.parse j).meets
        (Journal.parse j).nullifier).exec w := by
  rw [Txn.exec_bind_ok (by rw [Txn.exec_ofExcept, readBytes32_issuerHash]),
    Txn.exec_bind_ok (by rw [Txn.exec_ofExcept, readU64Be_threshold]), get_meets,
    Txn.exec_bind_ok (exec_unwrapOrPanic_some _ _ _),
    Txn.exec_bind_ok (by rw [Txn.exec_ofExcept, readBytes32_nullifier]),
    Txn.exec_bind_ok (by rw [Txn.exec_ofExcept, readU64Be_period])]

theorem exec_requestCredit {w : World τ} {p : Policy} (hw : Configured w p) (b : Address)
    (s : Bytes) (j : Bytes) :
    (requestCredit env b s j).exec w =
      if env.authorized b then
        if h : j.length = journalLen then
          if env.verify p.router s p.imageId (env.sha256 j) then
            settle env (w.logRouterCall ⟨p.router, s, p.imageId, env.sha256 j⟩) p b
              (Journal.parse ⟨j, h⟩)
          else (.error .verifier, w.logRouterCall ⟨p.router, s, p.imageId, env.sha256 j⟩)
        else (.error (.contract .badJournalLength), w)
      else (.error (.unauthorized b), w) := by
  obtain ⟨a, ha⟩ := hw.admin
  unfold requestCredit
  rw [exec_requireAuth, Txn.exec_bind_ok (by rw [exec_assertInit, ha]), exec_panicIf,
    exec_getImageId, hw.imageId, Option.elim_some, exec_getRouter, hw.router, Option.elim_some,
    exec_routerVerify]
  refine congrArg (fun r => if env.authorized b then r else _) ?_
  by_cases h : j.length = journalLen
  · rw [if_neg (not_not.mpr h), dif_pos h]
    refine congrArg (fun r => if env.verify p.router s p.imageId (env.sha256 j) then r else _) ?_
    rw [exec_readJournal _ ⟨j, h⟩, Txn.exec_bind_ok (exec_persistentHas _ _), exec_panicIf,
      exec_getRequiredThreshold,
      show (w.logRouterCall _).requiredThreshold = _ from hw.requiredThreshold, Option.elim_some,
      exec_panicIf, exec_panicIf, Txn.exec_bind_ok (exec_persistentHas _ _), exec_panicIf,
      exec_disburse env (hw.logRouterCall _)]
    unfold settle policyError World.registered World.spent
    split_ifs <;> rfl
  · rw [if_pos h, dif_neg h]

theorem exec_creditLine (b : Address) :
    (creditLine b : Host τ Int).exec w = (.ok ((w.credit b).getD 0), w) := rfl

end ZkUnderwrite.Contract
