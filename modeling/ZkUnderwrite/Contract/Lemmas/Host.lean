import ZkUnderwrite.Contract.Policy

/-! What the host operations do. -/

namespace ZkUnderwrite.Contract
open ByteString Transaction

variable {τ α : Type} (w : World τ)

variable {w} in
theorem admin_of_empty (he : w.storage = Storage.empty) : w.admin = none := by
  rw [World.admin, he]; rfl

/-! ## Running the host operations -/

@[simp] theorem exec_panicWithError (e : Error) :
    (panicWithError e : Host τ α).exec w = (.error (.contract e), w) := rfl

@[simp] theorem exec_instanceHas (k : DataKey) :
    (instanceHas k : Host τ Bool).exec w = (.ok (w.storage.inst.has k), w) := rfl

@[simp] theorem exec_instanceGet (k : DataKey) :
    (instanceGet k : Host τ (Option k.Value)).exec w = (.ok (w.storage.inst k), w) := rfl

@[simp] theorem exec_persistentHas (k : DataKey) :
    (persistentHas k : Host τ Bool).exec w = (.ok (w.storage.pers.has k), w) := rfl

@[simp] theorem exec_persistentSet (k : DataKey) (v : k.Value) :
    (persistentSet k v : Host τ Unit).exec w = (.ok (), w.setPersistent k v) := rfl

@[simp] theorem exec_unwrapOrPanic_some (a : α) (e : Error) :
    (unwrapOrPanic (some a) e : Host τ α).exec w = (.ok a, w) := rfl

@[simp] theorem exec_unwrapOrPanic_none (e : Error) :
    (unwrapOrPanic none e : Host τ α).exec w = (.error (.contract e), w) := rfl

theorem exec_panicIf (c : Prop) [Decidable c] (e : Error) (m : Host τ α) :
    (do if c then panicWithError e
        m : Host τ α).exec w = if c then (.error (.contract e), w) else m.exec w := by
  split
  · rw [Txn.exec_bind_error (exec_panicWithError w e)]
  · rfl

theorem exec_requireAuth (env : Env τ) (a : Address) (m : Host τ α) :
    (do env.requireAuth a; m : Host τ α).exec w =
      if env.authorized a then m.exec w else (.error (.unauthorized a), w) := by
  unfold Env.requireAuth
  split
  · rw [Txn.exec_bind_ok (Txn.exec_pure () w)]
  · rw [Txn.exec_bind_error (Txn.exec_throw _ w)]

theorem exec_routerVerify (env : Env τ) (router : Address) (s : Bytes) (i d : BytesN 32)
    (m : Host τ α) :
    (do env.routerVerify router s i d; m : Host τ α).exec w =
      if env.verify router s i d then m.exec (w.logRouterCall ⟨router, s, i, d⟩)
      else (.error .verifier, w.logRouterCall ⟨router, s, i, d⟩) := by
  unfold Env.routerVerify
  split
  · exact Txn.exec_bind_ok (by rw [Txn.exec_bind_ok (Txn.exec_modify _ w)]; rfl) _
  · exact Txn.exec_bind_error (by rw [Txn.exec_bind_ok (Txn.exec_modify _ w)]; rfl) _

theorem exec_tokenTransfer (env : Env τ) (usdc a b : Address) (n : Int) (m : Host τ α) :
    (do env.tokenTransfer usdc a b n; m : Host τ α).exec w =
      match env.transfer usdc w.token a b n with
      | some t => m.exec (w.setToken t)
      | none => (.error .transfer, w) := by
  unfold Env.tokenTransfer
  cases h : env.transfer usdc w.token a b n with
  | some t => exact Txn.exec_bind_ok (by rw [Txn.exec_bind_ok (Txn.exec_get w), h]; rfl) _
  | none => exact Txn.exec_bind_error (by rw [Txn.exec_bind_ok (Txn.exec_get w), h]; rfl) _

@[simp] theorem logRouterCall_token (c : RouterCall) : (w.logRouterCall c).token = w.token := rfl

/-! ## The state after a payment -/

theorem pers_payOut_nullifier (p : Policy) (b : Address) (n : BytesN 32) (t : τ) :
    (w.payOut p b n t).storage.pers (.nullifier n) = some true := by
  have hn : DataKey.nullifier n ≠ .creditLine b := nofun
  refine (Store.set_of_ne (k := .creditLine b) (v := p.creditAmount) hn).trans ?_
  exact Store.set_self _ _ _

theorem pers_payOut_credit (p : Policy) (b : Address) (n : BytesN 32) (t : τ) :
    (w.payOut p b n t).storage.pers (.creditLine b) = some p.creditAmount := Store.set_self _ _ _

theorem pers_payOut_of_ne {w : World τ} {p : Policy} {b : Address} {n : BytesN 32} {t : τ}
    {k : DataKey} (hn : k ≠ .nullifier n) (hb : k ≠ .creditLine b) :
    (w.payOut p b n t).storage.pers k = w.storage.pers k :=
  (Store.set_of_ne hb).trans (Store.set_of_ne (k := .nullifier n) (v := true) hn)

end ZkUnderwrite.Contract
