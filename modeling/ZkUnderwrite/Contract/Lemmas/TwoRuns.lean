import ZkUnderwrite.Lib.Relational
import ZkUnderwrite.Contract.Requests
import ZkUnderwrite.Contract.Lemmas.Outcomes

/-!
# Two requests

Two requests that differ in their seals and in the last bytes of their journals, made in the same state:
when the router gives the same verdict on both, they end alike.
-/

namespace ZkUnderwrite.Contract
open ByteString Transaction

variable {τ : Type}

/-! ## The host operations -/

theorem SameState.refl (w : World τ) : SameState w w := ⟨rfl, rfl, rfl⟩

section
variable {α β : Type}

theorem blind_instanceGet (k : DataKey) :
    Blind SameState (instanceGet k : Host τ (Option k.Value)) :=
  fun _ _ h => ⟨congrArg (fun s : Storage => Except.ok (s.inst k)) h.storage, h⟩

theorem blind_persistentHas (k : DataKey) : Blind SameState (persistentHas k : Host τ Bool) :=
  fun _ _ h => ⟨congrArg (fun s : Storage => Except.ok (s.pers.has k)) h.storage, h⟩

theorem blind_persistentSet (k : DataKey) (v : k.Value) :
    Blind SameState (persistentSet k v : Host τ Unit) :=
  blind_modify fun _ _ h =>
    ⟨congrArg (fun s : Storage => { s with pers := s.pers.set k v }) h.storage, h.token, h.events⟩

theorem blind_publish (e : Event) : Blind SameState (publish e : Host τ Unit) :=
  blind_modify fun _ _ h => ⟨h.storage, h.token, congrArg (· ++ [e]) h.events⟩

theorem blind_unwrapOrPanic (o : Option α) (e : Error) :
    Blind SameState (unwrapOrPanic o e : Host τ α) := by
  cases o with
  | none => exact blind_throw _
  | some a => exact blind_pure a

theorem alike_panicIf {c : Prop} [Decidable c] {e : Error} {m m' : Host τ α} {w w' : World τ}
    (hR : SameState w w') (hm : ¬ c → Alike SameState m m' w w') :
    Alike SameState (do if c then panicWithError e
                        m) (do if c then panicWithError e
                               m') w w' := by
  unfold Alike
  rw [exec_panicIf, exec_panicIf]
  split
  · exact ⟨rfl, hR⟩
  · exact hm ‹_›

theorem blind_panicIf (c : Prop) [Decidable c] (e : Error) {m : Host τ α}
    (hm : Blind SameState m) :
    Blind SameState (do if c then panicWithError e
                        m) :=
  fun w w' h => alike_panicIf h fun _ => hm w w' h

theorem blind_tokenTransfer (env : Env τ) (u a b : Address) (n : Int) :
    Blind SameState (env.tokenTransfer u a b n) := by
  intro w w' h
  unfold Env.tokenTransfer Alike
  rw [Txn.exec_bind_ok (Txn.exec_get w), Txn.exec_bind_ok (Txn.exec_get w'), h.token]
  cases env.transfer u w'.token a b n with
  | none => exact ⟨rfl, h⟩
  | some t => exact ⟨rfl, h.storage, rfl, h.events⟩

end

/-! ## Requests -/

section
variable {α : Type} {w w' : World τ}

theorem alike_requireAuth {env env' : Env τ} {a : Address} {m m' : Host τ α}
    (h : env'.authorized a = env.authorized a) (hR : SameState w w')
    (hm : Alike SameState m m' w w') :
    Alike SameState (do env.requireAuth a; m) (do env'.requireAuth a; m') w w' := by
  unfold Alike
  rw [exec_requireAuth, exec_requireAuth, h]
  split
  · exact hm
  · exact ⟨rfl, hR⟩

theorem alike_routerVerify {env env' : Env τ} {a : Address} {s s' : Bytes} {im d d' : BytesN 32}
    {m m' : Host τ α} (h : env'.verify a s' im d' = env.verify a s im d) (hR : SameState w w')
    (hm : ∀ v v', SameState v v' → Alike SameState m m' v v') :
    Alike SameState (do env.routerVerify a s im d; m) (do env'.routerVerify a s' im d'; m') w w' := by
  have hlog : SameState (w.logRouterCall ⟨a, s, im, d⟩) (w'.logRouterCall ⟨a, s', im, d'⟩) :=
    ⟨hR.storage, hR.token, hR.events⟩
  unfold Alike
  rw [exec_routerVerify, exec_routerVerify, h]
  split
  · exact hm _ _ hlog
  · exact ⟨rfl, hlog⟩

/-- A value read from the instance storage, or the error for a missing one. -/
theorem alike_getOrPanic {k : DataKey} {e : Error} {f f' : k.Value → Host τ α}
    (hf : ∀ v, w.storage.inst k = some v → Alike SameState (f v) (f' v) w w) :
    Alike SameState (do let v ← unwrapOrPanic (← instanceGet k) e
                        f v) (do let v ← unwrapOrPanic (← instanceGet k) e
                                 f' v) w w := by
  refine Alike.bind_read rfl rfl rfl (SameState.refl w) fun o ho => ?_
  cases o with
  | none => exact ⟨rfl, SameState.refl w⟩
  | some v =>
      refine Alike.bind_read rfl rfl rfl (SameState.refl w) fun a ha => ?_
      cases ha
      exact hf v (Except.ok.inj ho)

end

/-- The first 73 bytes of a journal determine all values but the period. -/
theorem parse_of_take {j j' : BytesN journalLen} (h : j'.val.take 73 = j.val.take 73) :
    (Journal.parse j').issuerHash = (Journal.parse j).issuerHash ∧
      (Journal.parse j').threshold = (Journal.parse j).threshold ∧
      (Journal.parse j').meets = (Journal.parse j).meets ∧
      (Journal.parse j').nullifier = (Journal.parse j).nullifier := by
  have hslice : ∀ off n, off + n ≤ 73 → slice j'.val off n = slice j.val off n := by
    intro off n hle
    rw [← slice_take hle, h, slice_take hle]
  refine ⟨BytesN.ext (hslice 0 32 (by decide)), ?_, ?_, BytesN.ext (hslice 41 32 (by decide))⟩
  · exact congrArg (fun b => UInt64.ofNat (beNat b)) (hslice 32 8 (by decide))
  · have hget : j'.val[40]? = j.val[40]? := by
      rw [← List.getElem?_take_of_lt (show 40 < 73 by decide), h,
        List.getElem?_take_of_lt (show 40 < 73 by decide)]
    exact Option.some.inj ((get_meets j').symm.trans (hget.trans (get_meets j)))

theorem alike_readJournal {α : Type} {w w' : World τ} (j j' : BytesN journalLen)
    {f f' : BytesN 32 → UInt64 → UInt8 → BytesN 32 → Host τ α}
    (h : j'.val.take 73 = j.val.take 73)
    (hf : ∀ i t m n, Alike SameState (f i t m n) (f' i t m n) w w') :
    Alike SameState
      (do let issuerHash ← MonadExcept.ofExcept (readBytes32 j.val offIssuerHash)
          let threshold ← MonadExcept.ofExcept (readU64Be j.val offThreshold)
          let meets ← unwrapOrPanic j.val[offMeets.toNat]? .badJournal
          let nullifier ← MonadExcept.ofExcept (readBytes32 j.val offNullifier)
          let _period ← MonadExcept.ofExcept (readU64Be j.val offPeriod)
          f issuerHash threshold meets nullifier)
      (do let issuerHash ← MonadExcept.ofExcept (readBytes32 j'.val offIssuerHash)
          let threshold ← MonadExcept.ofExcept (readU64Be j'.val offThreshold)
          let meets ← unwrapOrPanic j'.val[offMeets.toNat]? .badJournal
          let nullifier ← MonadExcept.ofExcept (readBytes32 j'.val offNullifier)
          let _period ← MonadExcept.ofExcept (readU64Be j'.val offPeriod)
          f' issuerHash threshold meets nullifier) w w' := by
  obtain ⟨hi, ht, hm, hn⟩ := parse_of_take h
  unfold Alike
  rw [exec_readJournal, exec_readJournal, hi, ht, hm, hn]
  exact hf _ _ _ _

/-- A request does not see its seal, nor the bytes of its journal from 73 on. -/
theorem requestCredit_alike {P : Platform τ} {w : World τ} {r r' : Request}
    (h : r.Agrees P w r') :
    Alike SameState
      (requestCredit (r.invocation.env P) r.borrower r.sealBytes r.journal)
      (requestCredit (r'.invocation.env P) r'.borrower r'.sealBytes r'.journal) w w := by
  obtain ⟨hb, hauth, hver, hlen, htake⟩ := h
  rw [hb]
  unfold requestCredit
  refine alike_requireAuth hauth (SameState.refl w) ?_
  refine Alike.bind_read rfl ?_ ?_ (SameState.refl w) fun _ _ => ?_
  · rw [exec_assertInit]; cases w.admin <;> rfl
  · rw [exec_assertInit]; cases w.admin <;> rfl
  rw [hlen]
  refine alike_panicIf (SameState.refl w) fun hne => ?_
  have hj : r.journal.length = journalLen := not_not.mp hne
  refine alike_getOrPanic fun im him => alike_getOrPanic fun a ha => ?_
  have hv : r'.verify a r'.sealBytes im (P.sha256 r'.journal) =
      r.verify a r.sealBytes im (P.sha256 r.journal) := by
    have hrouter : w.router = some a := ha
    have hid : w.imageId = some im := him
    unfold Request.verdict at hver
    rw [hrouter, hid] at hver
    exact hver
  refine alike_routerVerify hv (SameState.refl w) fun v v' hR => ?_
  refine alike_readJournal ⟨r.journal, hj⟩ ⟨r'.journal, hlen.trans hj⟩ htake fun i t m n => ?_
  -- Both runs go on with the same program.
  refine Blind.bind (blind_persistentHas _) (fun _ => ?_) _ _ hR
  refine blind_panicIf _ _ ?_
  refine Blind.bind (blind_instanceGet _) fun _ => ?_
  refine Blind.bind (blind_unwrapOrPanic _ _) fun _ => ?_
  refine blind_panicIf _ _ ?_
  refine blind_panicIf _ _ ?_
  refine Blind.bind (blind_persistentHas _) fun _ => ?_
  refine blind_panicIf _ _ ?_
  refine Blind.bind (blind_persistentSet _ _) fun _ => ?_
  refine Blind.bind (blind_instanceGet _) fun _ => ?_
  refine Blind.bind (blind_unwrapOrPanic _ _) fun _ => ?_
  refine Blind.bind (blind_instanceGet _) fun _ => ?_
  refine Blind.bind (blind_unwrapOrPanic _ _) fun _ => ?_
  refine Blind.bind (blind_tokenTransfer _ _ _ _ _) fun _ => ?_
  refine Blind.bind (blind_persistentSet _ _) fun _ => ?_
  exact Blind.bind (blind_publish _) fun _ => blind_pure _

theorem invoke_request_alike {P : Platform τ} {w : World τ} {r r' : Request}
    (h : r.Agrees P w r') : (invoke P r.invocation w).1 = (invoke P r'.invocation w).1 ∧
      SameState (invoke P r.invocation w).2 (invoke P r'.invocation w).2 :=
  ((requestCredit_alike h).bind fun n v v' _ _ hR => blind_pure (Ret.amount n) v v' hR).atomically
    (SameState.refl w)

end ZkUnderwrite.Contract
