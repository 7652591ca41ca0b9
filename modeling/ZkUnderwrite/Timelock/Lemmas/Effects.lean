import ZkUnderwrite.Timelock.Lemmas.Controller

/-!
# One effect for each call that succeeds
-/

namespace ZkUnderwrite.Timelock
open ByteString Transaction Contract

variable {V A ω : Type} {G : Governance V A ω} {x : Env G.toBase ω} {w w₁ w' : World V A ω}

/-! ## Loops -/

theorem exec_publishAll {β : Type} {l : List β} {f : β → Event V} {u : Unit} :
    (l.forM fun b => (modify (·.publish (f b)) : Host V A ω Unit)).exec w = (.ok u, w') ↔
      w' = { w with events := w.events ++ l.map f } := by
  induction l generalizing w with
  | nil => simp [List.forM_eq_forM, eq_comm]
  | cons b l ih =>
      change (l.forM fun b => (modify (·.publish (f b)) : Host V A ω Unit)).exec (w.publish (f b)) =
        _ ↔ _
      rw [ih]
      simp [World.publish, List.append_assoc]

theorem exec_executeCalls {id p s : BytesN 32} {l : List (Nat × Address × Symbol × List V)}
    {vs : List V} (h : (l.mapM (executeCall G x id p s)).exec w = (.ok vs, w')) :
    (∀ q ∈ l, q.2.1 ≠ G.currentContractAddress) ∧
      ∃ o, x.invokeAll (l.map Prod.snd) w.outer = some (vs, o) ∧
        w' = { w with
          outer := o
          events := w.events ++ l.map fun (i, t, f, as) => .batchCallExecuted id i t f as p s } := by
  induction l generalizing w vs with
  | nil =>
      cases h
      exact ⟨fun q hq => (nomatch hq), w'.outer, rfl, by simp⟩
  | cons q l ih =>
      obtain ⟨i, t, f, as⟩ := q
      rw [List.mapM_cons] at h
      obtain ⟨v, w₁, hcall, hrest⟩ := Txn.exec_bind_eq_ok.mp h
      obtain ⟨vs', w₂, hmap, hret⟩ := Txn.exec_bind_eq_ok.mp hrest
      cases hret
      obtain ⟨_, _, hinv, hpub⟩ := Txn.exec_bind_eq_ok.mp hcall
      obtain ⟨ht, o, ho, rfl⟩ := exec_invokeContract.mp hinv
      cases hpub
      obtain ⟨hts, o', ho', rfl⟩ := ih hmap
      refine ⟨fun q hq => ?_, o', ?_, ?_⟩
      · rcases List.mem_cons.mp hq with rfl | hq
        · exact ht
        · exact hts q hq
      · have ho' : x.invokeAll (l.map Prod.snd) o = some (vs', o') := ho'
        simp [Env.invokeAll, ho, ho']
      · simp [World.publish, World.setOuter]

/-! ## Roles -/

section
variable [DecidableEq V] {c : Call V} {u : Unit}

theorem exec_onlyRole {role : Symbol} {a : Address}
    (h : (onlyRole G (requireAuth G x c) role a).exec w = (.ok u, w')) :
    G.access.hasRole w.access role a = true ∧ Authorized G x c w a w' := by
  obtain ⟨_, _, hrun, hauth⟩ := Txn.exec_bind_eq_ok.mp h
  obtain ⟨hrole, rfl⟩ := exec_ensureRole.mp hrun
  exact ⟨hrole, exec_requireAuth hauth⟩

theorem exec_onlyAdmin (h : (onlyAdmin G (requireAuth G x c)).exec w = (.ok u, w')) :
    ∃ admin, G.access.getAdmin w.access = some admin ∧ Authorized G x c w admin w' := by
  unfold onlyAdmin at h
  rw [Txn.exec_get_bind] at h
  cases ha : G.access.getAdmin w.access with
  | none => rw [ha] at h; cases h
  | some admin =>
      rw [ha] at h
      exact ⟨admin, rfl, exec_requireAuth h⟩

variable (G x) in
/-- Anyone executes as long as nobody has the executor role. -/
inductive OnlyExecutor (c : Call V) (w : World V A ω) : Option Address → World V A ω → Prop
  | anyone (executor : Option Address) (none : G.access.memberCount w.access executorRole = 0) :
      OnlyExecutor c w executor w
  | member (executor : Address) (w₁ : World V A ω)
      (role : G.access.hasRole w.access executorRole executor = true)
      (auth : Authorized G x c w executor w₁) : OnlyExecutor c w (some executor) w₁

omit [DecidableEq V] in
theorem OnlyExecutor.marks {executor : Option Address} (h : OnlyExecutor G x c w executor w₁) :
    Marks G x w w₁ := by
  cases h with
  | anyone _ _ => exact .refl w
  | member _ _ _ hauth => exact hauth.marks

theorem exec_onlyExecutor {executor : Option Address}
    (h : (onlyExecutor G (requireAuth G x c) executor).exec w = (.ok u, w')) :
    OnlyExecutor G x c w executor w' := by
  unfold onlyExecutor at h
  rw [Txn.exec_get_bind] at h
  by_cases hc : G.access.memberCount w.access executorRole ≠ 0
  · rw [if_pos hc] at h
    cases executor with
    | none => cases h
    | some e =>
        obtain ⟨_, _, hrun, hauth⟩ := Txn.exec_bind_eq_ok.mp h
        obtain ⟨hrole, rfl⟩ := exec_ensureRole.mp hrun
        exact .member e w' hrole (exec_requireAuth hauth)
  · rw [if_neg hc] at h
    cases h
    exact .anyone executor (not_not.mp hc)

/-! ## Effects -/

variable (G x) in
/-- What a call that succeeds does to the controller and to the other contracts. -/
inductive Effect (w : World V A ω) : Call V → World V A ω → Prop
  | schedule {c : Call V} {p : Proposal V} {delay : UInt32} {proposer : Address} {w₁ : World V A ω}
      (call : c.proposes = some (p, delay, proposer)) (valid : p.Valid)
      (role : G.access.hasRole w.access proposerRole proposer = true)
      (auth : Authorized G x c w proposer w₁) (schedulable : Schedulable x w₁ (G.id p) delay) :
      Effect w c { w₁.setTimestamp (G.id p) (x.timestamp + delay.toUInt64) with
        events := w.events ++ p.scheduledEvents (G.id p) delay }
  | execute {c : Call V} {p : Proposal V} {executor : Option Address} {w₁ : World V A ω} {vs : List V}
      {o : ω} (call : c.executes = some (p, executor)) (valid : p.Valid)
      (auth : OnlyExecutor G x c w executor w₁)
      (executable : Executable x w₁ (G.id p) p.predecessor)
      (targets : ∀ q ∈ p.calls, q.1 ≠ G.currentContractAddress)
      (calls : x.invokeAll p.calls w.outer = some (vs, o)) :
      Effect w c { w₁.setTimestamp (G.id p) G.doneTimestamp with
        outer := o, events := w.events ++ p.executedEvents (G.id p) }
  | cancel {id : BytesN 32} {canceller : Address} {w₁ : World V A ω}
      (role : G.access.hasRole w.access cancellerRole canceller = true)
      (auth : Authorized G x (.cancelOp id canceller) w canceller w₁)
      (pending : x.isOperationPending w₁ id = true) :
      Effect w (.cancelOp id canceller) (w₁.removeTimestamp id)
  | updateDelay {d : UInt32} {admin : Address} {w₁ : World V A ω}
      (admin_eq : G.access.getAdmin w.access = some admin)
      (auth : Authorized G x (.updateDelay d) w admin w₁) :
      Effect w (.updateDelay d) (w₁.setMinDelay d)
  | access {fnName : Symbol} {args : List V} {a : Address} {s : A} {w₁ : World V A ω}
      (manage : G.access.manage fnName args x.ledger w.access = some (a, s))
      (auth : Authorized G x (.access fnName args) w a w₁) :
      Effect w (.access fnName args) (w₁.setAccess s)
  | read {c : Call V} (call : c.executes = none) : Effect w c w

omit [DecidableEq V] in
/-- A call changes other contracts by making the calls of a proposal only. -/
theorem Effect.outer (h : Effect G x w c w') : w'.outer = w.outer ∨
    ∃ p executor vs, c.executes = some (p, executor) ∧
      x.invokeAll p.calls w.outer = some (vs, w'.outer) := by
  cases h with
  | schedule _ _ _ hauth _ => exact .inl hauth.marks.outer
  | execute hc _ _ _ _ hcalls => exact .inr ⟨_, _, _, hc, hcalls⟩
  | cancel _ hauth _ => exact .inl hauth.marks.outer
  | updateDelay _ hauth => exact .inl hauth.marks.outer
  | access _ hauth => exact .inl hauth.marks.outer
  | read => exact .inl rfl

omit [DecidableEq V] in
/-- A call that executes a proposal marks its id, from the state that its authorisation led to. -/
theorem Effect.executes {p : Proposal V} {executor : Option Address} (h : Effect G x w c w')
    (hc : c.executes = some (p, executor)) :
    ∃ w₁, OnlyExecutor G x c w executor w₁ ∧ Executable x w₁ (G.id p) p.predecessor ∧
      w'.timestamps (G.id p) = some G.doneTimestamp := by
  cases h with
  | schedule hp _ _ _ _ =>
      cases c with
      | executeOp | executeBatch => cases hp
      | _ => cases hc
  | execute hc' _ hauth hx _ _ =>
      cases hc.symm.trans hc'
      exact ⟨_, hauth, hx, Function.update_self ..⟩
  | read hno => cases hno.symm.trans hc
  | cancel _ _ _ | updateDelay _ _ | access _ _ => cases hc

variable (G) in
theorem schedule_op_ok {o : Operation V} {delay : UInt32} {proposer : Address} {id : BytesN 32}
    (h : (scheduleOp G x (requireAuth G x c) o delay proposer).exec w = (.ok id, w'))
    (call : c.proposes = some (.op o, delay, proposer)) : Effect G x w c w' := by
  obtain ⟨_, w₁, hrole, hrest⟩ := Txn.exec_bind_eq_ok.mp h
  obtain ⟨hr, hauth⟩ := exec_onlyRole hrole
  obtain ⟨_, w₂, hsched, hsalt⟩ := Txn.exec_bind_eq_ok.mp hrest
  obtain ⟨rfl, hs⟩ := G.schedule_ok hsched
  obtain ⟨hok, rfl⟩ := exec_scheduleOperationIdInner.mp hs
  rw [Txn.exec_bind_ok exec_emitCallSalt] at hsalt
  cases hsalt
  have he : (w₁.setTimestamp (G.hashOperation o) (x.timestamp + delay.toUInt64)).events = w.events :=
    hauth.marks.events
  rw [he]
  exact .schedule call trivial hr hauth hok

theorem schedule_batch_ok {b : Batch V} {delay : UInt32} {proposer : Address} {id : BytesN 32}
    (h : (scheduleBatch G x (requireAuth G x c) b delay proposer).exec w = (.ok id, w'))
    (call : c.proposes = some (.batch b, delay, proposer)) : Effect G x w c w' := by
  obtain ⟨_, w₁, hrole, hrest⟩ := Txn.exec_bind_eq_ok.mp h
  obtain ⟨hr, hauth⟩ := exec_onlyRole hrole
  obtain ⟨_, w₂, hlen, hrest₁⟩ := Txn.exec_bind_eq_ok.mp hrest
  obtain ⟨hvalid, rfl⟩ := exec_validateBatchLengths.mp hlen
  obtain ⟨_, w₃, hs, hrest₂⟩ := Txn.exec_bind_eq_ok.mp hrest₁
  obtain ⟨hok, rfl⟩ := exec_scheduleOperationIdInner.mp hs
  obtain ⟨_, w₄, hpub, hsalt⟩ := Txn.exec_bind_eq_ok.mp hrest₂
  have hw₄ := exec_publishAll.mp hpub
  rw [Txn.exec_bind_ok exec_emitCallSalt] at hsalt
  cases hsalt
  have he : w₂.events = w.events := hauth.marks.events
  have heff := Effect.schedule call hvalid hr hauth hok
  simp only [hw₄, Proposal.scheduledEvents, World.setTimestamp, List.append_assoc, he] at heff ⊢
  exact heff

theorem execute_op_ok {o : Operation V} {executor : Option Address} {v : V}
    (h : (executeOp G x (requireAuth G x c) o executor).exec w = (.ok v, w'))
    (call : c.executes = some (.op o, executor)) : Effect G x w c w' := by
  obtain ⟨_, w₁, hexec, hrest⟩ := Txn.exec_bind_eq_ok.mp h
  have hauth := exec_onlyExecutor hexec
  obtain ⟨w₂, hs, hinv⟩ := G.execute_ok hrest
  obtain ⟨hok, rfl⟩ := exec_setExecuteOperationIdInner.mp hs
  obtain ⟨ht, out, hcall, rfl⟩ := exec_invokeContract.mp hinv
  have hcall : x.invoke o.target o.function o.args w.outer = some (v, out) := hauth.marks.outer ▸ hcall
  have hall : x.invokeAll (Proposal.op o).calls w.outer = some ([v], out) := by
    simp [Proposal.calls, Env.invokeAll, hcall]
  have htargets : ∀ q ∈ (Proposal.op o).calls, q.1 ≠ G.currentContractAddress := by
    intro q hq
    cases List.mem_singleton.mp hq
    exact ht
  have heff := Effect.execute call trivial hauth hok htargets hall
  simp only [Proposal.executedEvents, List.append_nil, ← hauth.marks.events] at heff
  exact heff

theorem execute_batch_ok {b : Batch V} {executor : Option Address} {vs : List V}
    (h : (executeBatch G x (requireAuth G x c) b executor).exec w = (.ok vs, w'))
    (call : c.executes = some (.batch b, executor)) : Effect G x w c w' := by
  obtain ⟨_, w₀, hlen, hrest⟩ := Txn.exec_bind_eq_ok.mp h
  obtain ⟨hvalid, rfl⟩ := exec_validateBatchLengths.mp hlen
  obtain ⟨_, w₁, hexec, hrest₁⟩ := Txn.exec_bind_eq_ok.mp hrest
  have hauth := exec_onlyExecutor hexec
  obtain ⟨_, w₂, hs, hmap⟩ := Txn.exec_bind_eq_ok.mp hrest₁
  obtain ⟨hok, rfl⟩ := exec_setExecuteOperationIdInner.mp hs
  obtain ⟨ht, out, hcalls, rfl⟩ := exec_executeCalls hmap
  have hcalls : x.invokeAll (Proposal.batch b).calls w₀.outer = some (vs, out) :=
    hauth.marks.outer ▸ hcalls
  have htargets : ∀ q ∈ (Proposal.batch b).calls, q.1 ≠ G.currentContractAddress := by
    intro q hq
    obtain ⟨q', hq', rfl⟩ := List.mem_map.mp hq
    exact ht q' hq'
  have heff := Effect.execute call hvalid hauth hok htargets hcalls
  rw [← hauth.marks.events] at heff
  exact heff

theorem perform_effect {ret : Ret V} (h : (perform G x c).exec w = (.ok ret, w')) :
    Effect G x w c w' := by
  cases c with
  | scheduleOp o delay proposer =>
      obtain ⟨_, _, hs, hret⟩ := Txn.exec_bind_eq_ok.mp h
      cases hret
      exact schedule_op_ok G hs rfl
  | executeOp o executor =>
      obtain ⟨_, _, he, hret⟩ := Txn.exec_bind_eq_ok.mp h
      cases hret
      exact execute_op_ok he rfl
  | scheduleBatch b delay proposer =>
      obtain ⟨_, _, hs, hret⟩ := Txn.exec_bind_eq_ok.mp h
      cases hret
      exact schedule_batch_ok hs rfl
  | executeBatch b executor =>
      obtain ⟨_, _, he, hret⟩ := Txn.exec_bind_eq_ok.mp h
      cases hret
      exact execute_batch_ok he rfl
  | cancelOp id canceller =>
      obtain ⟨_, _, hcancel, hret⟩ := Txn.exec_bind_eq_ok.mp h
      cases hret
      obtain ⟨_, w₁, hrole, hlib⟩ := Txn.exec_bind_eq_ok.mp hcancel
      obtain ⟨hr, hauth⟩ := exec_onlyRole hrole
      obtain ⟨hp, rfl⟩ := G.cancel_ok hlib
      exact .cancel hr hauth hp
  | updateDelay d =>
      obtain ⟨_, _, hupd, hret⟩ := Txn.exec_bind_eq_ok.mp h
      cases hret
      obtain ⟨_, w₁, hadmin, hset⟩ := Txn.exec_bind_eq_ok.mp hupd
      obtain ⟨admin, ha, hauth⟩ := exec_onlyAdmin hadmin
      cases hset
      exact .updateDelay ha hauth
  | access fnName args =>
      obtain ⟨_, _, hman, hret⟩ := Txn.exec_bind_eq_ok.mp h
      cases hret
      unfold manageAccess at hman
      rw [Txn.exec_get_bind] at hman
      cases hm : G.access.manage fnName args x.ledger w.access with
      | none => rw [hm] at hman; cases hman
      | some p =>
          rw [hm] at hman
          obtain ⟨_, w₁, hauth, hset⟩ := Txn.exec_bind_eq_ok.mp hman
          cases hset
          exact .access hm (exec_requireAuth hauth)
  | hashOperationBatch b =>
      obtain ⟨_, _, hb, hret⟩ := Txn.exec_bind_eq_ok.mp h
      cases hret
      obtain ⟨_, _, hlen, hret⟩ := Txn.exec_bind_eq_ok.mp hb
      cases hret
      obtain ⟨-, rfl⟩ := exec_validateBatchLengths.mp hlen
      exact .read rfl
  | getMinDelay =>
      obtain ⟨_, _, hd, hret⟩ := Txn.exec_bind_eq_ok.mp h
      cases hret
      obtain ⟨-, rfl⟩ := exec_getMinDelay.mp hd
      exact .read rfl
  | hashOperation | getOperationState | operationExists | isOperationPending | isOperationReady
  | isOperationDone =>
      cases h
      exact .read rfl

end

end ZkUnderwrite.Timelock
