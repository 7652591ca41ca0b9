import ZkUnderwrite.Timelock.Proposal

/-!
# What the calls of the controller do

Conditions and results of the functions that the entry points are made of, then the authorisation of the
controller for itself, which executes operations, and one effect for each call that succeeds.
-/

namespace ZkUnderwrite.Timelock
open ByteString Transaction Contract

variable {V A ω α : Type}

/-! ## Functions on ids -/

section
variable {B : Base V A} {x : Env B ω} {w w' : World V A ω} {id : BytesN 32} {u : Unit}

theorem exec_ensureRole {role : Symbol} {a : Address} :
    (ensureRole B role a).exec w = (.ok u, w') ↔
      B.access.hasRole w.access role a = true ∧ w' = w := by
  unfold ensureRole
  rw [Txn.exec_get_bind]
  cases B.access.hasRole w.access role a with
  | true => simp [eq_comm]
  | false => simp

theorem exec_getMinDelay {d : UInt32} :
    (getMinDelay : Host V A ω UInt32).exec w = (.ok d, w') ↔ w.minDelay = some d ∧ w' = w := by
  unfold getMinDelay
  rw [Txn.exec_get_bind]
  cases w.minDelay with
  | none => simp
  | some m => simp [eq_comm]

theorem exec_validateBatchLengths {b : Batch V} :
    (validateBatchLengths b : Host V A ω Unit).exec w = (.ok u, w') ↔
      (Proposal.batch b).Valid ∧ w' = w := by
  unfold validateBatchLengths Proposal.Valid
  split
  · rename_i h
    exact iff_of_false nofun fun hv => h.elim (· hv.1.1) (· hv.1.2)
  · rename_i h
    rw [not_or, not_not, not_not] at h
    rw [Txn.exec_pure, Prod.mk.injEq]
    exact ⟨fun hw => ⟨h, hw.2.symm⟩, fun hw => ⟨rfl, hw.2.symm⟩⟩

theorem exec_emitCallSalt {salt : BytesN 32} :
    (emitCallSalt id salt : Host V A ω Unit).exec w =
      (.ok (), { w with events := w.events ++ if salt = zeroBytes32 then [] else [.callSalt id salt] }) := by
  unfold emitCallSalt
  by_cases h : salt = zeroBytes32
  · simp [h]
  · simp [h, World.publish]

/-- The conditions on scheduling an id. -/
structure Schedulable (x : Env B ω) (w : World V A ω) (id : BytesN 32) (delay : UInt32) : Prop where
  unset : x.getOperationState w id = .unset
  minDelay : ∃ d, w.minDelay = some d ∧ d ≤ delay
  fits : x.timestamp.toNat + delay.toNat < 2 ^ 64

theorem exec_scheduleOperationIdInner {delay : UInt32} :
    (scheduleOperationIdInner x id delay).exec w = (.ok u, w') ↔
      Schedulable x w id delay ∧ w' = w.setTimestamp id (x.timestamp + delay.toUInt64) := by
  unfold scheduleOperationIdInner
  rw [Txn.exec_get_bind, Txn.exec_throwIf_eq_ok, Txn.exec_bind_eq_ok]
  constructor
  · rintro ⟨hex, m, _, hmin, hrest⟩
    obtain ⟨hm, rfl⟩ := exec_getMinDelay.mp hmin
    obtain ⟨hle, hset⟩ := Txn.exec_throwIf_eq_ok.mp hrest
    split at hset
    · rename_i hfits
      cases hset
      refine ⟨⟨?_, ⟨m, hm, UInt32.not_lt.mp hle⟩, hfits⟩, rfl⟩
      simpa [Env.operationExists] using hex
    · cases hset
  · rintro ⟨⟨hunset, ⟨m, hm, hle⟩, hfits⟩, rfl⟩
    refine ⟨by simp [Env.operationExists, hunset], m, w, exec_getMinDelay.mpr ⟨hm, rfl⟩, ?_⟩
    refine Txn.exec_throwIf_eq_ok.mpr ⟨UInt32.not_lt.mpr hle, ?_⟩
    rw [if_pos hfits]
    rfl

/-- The conditions on executing an id after a predecessor. -/
structure Executable (x : Env B ω) (w : World V A ω) (id predecessor : BytesN 32) : Prop where
  ready : x.getOperationState w id = .ready
  predecessor : predecessor = zeroBytes32 ∨ x.getOperationState w predecessor = .done

theorem exec_setExecuteOperationIdInner {predecessor : BytesN 32} :
    (setExecuteOperationIdInner x id predecessor).exec w = (.ok u, w') ↔
      Executable x w id predecessor ∧ w' = w.setTimestamp id B.doneTimestamp := by
  unfold setExecuteOperationIdInner
  rw [Txn.exec_get_bind, Txn.exec_throwIf_eq_ok, Txn.exec_get_bind, Txn.exec_throwIf_eq_ok]
  simp only [Env.isOperationReady, Env.isOperationDone, Bool.not_eq_true', decide_eq_false_iff_not,
    not_not, not_and, Txn.exec_modify, Prod.mk.injEq, true_and]
  constructor
  · rintro ⟨hr, hp, hw⟩
    exact ⟨⟨hr, or_iff_not_imp_left.mpr hp⟩, hw.symm⟩
  · rintro ⟨⟨hr, hp⟩, hw⟩
    exact ⟨hr, or_iff_not_imp_left.mp hp, hw.symm⟩

theorem exec_invokeContract {target : Address} {function : Symbol} {args : List V} {v : V} :
    (invokeContract x target function args).exec w = (.ok v, w') ↔
      target ≠ B.currentContractAddress ∧
        ∃ o, x.invoke target function args w.outer = some (v, o) ∧ w' = w.setOuter o := by
  unfold invokeContract
  rw [Txn.exec_throwIf_eq_ok, Txn.exec_get_bind]
  refine and_congr_right fun _ => ?_
  cases x.invoke target function args w.outer with
  | none => simp
  | some p =>
      constructor
      · intro h
        cases h
        exact ⟨p.2, rfl, rfl⟩
      · rintro ⟨_, h, rfl⟩
        cases h
        rfl

end

/-! ## The controller's own authorisation -/

section
variable {G : Governance V A ω} {x : Env G.toBase ω} {w w₁ w₂ : World V A ω} {u : Unit}

theorem getOperationState_congr {id : BytesN 32} (h : w₁.timestamps id = w.timestamps id) :
    x.getOperationState w₁ id = x.getOperationState w id := congrArg (G.getOperationState · _) h

theorem getOperationState_done {id : BytesN 32} (h : w.timestamps id = some G.doneTimestamp) :
    x.getOperationState w id = .done :=
  (congrArg (G.getOperationState · _) h).trans (G.state_done _)

variable (G x) in
/-- `__check_auth` can execute the operation `o` on the controller itself. -/
structure Markable (w : World V A ω) (o : Operation V) : Prop where
  target : o.target = G.currentContractAddress
  executable : Executable x w (G.hashOperation o) o.predecessor
  executor : G.access.memberCount w.access executorRole ≠ 0 →
    ∃ e, G.access.hasRole w.access executorRole e = true ∧ x.authorizedForArgs e
      ⟨o.target, o.function, o.args, o.predecessor, o.salt⟩ = true

variable (G) in
/-- The id of the operation is marked as done. -/
def marked (w : World V A ω) (o : Operation V) : World V A ω :=
  w.setTimestamp (G.hashOperation o) G.doneTimestamp

theorem marked_self (w : World V A ω) (o : Operation V) :
    (marked G w o).timestamps (G.hashOperation o) = some G.doneTimestamp := Function.update_self ..

theorem marked_of_ne {id : BytesN 32} {o : Operation V} (h : id ≠ G.hashOperation o)
    (w : World V A ω) : (marked G w o).timestamps id = w.timestamps id := Function.update_of_ne h ..

variable (G x) in
/-- All that happens between the two states is that `__check_auth` executes operations on the controller
itself, one after the other. -/
inductive Marks : World V A ω → World V A ω → Prop
  | refl (w : World V A ω) : Marks w w
  | mark {w w₁ : World V A ω} {o : Operation V} (first : Markable G x w o)
      (rest : Marks (marked G w o) w₁) : Marks w w₁

theorem Marks.trans (h : Marks G x w w₁) (h' : Marks G x w₁ w₂) : Marks G x w w₂ := by
  induction h with
  | refl _ => exact h'
  | mark hfirst _ ih => exact .mark hfirst (ih h')

/-- Only entries are written. -/
theorem Marks.frame (h : Marks G x w w₁) : w₁ = { w with timestamps := w₁.timestamps } := by
  induction h with
  | refl _ => rfl
  | mark _ _ ih => exact ih

theorem Marks.access (h : Marks G x w w₁) : w₁.access = w.access := by rw [h.frame]

theorem Marks.minDelay (h : Marks G x w w₁) : w₁.minDelay = w.minDelay := by rw [h.frame]

theorem Marks.outer (h : Marks G x w w₁) : w₁.outer = w.outer := by rw [h.frame]

theorem Marks.events (h : Marks G x w w₁) : w₁.events = w.events := by rw [h.frame]

/-- An entry that was written is that of an operation that was ready and is done. -/
theorem Marks.state (h : Marks G x w w₁) (id : BytesN 32) :
    w₁.timestamps id = w.timestamps id ∨
      (x.getOperationState w id = .ready ∧ w₁.timestamps id = some G.doneTimestamp) := by
  induction h with
  | refl _ => exact .inl rfl
  | @mark w w₁ o hfirst _ ih =>
      by_cases hid : id = G.hashOperation o
      · subst hid
        rcases ih with he | ⟨hr, -⟩
        · exact .inr ⟨hfirst.executable.ready, he.trans (marked_self w o)⟩
        · cases hr.symm.trans (getOperationState_done (marked_self w o))
      · have he := marked_of_ne hid w
        rw [he, getOperationState_congr he] at ih
        exact ih

theorem Marks.done (h : Marks G x w w₁) {id : BytesN 32} (hd : x.getOperationState w id = .done) :
    x.getOperationState w₁ id = .done := by
  rcases h.state id with he | ⟨hr, -⟩
  · rw [getOperationState_congr he, hd]
  · rw [hd] at hr
    cases hr

theorem Marks.ready_of (h : Marks G x w w₁) {id : BytesN 32}
    (hr : x.getOperationState w₁ id = .ready) : x.getOperationState w id = .ready := by
  rcases h.state id with he | ⟨hw, -⟩
  · rw [← getOperationState_congr he, hr]
  · exact hw

variable (G x) in
/-- On the way from `w` to `w'` the operation `o` on the controller itself is executed by `__check_auth`,
from the state `m`. -/
structure SelfExecuted (w m w' : World V A ω) (o : Operation V) : Prop where
  before : Marks G x w m
  mark : Markable G x m o
  after : Marks G x (marked G m o) w'

namespace SelfExecuted
variable {m w' : World V A ω} {o : Operation V}

theorem marks (h : SelfExecuted G x w m w' o) : Marks G x w w' := h.before.trans (.mark h.mark h.after)

theorem ready (h : SelfExecuted G x w m w' o) : x.getOperationState w (G.hashOperation o) = .ready :=
  h.before.ready_of h.mark.executable.ready

theorem done (h : SelfExecuted G x w m w' o) :
    w'.timestamps (G.hashOperation o) = some G.doneTimestamp := by
  rcases h.after.state (G.hashOperation o) with he | ⟨-, hd⟩
  · exact he.trans (marked_self m o)
  · exact hd

theorem mono (h : SelfExecuted G x w m w₁ o) (hm : Marks G x w₁ w₂) : SelfExecuted G x w m w₂ o :=
  ⟨h.before, h.mark, h.after.trans hm⟩

theorem of_marks (hm : Marks G x w w₁) (h : SelfExecuted G x w₁ m w₂ o) : SelfExecuted G x w m w₂ o :=
  ⟨hm.trans h.before, h.mark, h.after⟩

end SelfExecuted

/-- Every entry that was written is that of an operation that was executed on the way. -/
theorem Marks.entries (h : Marks G x w w₁) (id : BytesN 32) : w₁.timestamps id = w.timestamps id ∨
    ∃ o m, id = G.hashOperation o ∧ SelfExecuted G x w m w₁ o := by
  induction h with
  | refl _ => exact .inl rfl
  | @mark w w₁ o hfirst hrest ih =>
      by_cases hid : id = G.hashOperation o
      · exact .inr ⟨o, w, hid, .refl w, hfirst, hrest⟩
      · rcases ih with he | ⟨o', m, hid', hs⟩
        · exact .inl (he.trans (marked_of_ne hid w))
        · exact .inr ⟨o', m, hid', hs.of_marks (.mark hfirst (.refl _))⟩

theorem setExecute_marked {o : Operation V} (ht : o.target = G.currentContractAddress)
    (hx : G.access.memberCount w.access executorRole ≠ 0 →
      ∃ e, G.access.hasRole w.access executorRole e = true ∧ x.authorizedForArgs e
        ⟨o.target, o.function, o.args, o.predecessor, o.salt⟩ = true)
    (h : (G.setExecuteOperation x o).exec w = (.ok u, w₁)) :
    SelfExecuted G x w w w₁ o := by
  obtain ⟨hex, rfl⟩ := exec_setExecuteOperationIdInner.mp (G.setExecute_ok h)
  exact ⟨.refl w, ⟨ht, hex, hx⟩, .refl _⟩

theorem exec_requireAuthForArgs {a : Address} {i : ExecuteIntent V} :
    (requireAuthForArgs G x a i).exec w = (.ok u, w₁) ↔ x.authorizedForArgs a i = true ∧ w₁ = w := by
  unfold requireAuthForArgs
  split
  · rename_i h
    simp [h, eq_comm]
  · rename_i h
    simp [h]

/-- A round of `__check_auth` executes the operation on the controller that its context asks for. -/
theorem exec_checkContext {p : AuthContext V × OperationMeta}
    (h : (checkContext G x p).exec w = (.ok u, w₁)) :
    ∃ fnName args, p.1 = .contract G.currentContractAddress fnName args ∧
      SelfExecuted G x w w w₁ ⟨G.currentContractAddress, fnName, args, p.2.predecessor, p.2.salt⟩ := by
  obtain ⟨ctx, m⟩ := p
  cases ctx with
  | other => cases h
  | contract contract fnName args =>
      obtain ⟨hself, hrest⟩ := Txn.exec_throwIf_eq_ok.mp h
      cases not_not.mp hself
      rw [Txn.exec_get_bind] at hrest
      by_cases hc : G.access.memberCount w.access executorRole ≠ 0
      · rw [if_pos hc] at hrest
        cases he : m.executor with
        | none => rw [he] at hrest; cases hrest
        | some e =>
            rw [he] at hrest
            obtain ⟨_, _, hrun, hauthset⟩ := Txn.exec_bind_eq_ok.mp hrest
            obtain ⟨hrole, rfl⟩ := exec_ensureRole.mp hrun
            obtain ⟨_, _, hreq, hset⟩ := Txn.exec_bind_eq_ok.mp hauthset
            obtain ⟨hauth, rfl⟩ := exec_requireAuthForArgs.mp hreq
            exact ⟨fnName, args, rfl, setExecute_marked rfl (fun _ => ⟨e, hrole, hauth⟩) hset⟩
      · rw [if_neg hc] at hrest
        exact ⟨fnName, args, rfl, setExecute_marked rfl (fun h => absurd h hc) hrest⟩

theorem exec_checkContexts {l : List (AuthContext V × OperationMeta)}
    (h : (l.forM (checkContext G x)).exec w = (.ok u, w₁)) :
    Marks G x w w₁ ∧ ∀ p ∈ l, ∃ fnName args m,
      p.1 = .contract G.currentContractAddress fnName args ∧
      SelfExecuted G x w m w₁ ⟨G.currentContractAddress, fnName, args, p.2.predecessor, p.2.salt⟩ := by
  induction l generalizing w with
  | nil =>
      cases h
      exact ⟨.refl _, fun p hp => nomatch hp⟩
  | cons p l ih =>
      change (checkContext G x p >>= fun _ => l.forM (checkContext G x)).exec w = _ at h
      obtain ⟨_, w₂, hp, hl⟩ := Txn.exec_bind_eq_ok.mp h
      obtain ⟨f, args, hc, hs⟩ := exec_checkContext hp
      obtain ⟨hm', hall⟩ := ih hl
      refine ⟨hs.marks.trans hm', fun q hq => ?_⟩
      rcases List.mem_cons.mp hq with rfl | hq
      · exact ⟨f, args, w, hc, hs.mono hm'⟩
      · obtain ⟨g, as, m, hc', hs'⟩ := hall q hq
        exact ⟨g, as, m, hc', hs'.of_marks hs.marks⟩

/-- `__check_auth` admits calls of the controller itself only, and has executed an operation for each. -/
theorem exec_checkAuth {ms : List OperationMeta} {ctxs : List (AuthContext V)}
    (h : (checkAuth G x ms ctxs).exec w = (.ok u, w₁)) :
    ∀ ctx ∈ ctxs, ∃ fnName args predecessor salt m,
      ctx = .contract G.currentContractAddress fnName args ∧
      SelfExecuted G x w m w₁ ⟨G.currentContractAddress, fnName, args, predecessor, salt⟩ := by
  obtain ⟨hlen, hrest⟩ := Txn.exec_throwIf_eq_ok.mp h
  obtain ⟨-, hall⟩ := exec_checkContexts hrest
  intro ctx hctx
  rw [← List.map_fst_zip (not_not.mp hlen).le] at hctx
  obtain ⟨p, hp, rfl⟩ := List.mem_map.mp hctx
  obtain ⟨f, args, m, hc, hs⟩ := hall p hp
  exact ⟨f, args, _, _, m, hc, hs⟩

variable (G x) in
/-- `require_auth` accepts an address in a call and leads to a state: another address authorises the
call, the controller does so by executing the operation that stands for the call. -/
inductive Authorized (c : Call V) (w : World V A ω) : Address → World V A ω → Prop
  | external (a : Address) (other : a ≠ G.currentContractAddress) (auth : x.authorized a = true) :
      Authorized c w a w
  | itself (m w₁ : World V A ω) (predecessor salt : BytesN 32)
      (executed : SelfExecuted G x w m w₁ (G.selfOp c predecessor salt)) :
      Authorized c w G.currentContractAddress w₁

theorem Authorized.marks {c : Call V} {a : Address} (h : Authorized G x c w a w₁) : Marks G x w w₁ := by
  cases h with
  | external _ _ _ => exact .refl w
  | itself _ _ _ _ hs => exact hs.marks

theorem exec_requireAuth [DecidableEq V] {c : Call V} {a : Address}
    (h : (requireAuth G x c a).exec w = (.ok u, w₁)) : Authorized G x c w a w₁ := by
  unfold requireAuth at h
  split at h
  · rename_i ha
    subst ha
    split at h
    · rename_i ctxs ms _
      split at h
      · rename_i hmem
        obtain ⟨f, args, p, s, m, hc, hs⟩ := exec_checkAuth h _ hmem
        cases hc
        exact .itself m w₁ p s hs
      · cases h
    · cases h
  · rename_i ha
    split at h
    · rename_i hauth
      cases h
      exact .external a ha hauth
    · cases h

end

end ZkUnderwrite.Timelock
