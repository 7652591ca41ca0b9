import ZkUnderwrite.Timelock.Host

/-!
# The timelock controller

Operations are scheduled by a proposer, wait at least the minimum delay and are then executed, as calls of
other contracts or, for the controller's own functions, through `__check_auth`.
-/

namespace ZkUnderwrite.Timelock
open ByteString Transaction Contract

variable {V A ω : Type}

/-- The parameters that the batch functions share. -/
structure Batch (V : Type) where
  targets : List Address
  functions : List Symbol
  argsList : List (List V)
  predecessor : BytesN 32
  salt : BytesN 32
deriving DecidableEq

/-! ## The state of an operation -/

namespace Env
variable {B : Base V A} (x : Env B ω) (w : World V A ω) (id : BytesN 32)

def getOperationState : OperationState := B.getOperationState (w.timestamps id) x.timestamp

def operationExists : Bool := x.getOperationState w id ≠ .unset

def isOperationPending : Bool :=
  x.getOperationState w id = .waiting ∨ x.getOperationState w id = .ready

def isOperationReady : Bool := x.getOperationState w id = .ready

def isOperationDone : Bool := x.getOperationState w id = .done

end Env

/-! ## Functions on operation ids -/

section
variable {B : Base V A} (x : Env B ω)

def getMinDelay : Host V A ω UInt32 := do
  match (← get).minDelay with
  | some d => return d
  | none => throw (.timelock .minDelayNotSet)

def validateBatchLengths (b : Batch V) : Host V A ω Unit := do
  if b.targets.length ≠ b.functions.length ∨ b.targets.length ≠ b.argsList.length then
    throw .batchLengthMismatch

variable (B) in
/-- The string hashed for the id of a batch. -/
def batchInput (b : Batch V) : Bytes :=
  B.targetsToXdr b.targets ++ B.functionsToXdr b.functions ++ B.argsListToXdr b.argsList ++
    b.predecessor.val ++ b.salt.val

variable (B) in
def hashOperationBatchInner (b : Batch V) : BytesN 32 := B.keccak256 (batchInput B b)

def emitCallSalt (id salt : BytesN 32) : Host V A ω Unit := do
  if salt ≠ zeroBytes32 then modify (·.publish (.callSalt id salt))

def scheduleOperationIdInner (id : BytesN 32) (delay : UInt32) : Host V A ω Unit := do
  if x.operationExists (← get) id then throw (.timelock .operationAlreadyScheduled)
  let minDelay ← getMinDelay
  if delay < minDelay then throw (.timelock .insufficientDelay)
  if x.timestamp.toNat + delay.toNat < 2 ^ 64 then
    modify (·.setTimestamp id (x.timestamp + delay.toUInt64))
  else throw .overflow

def setExecuteOperationIdInner (id predecessor : BytesN 32) : Host V A ω Unit := do
  if !x.isOperationReady (← get) id then throw (.timelock .invalidOperationState)
  if predecessor ≠ zeroBytes32 ∧ !x.isOperationDone (← get) predecessor then
    throw (.timelock .unexecutedPredecessor)
  modify (·.setTimestamp id B.doneTimestamp)

/-- `env.invoke_contract`. The host refuses a call of the contract that is running. -/
def invokeContract (target : Address) (function : Symbol) (args : List V) : Host V A ω V := do
  if target = B.currentContractAddress then throw .reentry
  match x.invoke target function args (← get).outer with
  | some (v, o) => do modify (·.setOuter o); return v
  | none => throw .callee

variable (B) in
def ensureRole (role : Symbol) (a : Address) : Host V A ω Unit := do
  if !B.access.hasRole (← get).access role a then throw (.missingRole role a)

end

/-! ## The calls of the controller -/

inductive Call (V : Type) where
  | scheduleOp (op : Operation V) (delay : UInt32) (proposer : Address)
  | executeOp (op : Operation V) (executor : Option Address)
  | hashOperationBatch (b : Batch V)
  | scheduleBatch (b : Batch V) (delay : UInt32) (proposer : Address)
  | executeBatch (b : Batch V) (executor : Option Address)
  | cancelOp (operationId : BytesN 32) (canceller : Address)
  | updateDelay (newDelay : UInt32)
  | getMinDelay
  | hashOperation (op : Operation V)
  | getOperationState (operationId : BytesN 32)
  | operationExists (operationId : BytesN 32)
  | isOperationPending (operationId : BytesN 32)
  | isOperationReady (operationId : BytesN 32)
  | isOperationDone (operationId : BytesN 32)
  /-- A function of the `AccessControl` trait. -/
  | access (fnName : Symbol) (args : List V)

inductive Ret (V : Type) where
  | unit
  | id (i : BytesN 32)
  | val (v : V)
  | vals (vs : List V)
  | delay (d : UInt32)
  | state (s : OperationState)
  | bool (b : Bool)

def Call.fnName : Call V → Symbol
  | .scheduleOp .. => ⟨"schedule_op"⟩
  | .executeOp .. => ⟨"execute_op"⟩
  | .hashOperationBatch .. => ⟨"hash_operation_batch"⟩
  | .scheduleBatch .. => ⟨"schedule_batch"⟩
  | .executeBatch .. => ⟨"execute_batch"⟩
  | .cancelOp .. => ⟨"cancel_op"⟩
  | .updateDelay .. => ⟨"update_delay"⟩
  | .getMinDelay => ⟨"get_min_delay"⟩
  | .hashOperation .. => ⟨"hash_operation"⟩
  | .getOperationState .. => ⟨"get_operation_state"⟩
  | .operationExists .. => ⟨"operation_exists"⟩
  | .isOperationPending .. => ⟨"is_operation_pending"⟩
  | .isOperationReady .. => ⟨"is_operation_ready"⟩
  | .isOperationDone .. => ⟨"is_operation_done"⟩
  | .access fnName _ => fnName

/-- The operations of `stellar_governance::timelock`. Where they succeed they agree with the functions on
ids above; `toArgs` is how the host passes the arguments of a call. -/
structure Governance (V A ω : Type) extends Base V A where
  toArgs : Call V → List V
  hashOperation : Operation V → BytesN 32
  scheduleOperation : Env toBase ω → Operation V → UInt32 → Host V A ω (BytesN 32)
  setExecuteOperation : Env toBase ω → Operation V → Host V A ω Unit
  executeOperation : Env toBase ω → Operation V → Host V A ω V
  cancelOperation : Env toBase ω → BytesN 32 → Host V A ω Unit
  schedule_ok : ∀ {x op delay w id w'}, (scheduleOperation x op delay).exec w = (.ok id, w') →
    id = hashOperation op ∧ (scheduleOperationIdInner x id delay).exec w = (.ok (), w')
  setExecute_ok : ∀ {x op w w'}, (setExecuteOperation x op).exec w = (.ok (), w') →
    (setExecuteOperationIdInner x (hashOperation op) op.predecessor).exec w = (.ok (), w')
  execute_ok : ∀ {x op w v w'}, (executeOperation x op).exec w = (.ok v, w') → ∃ w₁,
    (setExecuteOperationIdInner x (hashOperation op) op.predecessor).exec w = (.ok (), w₁) ∧
    (invokeContract x op.target op.function op.args).exec w₁ = (.ok v, w')
  cancel_ok : ∀ {x id w w'}, (cancelOperation x id).exec w = (.ok (), w') →
    x.isOperationPending w id = true ∧ w' = w.removeTimestamp id

/-! ## Authorisation -/

section
variable (G : Governance V A ω) (x : Env G.toBase ω)

def requireAuthForArgs (a : Address) (intent : ExecuteIntent V) : Host V A ω Unit :=
  if x.authorizedForArgs a intent then pure () else throw (.unauthorized a)

/-- One round of the loop of `__check_auth`. -/
def checkContext : AuthContext V × OperationMeta → Host V A ω Unit
  | (.contract contract fnName args, m) => do
      if contract ≠ G.currentContractAddress then throw (.timelock .unauthorized)
      if G.access.memberCount (← get).access executorRole ≠ 0 then
        match m.executor with
        | some executor => do
            ensureRole G.toBase executorRole executor
            requireAuthForArgs G x executor ⟨contract, fnName, args, m.predecessor, m.salt⟩
        | none => throw (.timelock .unauthorized)
      G.setExecuteOperation x ⟨contract, fnName, args, m.predecessor, m.salt⟩
  | (.other, _) => throw (.timelock .unauthorized)

/-- `__check_auth`. -/
def checkAuth (contextMeta : List OperationMeta) (authContexts : List (AuthContext V)) :
    Host V A ω Unit := do
  if authContexts.length ≠ contextMeta.length then throw (.timelock .unauthorized)
  (authContexts.zip contextMeta).forM (checkContext G x)

/-- `require_auth` during a call `c` of the controller. The host asks `__check_auth` for the controller's
own authorisation, which an entry must carry for this very call. -/
def requireAuth [DecidableEq V] (c : Call V) (a : Address) : Host V A ω Unit :=
  if a = G.currentContractAddress then
    match x.selfAuth with
    | some (contexts, contextMeta) =>
        if .contract G.currentContractAddress c.fnName (G.toArgs c) ∈ contexts then
          checkAuth G x contextMeta contexts
        else throw (.unauthorized a)
    | none => throw (.unauthorized a)
  else if x.authorized a then pure () else throw (.unauthorized a)

end

/-! ## The entry points

`auth` is `require_auth` in the call that is running. -/

section
variable (G : Governance V A ω) (x : Env G.toBase ω) (auth : Address → Host V A ω Unit)

def constructor (minDelay : UInt32) (proposers executors : List Address) (admin : Option Address)
    (outer : ω) : World V A ω :=
  let C := G.access
  let access := C.setAdmin G.currentContractAddress C.empty
  let access := match admin with
    | some bootstrapAdmin =>
        C.grantRoleNoAuth bootstrapAdmin bootstrapAdminRole
          (C.setRoleAdminNoAuth cancellerRole bootstrapAdminRole
            (C.setRoleAdminNoAuth executorRole bootstrapAdminRole
              (C.setRoleAdminNoAuth proposerRole bootstrapAdminRole access)))
    | none => access
  let access := proposers.foldl (fun s proposer =>
    C.grantRoleNoAuth proposer cancellerRole (C.grantRoleNoAuth proposer proposerRole s)) access
  let access := executors.foldl (fun s executor => C.grantRoleNoAuth executor executorRole s) access
  ⟨fun _ => none, some minDelay, access, outer, []⟩

def onlyRole (role : Symbol) (a : Address) : Host V A ω Unit := do
  ensureRole G.toBase role a
  auth a

def onlyAdmin : Host V A ω Unit := do
  match G.access.getAdmin (← get).access with
  | some admin => auth admin
  | none => throw .adminNotSet

/-- Where the executor role has members, one of them must execute. -/
def onlyExecutor (executor : Option Address) : Host V A ω Unit := do
  if G.access.memberCount (← get).access executorRole ≠ 0 then
    match executor with
    | some executor => do
        ensureRole G.toBase executorRole executor
        auth executor
    | none => throw .missingExecutor

def scheduleOp (op : Operation V) (delay : UInt32) (proposer : Address) : Host V A ω (BytesN 32) := do
  onlyRole G auth proposerRole proposer
  let opId ← G.scheduleOperation x op delay
  emitCallSalt opId op.salt
  return opId

def executeOp (op : Operation V) (executor : Option Address) : Host V A ω V := do
  onlyExecutor G auth executor
  G.executeOperation x op

def hashOperationBatch (b : Batch V) : Host V A ω (BytesN 32) := do
  validateBatchLengths b
  return hashOperationBatchInner G.toBase b

/-- The calls of a batch, which the source takes from the three vectors at one index. -/
def Batch.calls (b : Batch V) : List (Nat × Address × Symbol × List V) :=
  (b.targets.zip (b.functions.zip b.argsList)).mapIdx Prod.mk

def scheduleBatch (b : Batch V) (delay : UInt32) (proposer : Address) : Host V A ω (BytesN 32) := do
  onlyRole G auth proposerRole proposer
  validateBatchLengths b
  let batchId := hashOperationBatchInner G.toBase b
  scheduleOperationIdInner x batchId delay
  b.calls.forM fun (i, target, function, args) => modify (·.publish
    (.batchCallScheduled batchId i target function args b.predecessor b.salt delay))
  emitCallSalt batchId b.salt
  return batchId

def executeCall (batchId predecessor salt : BytesN 32) :
    Nat × Address × Symbol × List V → Host V A ω V
  | (i, target, function, args) => do
      let result ← invokeContract x target function args
      modify (·.publish (.batchCallExecuted batchId i target function args predecessor salt))
      return result

def executeBatch (b : Batch V) (executor : Option Address) : Host V A ω (List V) := do
  validateBatchLengths b
  let batchId := hashOperationBatchInner G.toBase b
  onlyExecutor G auth executor
  setExecuteOperationIdInner x batchId b.predecessor
  b.calls.mapM (executeCall G x batchId b.predecessor b.salt)

def cancelOp (operationId : BytesN 32) (canceller : Address) : Host V A ω Unit := do
  onlyRole G auth cancellerRole canceller
  G.cancelOperation x operationId

def updateDelay (newDelay : UInt32) : Host V A ω Unit := do
  onlyAdmin G auth
  modify (·.setMinDelay newDelay)

def manageAccess (fnName : Symbol) (args : List V) : Host V A ω Unit := do
  match G.access.manage fnName args x.ledger (← get).access with
  | some (a, s) => do auth a; modify (·.setAccess s)
  | none => throw .accessControl

end

section
variable (G : Governance V A ω) (x : Env G.toBase ω)

def perform [DecidableEq V] (c : Call V) : Host V A ω (Ret V) :=
  let auth := requireAuth G x c
  match c with
  | .scheduleOp op delay proposer => do return .id (← scheduleOp G x auth op delay proposer)
  | .executeOp op executor => do return .val (← executeOp G x auth op executor)
  | .hashOperationBatch b => do return .id (← hashOperationBatch G b)
  | .scheduleBatch b delay proposer => do return .id (← scheduleBatch G x auth b delay proposer)
  | .executeBatch b executor => do return .vals (← executeBatch G x auth b executor)
  | .cancelOp id canceller => do cancelOp G x auth id canceller; return .unit
  | .updateDelay d => do updateDelay G auth d; return .unit
  | .getMinDelay => do return .delay (← getMinDelay)
  | .hashOperation op => return .id (G.hashOperation op)
  | .getOperationState id => do return .state (x.getOperationState (← get) id)
  | .operationExists id => do return .bool (x.operationExists (← get) id)
  | .isOperationPending id => do return .bool (x.isOperationPending (← get) id)
  | .isOperationReady id => do return .bool (x.isOperationReady (← get) id)
  | .isOperationDone id => do return .bool (x.isOperationDone (← get) id)
  | .access fnName args => do manageAccess G x auth fnName args; return .unit

end

/-! ## Runs -/

section
variable [DecidableEq V] (G : Governance V A ω)

/-- A call of the controller, or any step of the other contracts. -/
inductive Input (G : Governance V A ω) where
  | call (x : Env G.toBase ω) (c : Call V)
  | outside (o : ω)

def step (w : World V A ω) : Input G → Except Fault (Ret V) × World V A ω
  | .call x c => atomically (perform G x c) w
  | .outside o => (.ok .unit, w.setOuter o)

end

end ZkUnderwrite.Timelock
