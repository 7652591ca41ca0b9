import ZkUnderwrite.Lib.Schedule
import ZkUnderwrite.Timelock.Controller

/-!
# Proposals and runs

What can be scheduled, an operation or a batch, and the life of its id over a run of the controller.
-/

namespace ZkUnderwrite.Timelock
open ByteString Transaction Contract Schedule

variable {V A ω : Type}

inductive Proposal (V : Type) where
  | op (o : Operation V)
  | batch (b : Batch V)
deriving DecidableEq

namespace Proposal

def predecessor : Proposal V → BytesN 32
  | .op o => o.predecessor
  | .batch b => b.predecessor

def calls : Proposal V → List (Address × Symbol × List V)
  | .op o => [(o.target, o.function, o.args)]
  | .batch b => b.calls.map Prod.snd

/-- The vectors of a batch have one length. -/
def Valid : Proposal V → Prop
  | .op _ => True
  | .batch b => b.targets.length = b.functions.length ∧ b.targets.length = b.argsList.length

/-- The events of the controller when it schedules the proposal under an id. -/
def scheduledEvents (id : BytesN 32) (delay : UInt32) : Proposal V → List (Event V)
  | .op o => if o.salt = zeroBytes32 then [] else [.callSalt id o.salt]
  | .batch b =>
      b.calls.map (fun (i, target, function, args) =>
        .batchCallScheduled id i target function args b.predecessor b.salt delay) ++
      if b.salt = zeroBytes32 then [] else [.callSalt id b.salt]

def executedEvents (id : BytesN 32) : Proposal V → List (Event V)
  | .op _ => []
  | .batch b => b.calls.map fun (i, target, function, args) =>
      .batchCallExecuted id i target function args b.predecessor b.salt

end Proposal

def Governance.id (G : Governance V A ω) : Proposal V → BytesN 32
  | .op o => G.hashOperation o
  | .batch b => hashOperationBatchInner G.toBase b

/-- The operation on the controller itself that stands for a call of it. -/
def Governance.selfOp (G : Governance V A ω) (c : Call V) (predecessor salt : BytesN 32) :
    Operation V :=
  ⟨G.currentContractAddress, c.fnName, G.toArgs c, predecessor, salt⟩

/-- The call schedules the proposal with a delay, for a proposer. -/
def Call.proposes : Call V → Option (Proposal V × UInt32 × Address)
  | .scheduleOp o delay proposer => some (.op o, delay, proposer)
  | .scheduleBatch b delay proposer => some (.batch b, delay, proposer)
  | _ => none

/-- The call executes the proposal, for an executor. -/
def Call.executes : Call V → Option (Proposal V × Option Address)
  | .executeOp o executor => some (.op o, executor)
  | .executeBatch b executor => some (.batch b, executor)
  | _ => none

/-- What calls made one after the other return and leave behind. -/
def Env.invokeAll {B : Base V A} (x : Env B ω) :
    List (Address × Symbol × List V) → ω → Option (List V × ω)
  | [], o => some ([], o)
  | (target, function, args) :: cs, o => do
      let (v, o) ← x.invoke target function args o
      let (vs, o) ← x.invokeAll cs o
      return (v :: vs, o)

/-! ## Runs -/

section
variable [DecidableEq V] (G : Governance V A ω)

abbrev Turn := Machine.Turn (World V A ω) (Input G) (Except Fault (Ret V))

/-- What the entry under an id says of its operation. -/
def status (w : World V A ω) (id : BytesN 32) : Status UInt64 :=
  match w.timestamps id with
  | none => .unset
  | some t => if t = G.doneTimestamp then .done else .pending t

variable {G}

/-- The time of an input. A step of the other contracts has none. -/
def Input.now : Input G → UInt64
  | .call x _ => x.timestamp
  | .outside _ => 0

end

end ZkUnderwrite.Timelock
