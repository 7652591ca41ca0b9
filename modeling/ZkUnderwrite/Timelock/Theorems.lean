import Mathlib.Data.Set.Function
import ZkUnderwrite.Lib.Prefix
import ZkUnderwrite.Timelock.Lemmas.Runs

/-!
# What the delay guarantees

Over every run of a controller from its deployment: what it executes has been scheduled before, has
waited, is executed once, and after its predecessor. The controller acts on other contracts, and on its own
minimum delay and roles, in no other way.
-/

namespace ZkUnderwrite.Timelock
open ByteString Transaction Contract Schedule

variable {V A ω : Type}

/-- The arguments of the constructor and the other contracts at that time. -/
structure Setup (ω : Type) where
  minDelay : UInt32
  proposers : List Address
  executors : List Address
  admin : Option Address
  outer : ω

def Governance.start (G : Governance V A ω) (s : Setup ω) : World V A ω :=
  constructor G s.minDelay s.proposers s.executors s.admin s.outer

/-! ## A sample controller

The values are byte strings, and the host's codes are those of XDR. An address is the number that its 32
bytes denote. -/

namespace Sample

structure Roles where
  admin : Option Address
  members : List (Symbol × Address)

def access : AccessControl Bytes Roles where
  empty := ⟨none, []⟩
  getAdmin := Roles.admin
  hasRole s r a := decide ((r, a) ∈ s.members)
  memberCount s r := (s.members.filter fun m => m.1 = r).length
  setAdmin a s := { s with admin := some a }
  setRoleAdminNoAuth _ _ s := s
  grantRoleNoAuth a r s := { s with members := (r, a) :: s.members }
  manage _ _ _ _ := none
  hasRole_empty _ _ := rfl
  getAdmin_setAdmin _ _ := rfl
  hasRole_setAdmin _ _ _ _ := rfl
  getAdmin_setRoleAdminNoAuth _ _ _ := rfl
  hasRole_setRoleAdminNoAuth _ _ _ _ _ := rfl
  getAdmin_grantRoleNoAuth _ _ _ := rfl
  hasRole_grantRoleNoAuth b q s r a := by
    rw [← Bool.decide_or]
    exact decide_eq_decide.mpr (by simp [and_comm])
  memberCount_eq_zero s r := by
    simp only [List.length_eq_zero_iff, List.filter_eq_nil_iff, decide_eq_true_eq,
      decide_eq_false_iff_not, Prod.forall]
    exact ⟨fun h a ha => h r a ha rfl, fun h q a ha hq => h a (hq ▸ ha)⟩

/-! ### Codes -/

def xdrAddress (a : Address) : Bytes := beBytes 4 18 ++ beBytes 4 1 ++ beBytes 32 a.id

/-- A byte string under the number of its kind. -/
def xdrString (kind : Nat) (b : Bytes) : Bytes :=
  beBytes 4 kind ++ (counted 4 (fun x => [x]) b ++ List.replicate ((4 - b.length % 4) % 4) 0)

def xdrSymbol (f : Symbol) : Bytes := xdrString 15 (asBytes f.name)

def xdrBytes : Bytes → Bytes := xdrString 13

def xdrVec {α : Type} (enc : α → Bytes) (l : List α) : Bytes :=
  beBytes 4 16 ++ beBytes 4 1 ++ counted 4 enc l

/-! ### Operations and batches -/

/-- The router at address 2 gets the verifier at address 31. -/
def operation : Operation Bytes :=
  ⟨⟨2⟩, ⟨"add_verifier"⟩, [[0x31, 0x0f, 0xe5, 0x98], beBytes 32 31], zeroBytes32, .replicate 32 5⟩

def operationInput (o : Operation Bytes) : Bytes :=
  xdrAddress o.target ++ xdrSymbol o.function ++ xdrVec xdrBytes o.args ++ o.predecessor.val ++ o.salt.val

/-- Two calls, and the same calls the other way round under another salt. -/
def batch (swapped : Bool) : Batch Bytes where
  targets := if swapped then [⟨2⟩, ⟨1⟩] else [⟨1⟩, ⟨2⟩]
  functions := if swapped then [⟨"pause"⟩, ⟨"estop"⟩] else [⟨"estop"⟩, ⟨"pause"⟩]
  argsList := if swapped then [[[7]], []] else [[], [[7]]]
  predecessor := zeroBytes32
  salt := .replicate 32 (if swapped then 1 else 2)

def batchBytes (b : Batch Bytes) : Bytes :=
  xdrVec xdrAddress b.targets ++ xdrVec xdrSymbol b.functions ++ xdrVec (xdrVec xdrBytes) b.argsList ++
    b.predecessor.val ++ b.salt.val

/-- The hashes of the sample's operation and batches. -/
@[irreducible] def keccak256 (b : Bytes) : BytesN 32 :=
  if b = operationInput operation then
    .ofNat 32 0xf442f2d83107f46d55214134e7b95a79c1120427081b52e6da7ed0d34a577bc7
  else if b = batchBytes (batch true) then
    .ofNat 32 0xad8942c6336dfb11ecba732aa30c459a1107ce1097f820ee857f448ee24e96df
  else if b = batchBytes (batch false) then
    .ofNat 32 0x56ff12e16174109189f1fb80d6c0f18698d58347e3215ac35073c82ad26227fc
  else zeroBytes32

def hashOperation (o : Operation Bytes) : BytesN 32 := keccak256 (operationInput o)

/-! ### The libraries -/

def base (self : Address) : Base Bytes Roles where
  currentContractAddress := self
  keccak256 := keccak256
  targetsToXdr := xdrVec xdrAddress
  functionsToXdr := xdrVec xdrSymbol
  argsListToXdr := xdrVec (xdrVec xdrBytes)
  access := access
  doneTimestamp := 1
  getOperationState
    | none, _ => .unset
    | some t, now => if t = 1 then .done else if now < t then .waiting else .ready
  state_none _ := rfl
  state_done _ := rfl
  state_pending h _ := if_neg (UInt64.ne_of_lt h).symm

def governance (self : Address) (ω : Type) : Governance Bytes Roles ω where
  toBase := base self
  toArgs _ := []
  hashOperation := hashOperation
  scheduleOperation x o delay := do
    scheduleOperationIdInner x (hashOperation o) delay
    return hashOperation o
  setExecuteOperation x o := setExecuteOperationIdInner x (hashOperation o) o.predecessor
  executeOperation x o := do
    setExecuteOperationIdInner x (hashOperation o) o.predecessor
    invokeContract x o.target o.function o.args
  cancelOperation x id := do
    if !x.isOperationPending (← get) id then throw (.timelock .invalidOperationState)
    modify (·.removeTimestamp id)
  schedule_ok h := by
    obtain ⟨_, _, hs, hret⟩ := Txn.exec_bind_eq_ok.mp h
    cases hret
    exact ⟨rfl, hs⟩
  setExecute_ok h := h
  execute_ok h := by
    obtain ⟨_, w₁, hs, hinv⟩ := Txn.exec_bind_eq_ok.mp h
    exact ⟨w₁, hs, hinv⟩
  cancel_ok h := by
    rw [Txn.exec_get_bind, Txn.exec_throwIf_eq_ok] at h
    obtain ⟨hp, hset⟩ := h
    cases hset
    exact ⟨by simpa using hp, rfl⟩

end Sample

/-! ## The ids of batches -/

/-- The host's XDR codes delimit themselves on the parts of the batches in `T`. -/
structure XdrLaws (B : Base V A) (T : Set (Batch V)) : Prop where
  targets : SelfDelimiting B.targetsToXdr (Set.image Batch.targets T)
  functions : SelfDelimiting B.functionsToXdr (Set.image Batch.functions T)
  argsList : SelfDelimiting B.argsListToXdr (Set.image Batch.argsList T)

theorem XdrLaws.mono {B : Base V A} {T T' : Set (Batch V)} (h : XdrLaws B T) (hT : T' ⊆ T) :
    XdrLaws B T' where
  targets := h.targets.mono (Set.image_mono hT)
  functions := h.functions.mono (Set.image_mono hT)
  argsList := h.argsList.mono (Set.image_mono hT)

/-- The id of a batch identifies its calls, in their order, its predecessor and its salt, where the hash
does not collide. -/
theorem batch_id_inj (B : Base V A) {T : Set (Batch V)} (hx : XdrLaws B T)
    (hcol : Set.InjOn B.keccak256 (Set.image (batchInput B) T)) {b b' : Batch V} (hb : b ∈ T)
    (hb' : b' ∈ T) : hashOperationBatchInner B b = hashOperationBatchInner B b' ↔ b = b' := by
  refine ⟨fun h => ?_, fun h => congrArg _ h⟩
  have heq : batchInput B b = batchInput B b' :=
    hcol (Set.mem_image_of_mem _ hb) (Set.mem_image_of_mem _ hb') h
  simp only [batchInput, List.append_assoc] at heq
  obtain ⟨ht, heq⟩ := hx.targets _ (Set.mem_image_of_mem _ hb) _ (Set.mem_image_of_mem _ hb') _ _ heq
  obtain ⟨hf, heq⟩ := hx.functions _ (Set.mem_image_of_mem _ hb) _ (Set.mem_image_of_mem _ hb') _ _ heq
  obtain ⟨ha, heq⟩ := hx.argsList _ (Set.mem_image_of_mem _ hb) _ (Set.mem_image_of_mem _ hb') _ _ heq
  obtain ⟨hp, hs⟩ := List.append_inj heq (b.predecessor.length_eq.trans b'.predecessor.length_eq.symm)
  obtain ⟨_, _, _, _, _⟩ := b
  obtain ⟨_, _, _, _, _⟩ := b'
  cases ht
  cases hf
  cases ha
  cases BytesN.ext hp
  cases BytesN.ext hs
  rfl

namespace Sample

/-- What XDR can write: lengths below 2 ^ 32. -/
def Fits (b : Batch Bytes) : Prop :=
  (b.targets.length < 256 ^ 4 ∧ ∀ a ∈ b.targets, a.id < 256 ^ 32) ∧
  (b.functions.length < 256 ^ 4 ∧ ∀ f ∈ b.functions, (asBytes f.name).length < 256 ^ 4) ∧
  (b.argsList.length < 256 ^ 4 ∧
    ∀ args ∈ b.argsList, args.length < 256 ^ 4 ∧ ∀ v ∈ args, v.length < 256 ^ 4)

instance (b : Batch Bytes) : Decidable (Fits b) := inferInstanceAs (Decidable (_ ∧ _ ∧ _))

theorem selfDelimiting_xdrString (kind : Nat) :
    SelfDelimiting (xdrString kind) {b | b.length < 256 ^ 4} := by
  have hbyte : SelfDelimiting (fun x : UInt8 => [x]) Set.univ :=
    selfDelimiting_of_length (n := 1) (fun _ => rfl) fun x _ y _ h => List.head_eq_of_cons_eq h
  have hcode := ((hbyte.counted 4).pad fun b => List.replicate ((4 - b.length % 4) % 4) 0).tag
    (beBytes 4 kind)
  exact fun a ha b hb s t h => hcode a ⟨ha, fun _ _ => trivial⟩ b ⟨hb, fun _ _ => trivial⟩ s t h

theorem selfDelimiting_xdrAddress : SelfDelimiting xdrAddress {a | a.id < 256 ^ 32} := by
  refine selfDelimiting_of_length (n := 40) (fun a => ?_) fun a ha b hb h => ?_
  · simp [xdrAddress]
  · have hid := congrArg beNat (List.append_cancel_left h)
    rw [beNat_beBytes_of_lt ha, beNat_beBytes_of_lt hb] at hid
    cases a
    cases b
    cases hid
    rfl

theorem selfDelimiting_xdrVec {α : Type} {enc : α → Bytes} {T : Set α} (h : SelfDelimiting enc T) :
    SelfDelimiting (xdrVec enc) {l | l.length < 256 ^ 4 ∧ ∀ a ∈ l, a ∈ T} :=
  (h.counted 4).tag _

theorem xdrLaws (self : Address) : XdrLaws (base self) {b | Fits b} := by
  have hsymbol : SelfDelimiting xdrSymbol {f | (asBytes f.name).length < 256 ^ 4} :=
    (selfDelimiting_xdrString 15).comp fun f g h => by
      cases f
      cases g
      cases asBytes_inj.mp h
      rfl
  refine ⟨?_, ?_, ?_⟩
  · rintro _ ⟨b, hb, rfl⟩ _ ⟨b', hb', rfl⟩ s t h
    exact selfDelimiting_xdrVec selfDelimiting_xdrAddress _ hb.1 _ hb'.1 s t h
  · rintro _ ⟨b, hb, rfl⟩ _ ⟨b', hb', rfl⟩ s t h
    exact selfDelimiting_xdrVec hsymbol _ hb.2.1 _ hb'.2.1 s t h
  · rintro _ ⟨b, hb, rfl⟩ _ ⟨b', hb', rfl⟩ s t h
    exact selfDelimiting_xdrVec (selfDelimiting_xdrVec (selfDelimiting_xdrString 13)) _ hb.2.2 _
      hb'.2.2 s t h

end Sample

theorem batch_id_inj_sample :
    hashOperationBatchInner (Sample.base ⟨9⟩) (Sample.batch true) =
        hashOperationBatchInner (Sample.base ⟨9⟩) (Sample.batch false) ↔
      Sample.batch true = Sample.batch false := by
  have hlaws : XdrLaws (Sample.base ⟨9⟩) {Sample.batch true, Sample.batch false} := by
    have hfits : ∀ swapped, Sample.Fits (Sample.batch swapped) := by decide +kernel
    refine (Sample.xdrLaws _).mono ?_
    rintro b (rfl | rfl) <;> exact hfits _
  refine batch_id_inj _ hlaws ?_ (Set.mem_insert _ _) (Set.mem_insert_of_mem _ (Set.mem_singleton _))
  rw [Set.image_pair, Set.injOn_pair]
  have hne : (Sample.base ⟨9⟩).keccak256 (batchInput (Sample.base ⟨9⟩) (Sample.batch true)) ≠
      (Sample.base ⟨9⟩).keccak256 (batchInput (Sample.base ⟨9⟩) (Sample.batch false)) := by
    decide +kernel
  exact fun h => absurd h hne

/-! ## The deployment -/

theorem hasRole_foldl (C : AccessControl V A) {f : A → Address → A} {r : Symbol} {q : Prop}
    (hf : ∀ s b a, C.hasRole (f s b) r a = true ↔ (a = b ∧ q) ∨ C.hasRole s r a = true)
    (l : List Address) (s : A) (a : Address) :
    C.hasRole (l.foldl f s) r a = true ↔ (a ∈ l ∧ q) ∨ C.hasRole s r a = true := by
  induction l generalizing s with
  | nil => simp
  | cons b l ih => rw [List.foldl_cons, ih, hf, List.mem_cons, or_and_right, or_assoc, or_left_comm]

theorem hasRole_start (G : Governance V A ω) (s : Setup ω) (r : Symbol) (a : Address) :
    G.access.hasRole (G.start s).access r a = true ↔ (a ∈ s.executors ∧ r = executorRole) ∨
      (a ∈ s.proposers ∧ (r = proposerRole ∨ r = cancellerRole)) ∨
      (s.admin = some a ∧ r = bootstrapAdminRole) := by
  unfold Governance.start constructor
  dsimp only
  rw [hasRole_foldl G.access (q := r = executorRole), hasRole_foldl G.access
    (q := r = proposerRole ∨ r = cancellerRole)]
  · cases s.admin with
    | none => simp only [G.access.hasRole_setAdmin, G.access.hasRole_empty]; simp
    | some b =>
        simp only [G.access.hasRole_grantRoleNoAuth, G.access.hasRole_setRoleAdminNoAuth,
          G.access.hasRole_setAdmin, G.access.hasRole_empty, Bool.or_false, decide_eq_true_eq,
          Option.some.injEq, eq_comm (a := a)]
  · intro t b c
    simp only [G.access.hasRole_grantRoleNoAuth, Bool.or_eq_true, decide_eq_true_eq]
    tauto
  · intro t b c
    simp only [G.access.hasRole_grantRoleNoAuth, Bool.or_eq_true, decide_eq_true_eq]

theorem getAdmin_foldl (C : AccessControl V A) {f : A → Address → A}
    (hf : ∀ s b, C.getAdmin (f s b) = C.getAdmin s) (l : List Address) (s : A) :
    C.getAdmin (l.foldl f s) = C.getAdmin s := by
  induction l generalizing s with
  | nil => rfl
  | cons b l ih => rw [List.foldl_cons, ih, hf]

theorem getAdmin_start (G : Governance V A ω) (s : Setup ω) :
    G.access.getAdmin (G.start s).access = some G.currentContractAddress := by
  unfold Governance.start constructor
  dsimp only
  rw [getAdmin_foldl G.access (fun s b => G.access.getAdmin_grantRoleNoAuth ..), getAdmin_foldl G.access
    (fun s b => (G.access.getAdmin_grantRoleNoAuth ..).trans (G.access.getAdmin_grantRoleNoAuth ..))]
  cases s.admin with
  | none => exact G.access.getAdmin_setAdmin ..
  | some b =>
      simp only [G.access.getAdmin_grantRoleNoAuth, G.access.getAdmin_setRoleAdminNoAuth,
        G.access.getAdmin_setAdmin]

/-- `only_executor` lets everyone pass, whatever is authorised, exactly when nobody has the role. -/
theorem onlyExecutor_open {G : Governance V A ω} {w : World V A ω} :
    (∀ auth executor, (onlyExecutor G auth executor).exec w = (.ok (), w)) ↔
      G.access.memberCount w.access executorRole = 0 := by
  unfold onlyExecutor
  simp only [Txn.exec_get_bind]
  constructor
  · intro h
    by_contra hc
    have hnone := h (fun _ => pure ()) none
    rw [if_pos hc] at hnone
    cases hnone
  · intro hc auth executor
    rw [if_neg (not_not_intro hc)]
    rfl

/-- The roles of a new controller are those that the constructor is asked for, and it is its own
administrator. Without executors anyone executes. -/
structure Deployed (G : Governance V A ω) (s : Setup ω) : Prop where
  admin : G.access.getAdmin (G.start s).access = some G.currentContractAddress
  proposer : ∀ a, G.access.hasRole (G.start s).access proposerRole a = true ↔ a ∈ s.proposers
  canceller : ∀ a, G.access.hasRole (G.start s).access cancellerRole a = true ↔ a ∈ s.proposers
  executor : ∀ a, G.access.hasRole (G.start s).access executorRole a = true ↔ a ∈ s.executors
  bootstrap : ∀ a, G.access.hasRole (G.start s).access bootstrapAdminRole a = true ↔ s.admin = some a
  memberless : G.access.memberCount (G.start s).access executorRole = 0 ↔ s.executors = []
  anyone : (∀ auth executor, (onlyExecutor G auth executor).exec (G.start s) = (.ok (), G.start s)) ↔
    s.executors = []

theorem constructor_roles (G : Governance V A ω) (s : Setup ω) : Deployed G s := by
  have hroles := hasRole_start G s
  have hexec : ∀ a, G.access.hasRole (G.start s).access executorRole a = true ↔ a ∈ s.executors := by
    intro a
    rw [hroles]
    simp [executorRole, proposerRole, cancellerRole, bootstrapAdminRole]
  have hcount : G.access.memberCount (G.start s).access executorRole = 0 ↔ s.executors = [] := by
    rw [G.access.memberCount_eq_zero, List.eq_nil_iff_forall_not_mem]
    exact forall_congr' fun a => by rw [← hexec a, Bool.not_eq_true]
  refine ⟨getAdmin_start G s, fun a => ?_, fun a => ?_, hexec, fun a => ?_, hcount,
    onlyExecutor_open.trans hcount⟩
  · rw [hroles]
    simp [executorRole, proposerRole, cancellerRole, bootstrapAdminRole]
  · rw [hroles]
    simp [executorRole, proposerRole, cancellerRole, bootstrapAdminRole]
  · rw [hroles]
    simp [executorRole, proposerRole, cancellerRole, bootstrapAdminRole]

section
variable [DecidableEq V] {G : Governance V A ω}

/-- In the turn a proposer schedules the proposal, with at least the minimum delay of that time. -/
inductive Proposes (t : Turn G) (p : Proposal V) (due : UInt64) : Prop
  | intro (x : Env G.toBase ω) (c : Call V) (delay minDelay : UInt32) (proposer : Address)
      (w₁ : World V A ω) (input : t.input = .call x c) (call : c.proposes = some (p, delay, proposer))
      (role : G.access.hasRole t.before.access proposerRole proposer = true)
      (auth : Authorized G x c t.before proposer w₁) (min : t.before.minDelay = some minDelay)
      (le : minDelay ≤ delay) (due_eq : due.toNat = x.timestamp.toNat + delay.toNat)

/-- How a proposal is executed in a turn, from the state `m` in which its id was marked as done: by a call
that makes its calls one after the other, or, when it is an operation on the controller itself, by
`__check_auth`. -/
inductive Executes (t : Turn G) (m : World V A ω) : Proposal V → Prop
  | calls (p : Proposal V) (x : Env G.toBase ω) (c : Call V) (executor : Option Address)
      (vs : List V) (input : t.input = .call x c) (call : c.executes = some (p, executor))
      (auth : OnlyExecutor G x c t.before executor m) (executable : Executable x m (G.id p) p.predecessor)
      (foreign : ∀ q ∈ p.calls, q.1 ≠ G.currentContractAddress)
      (invoked : x.invokeAll p.calls t.before.outer = some (vs, t.after.outer)) : Executes t m p
  | itself (o : Operation V) (x : Env G.toBase ω) (c : Call V) (w₁ : World V A ω)
      (input : t.input = .call x c) (executed : SelfExecuted G x t.before m w₁ o) :
      Executes t m (.op o)

/-- The turn is a successful call that executes the proposal. -/
def Makes (t : Turn G) (p : Proposal V) : Prop :=
  ∃ x c executor ret, t.input = .call x c ∧ c.executes = some (p, executor) ∧ t.output = .ok ret

variable (G) in
/-- The proposal with this id was scheduled by the inputs `is` and has waited until it is due at `i`. -/
def Waited (s : Setup ω) (is : List (Input G)) (i : Input G) (id : BytesN 32) : Prop :=
  ∃ before j since p due, is = before ++ j :: since ∧ due ≤ i.now ∧ G.id p = id ∧
    Waits (step G) (status G) (G.start s) id due before j since ∧
    Proposes (Machine.turn (step G) (Machine.final (step G) (G.start s) before) j) p due

variable (G) in
/-- When the id of a proposal was marked in the state `m` of a turn after the inputs `is`, its predecessor,
if it has one, had been executed: in an earlier turn, or by `__check_auth` before `m`. -/
inductive Preceded (s : Setup ω) (is : List (Input G)) (t : Turn G) (m : World V A ω)
    (p : Proposal V) : Prop
  | none (free : p.predecessor = zeroBytes32)
  | earlier (t' : Turn G) (mem : t' ∈ Machine.turns (step G) (G.start s) is)
      (executed : Executed (status G) p.predecessor t')
  | itself (x : Env G.toBase ω) (c : Call V) (o : Operation V) (m' : World V A ω)
      (input : t.input = .call x c) (id_eq : G.hashOperation o = p.predecessor)
      (executed : SelfExecuted G x t.before m' m o)

variable {s : Setup ω} {is : List (Input G)} {i : Input G} {w w' : World V A ω} {id : BytesN 32}

omit [DecidableEq V] in
theorem live_start (s : Setup ω) : Live G (G.start s) := fun _ _ h => nomatch h

omit [DecidableEq V] in
theorem status_start (s : Setup ω) (id : BytesN 32) : status G (G.start s) id = .unset := rfl

theorem live_run (s : Setup ω) (is : List (Input G)) :
    Live G (Machine.final (step G) (G.start s) is) :=
  Machine.invariant schedules.kept (live_start s) is

/-! ## What one turn does -/

theorem proposes_of_pending {due : UInt64} (hu : status G w id = .unset)
    (hp : status G (step G w i).2 id = .pending due) :
    ∃ p, G.id p = id ∧ Proposes (Machine.turn (step G) w i) p due := by
  generalize hw : (step G w i).2 = w' at hp
  have hcase := hw ▸ step_case w i
  cases hcase with
  | outside o => exact absurd (hu.symm.trans hp) nofun
  | failed => exact absurd (hu.symm.trans hp) nofun
  | call x c _ heff =>
      obtain ⟨w₁, hm, hall⟩ := heff.entries
      cases hall id with
      | same he =>
          have hp₁ := (status_congr he).symm.trans hp
          have hnot : status G w₁ id ≠ .done := by rw [hp₁]; nofun
          exact absurd ((hm.status_of_ne_done hnot).symm.trans hp₁) (by rw [hu]; nofun)
      | scheduled p delay a hc hid hr hauth hs he =>
          obtain ⟨hn, hlt⟩ := lt_due hs.fits
          obtain ⟨d, hd, hle⟩ := hs.minDelay
          cases (status_pending he hlt).symm.trans hp
          exact ⟨p, hid, .intro x c delay d a w₁ rfl hc hr hauth (hm.minDelay ▸ hd) hle hn⟩
      | executed _ _ _ _ _ _ _ _ _ he => cases (status_done he).symm.trans hp
      | cancelled _ he => cases (status_unset he).symm.trans hp

theorem executes_of_done
    (h : Executed (status G) id (Machine.turn (step G) w i)) :
    ∃ p m, G.id p = id ∧ Executes (Machine.turn (step G) w i) m p := by
  obtain ⟨hnot, hdone⟩ := h
  change status G w id ≠ .done at hnot
  change status G (step G w i).2 id = .done at hdone
  have hturn : Machine.turn (step G) w i = ⟨w, i, (step G w i).1, (step G w i).2⟩ := rfl
  rw [hturn]
  generalize (step G w i).1 = out
  generalize hw : (step G w i).2 = w' at hdone
  have hcase := hw ▸ step_case w i
  cases hcase with
  | outside o => exact absurd hdone hnot
  | failed => exact absurd hdone hnot
  | call x c _ heff =>
      obtain ⟨w₁, hm, hall⟩ := heff.entries
      cases hall id with
      | same he =>
          rcases hm.entries id with hsame | ⟨o, m, rfl, ho⟩
          · exact absurd ((status_congr (he.trans hsame)).symm.trans hdone) hnot
          · exact ⟨.op o, m, rfl, .itself o x c w₁ rfl ho⟩
      | scheduled _ _ _ _ _ _ _ hs he =>
          exact absurd ((status_pending he (lt_due hs.fits).2).symm.trans hdone) nofun
      | executed p e vs hc hid hauth hx hf hinv he =>
          subst hid
          exact ⟨p, w₁, rfl, .calls p x c e vs rfl hc hauth hx hf hinv⟩
      | cancelled _ he => exact absurd ((status_unset he).symm.trans hdone) nofun

/-- A successful call that executes a proposal marks its id. -/
theorem executed_of_makes {p : Proposal V} (hl : Live G w)
    (h : Makes (Machine.turn (step G) w i) p) :
    Executed (status G) (G.id p) (Machine.turn (step G) w i) := by
  obtain ⟨x, c, executor, ret, rfl, hc, hret⟩ := h
  have hperform := atomically_eq_ok.mp (Prod.ext hret rfl :
    atomically (perform G x c) w = (.ok ret, (step G w (.call x c)).2))
  change status G w (G.id p) ≠ .done ∧ status G (step G w (.call x c)).2 (G.id p) = .done
  obtain ⟨w₁, hauth, hx, hdone⟩ := (perform_effect hperform).executes hc
  exact ⟨hl.ne_done (hauth.marks.ready_of hx.ready), status_done hdone⟩

theorem waited_of_executed
    (h : Executed (status G) id (Machine.turn (step G) (Machine.final (step G) (G.start s) is) i)) :
    Waited G s is i id := by
  obtain ⟨due, before, j, since, late, rfl, hw⟩ :=
    schedules.executed (live_start s) (status_start s id) h
  have hp := hw.pending [] (List.nil_prefix)
  rw [Machine.final_concat] at hp
  obtain ⟨p, hid, hprop⟩ := proposes_of_pending hw.unset hp
  exact ⟨before, j, since, p, due, rfl, late, hid, hw, hprop⟩

omit [DecidableEq V] in
theorem Executes.executable {t : Turn G} {m : World V A ω} {p : Proposal V} (h : Executes t m p) :
    ∃ x c, t.input = .call x c ∧ Marks G x t.before m ∧ Executable x m (G.id p) p.predecessor := by
  cases h with
  | calls _ x c _ _ hin _ hauth hx _ _ => exact ⟨x, c, hin, hauth.marks, hx⟩
  | itself o x c _ hin hs => exact ⟨x, c, hin, hs.before, hs.mark.executable⟩

theorem preceded_of_executes {m : World V A ω} {p : Proposal V}
    (h : Executes (Machine.turn (step G) (Machine.final (step G) (G.start s) is) i) m p) :
    Preceded G s is (Machine.turn (step G) (Machine.final (step G) (G.start s) is) i) m p := by
  obtain ⟨x, c, hin, hm, hx⟩ := h.executable
  rcases hx.predecessor with hfree | hpred
  · exact .none hfree
  · have hdone := (hm.live (live_run s is)).done_iff.mp hpred
    rcases hm.entries p.predecessor with he | ⟨o, m', hid, hs⟩
    · obtain ⟨t', ht', hexe⟩ :=
        exists_executed (status_start s _) ((status_congr he).symm.trans hdone)
      exact .earlier t' ht' hexe
    · exact .itself x c o m' hin hid.symm hs

/-- What a run of the controller executes under an id, it executes once, and every successful call that
executes a proposal is such an execution. What is executed is a proposal that a proposer had scheduled,
with at least the minimum delay of that time, that has waited ever since, and that is now due; when its id
is marked, its predecessor, if any, has been executed before. -/
theorem executed_once_after_delay (s : Setup ω) (is : List (Input G)) (id : BytesN 32) :
    ((Machine.turns (step G) (G.start s) is).Pairwise fun t t' =>
      Executed (status G) id t → ¬ Executed (status G) id t') ∧
    (∀ t ∈ Machine.turns (step G) (G.start s) is, ∀ p, G.id p = id → Makes t p →
      Executed (status G) id t) ∧
    ∀ t ∈ Machine.turns (step G) (G.start s) is, Executed (status G) id t →
      ∃ before i after, is = before ++ i :: after ∧
        t = Machine.turn (step G) (Machine.final (step G) (G.start s) before) i ∧
        Waited G s before i id ∧
        ∃ p m, G.id p = id ∧ Executes t m p ∧ Preceded G s before t m p := by
  refine ⟨schedules.executed_once (live_start s) is, fun t ht p hid hmakes => ?_, fun t ht hexe => ?_⟩
  · obtain ⟨before, i, after, -, rfl⟩ := Machine.exists_of_mem_turns ht
    rw [← hid]
    exact executed_of_makes (live_run s before) hmakes
  · obtain ⟨before, i, after, rfl, rfl⟩ := Machine.exists_of_mem_turns ht
    obtain ⟨p, m, hid, hp⟩ := executes_of_done hexe
    exact ⟨before, i, after, rfl, rfl, waited_of_executed hexe, p, m, hid, hp,
      preceded_of_executes hp⟩

namespace Sample

/-- A call of another contract counts the calls made. -/
def env (timestamp : UInt64) (live : 1 < timestamp) : Env (governance ⟨9⟩ Nat).toBase Nat where
  timestamp := timestamp
  live := live
  ledger := 0
  authorized _ := true
  authorizedForArgs _ _ := true
  selfAuth := none
  invoke _ _ _ n := some ([], n + 1)

def setup : Setup Nat := ⟨10, [⟨1⟩], [], none, 0⟩

def schedule : Input (governance ⟨9⟩ Nat) :=
  .call (env 100 (by decide)) (.scheduleOp operation 10 ⟨1⟩)

def scheduled : World Bytes Roles Nat :=
  Machine.final (step _) ((governance ⟨9⟩ Nat).start setup) [schedule]

def execute : Call Bytes := .executeOp operation none

end Sample

end

end ZkUnderwrite.Timelock
