import Mathlib.Logic.Function.Basic
import ZkUnderwrite.Lib.Transaction

/-!
# Files

Files by path, and the operations on them that may fail. Which operations fail is arbitrary; a failing
operation leaves every file as it was.
-/

namespace FileSystem
open Transaction

variable {π κ ε : Type}

structure File (κ : Type) where
  content : κ
  mode : UInt32
deriving DecidableEq

abbrev Files (π κ : Type) := π → Option (File κ)

/-- Which operations fail, and the mode of a new file. -/
structure Disk (π ε : Type) where
  readFault : π → Option ε
  writeFault : π → Option ε
  chmodFault : π → Option ε
  notFound : ε
  createMode : UInt32

def content (fs : Files π κ) (p : π) : Option κ := (fs p).map File.content

def read (d : Disk π ε) (p : π) : Txn ε (Files π κ) κ := do
  match d.readFault p with
  | some e => throw e
  | none =>
      match (← get) p with
      | some f => return f.content
      | none => throw d.notFound

section
variable [DecidableEq π]

def put (fs : Files π κ) (p : π) (f : File κ) : Files π κ := Function.update fs p (some f)

/-- A file that exists keeps its mode. -/
def write (d : Disk π ε) (p : π) (c : κ) : Txn ε (Files π κ) Unit := do
  match d.writeFault p with
  | some e => throw e
  | none => modify fun fs => put fs p ⟨c, ((fs p).map File.mode).getD d.createMode⟩

def setMode (d : Disk π ε) (p : π) (mode : UInt32) : Txn ε (Files π κ) Unit := do
  match d.chmodFault p with
  | some e => throw e
  | none =>
      match (← get) p with
      | some f => modify fun fs => put fs p ⟨f.content, mode⟩
      | none => throw d.notFound

end

/-! ## What the operations do -/

section
variable {d : Disk π ε} {p q : π} {c : κ} {fs fs' : Files π κ}

theorem read_eq_ok : (read d p).exec fs = (.ok c, fs') ↔
    d.readFault p = none ∧ content fs p = some c ∧ fs' = fs := by
  unfold read content
  cases d.readFault p with
  | some e => simp
  | none =>
      rw [Txn.exec_bind_ok (Txn.exec_get fs)]
      cases fs p with
      | none => simp
      | some f => simp [eq_comm (a := fs')]

theorem read_eq_error {e : ε} (h : (read d p).exec fs = (.error e, fs')) : fs' = fs := by
  unfold read at h
  cases hr : d.readFault p with
  | some e' =>
      rw [hr] at h
      cases h
      rfl
  | none =>
      rw [hr, Txn.exec_bind_ok (Txn.exec_get fs)] at h
      cases hp : fs p with
      | none =>
          rw [hp] at h
          cases h
          rfl
      | some f => rw [hp] at h; cases h

variable [DecidableEq π]

/-- After a write the path holds what was written, and no other path has changed. -/
theorem write_eq_ok (h : (write d p c).exec fs = (.ok (), fs')) :
    d.writeFault p = none ∧ content fs' p = some c ∧ ∀ q, q ≠ p → fs' q = fs q := by
  unfold write at h
  cases hw : d.writeFault p with
  | some e =>
      rw [hw] at h
      cases h
  | none =>
      rw [hw] at h
      cases h
      exact ⟨rfl, by simp [content, put], fun q hq => Function.update_of_ne hq _ _⟩

theorem write_eq_error {e : ε} (h : (write d p c).exec fs = (.error e, fs')) :
    d.writeFault p = some e ∧ fs' = fs := by
  unfold write at h
  cases hw : d.writeFault p with
  | some e' =>
      rw [hw] at h
      cases h
      exact ⟨rfl, rfl⟩
  | none => rw [hw] at h; cases h

/-- A change of mode fails without effect, or keeps the content. -/
theorem setMode_cases (d : Disk π ε) (p : π) (mode : UInt32) (fs : Files π κ) :
    (∃ e, (setMode d p mode).exec fs = (.error e, fs)) ∨
      ∃ f, fs p = some f ∧ (setMode d p mode).exec fs = (.ok (), put fs p ⟨f.content, mode⟩) := by
  unfold setMode
  cases d.chmodFault p with
  | some e => exact .inl ⟨e, rfl⟩
  | none =>
      rw [Txn.exec_bind_ok (Txn.exec_get fs)]
      cases fs p with
      | none => exact .inl ⟨d.notFound, rfl⟩
      | some f => exact .inr ⟨f, rfl, rfl⟩

theorem content_put (fs : Files π κ) (p : π) (f : File κ) (q : π) :
    content (put fs p f) q = if q = p then some f.content else content fs q := by
  unfold content put
  rw [Function.update_apply]
  split <;> rfl

end

end FileSystem
