import ZkUnderwrite.Lib.BigEndian
import ZkUnderwrite.Lib.While
import ZkUnderwrite.Contract.Host

/-! The journal layout and its two readers. Both read byte by byte in a `while` loop. -/

namespace ZkUnderwrite.Contract
open ByteString WhileLoop

def journalLen : Nat := 81
def offIssuerHash : UInt32 := 0
def offThreshold : UInt32 := 32
def offMeets : UInt32 := 40
def offNullifier : UInt32 := 41
def offPeriod : UInt32 := 73

/-- `a + b` on `u32` with the overflow checks of the release profile. -/
def checkedAdd (a b : UInt32) : Except Fault UInt32 :=
  if a.toNat + b.toNat < 2 ^ 32 then .ok (a + b) else .error .overflow

/-- `b.get(off + i)`, where a missing byte panics with `BadJournal`. -/
def byteAt (b : Bytes) (off i : UInt32) : Except Fault UInt8 := do
  let j ← checkedAdd off i
  match b[j.toNat]? with
  | some x => .ok x
  | none => .error (.contract .badJournal)

structure ReadBytes32 where
  i : UInt32
  arr : BytesN 32

def readBytes32Body (b : Bytes) (off : UInt32) (s : ReadBytes32) : Except Fault ReadBytes32 := do
  let x ← byteAt b off s.i
  return ⟨← checkedAdd s.i 1, s.arr.set s.i.toNat x⟩

def readBytes32Loop (b : Bytes) (off : UInt32) (rounds : Nat) (s : ReadBytes32) :
    Except Fault ReadBytes32 :=
  whileFuel (fun s => decide (s.i < 32)) (readBytes32Body b off) rounds s

def readBytes32 (b : Bytes) (off : UInt32) : Except Fault (BytesN 32) := do
  let s ← readBytes32Loop b off 32 ⟨0, BytesN.replicate 32 0⟩
  return s.arr

structure ReadU64 where
  i : UInt32
  v : UInt64

def readU64BeBody (b : Bytes) (off : UInt32) (s : ReadU64) : Except Fault ReadU64 := do
  let x ← byteAt b off s.i
  return ⟨← checkedAdd s.i 1, (s.v <<< 8) ||| x.toUInt64⟩

def readU64BeLoop (b : Bytes) (off : UInt32) (rounds : Nat) (s : ReadU64) :
    Except Fault ReadU64 :=
  whileFuel (fun s => decide (s.i < 8)) (readU64BeBody b off) rounds s

def readU64Be (b : Bytes) (off : UInt32) : Except Fault UInt64 := do
  let s ← readU64BeLoop b off 8 ⟨0, 0⟩
  return s.v

end ZkUnderwrite.Contract
