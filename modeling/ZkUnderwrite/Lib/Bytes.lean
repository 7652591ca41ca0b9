import Mathlib.Algebra.Order.Ring.Int
import Mathlib.Data.List.Basic

/-!
# Byte strings

Byte strings of any length, byte strings of a fixed length, and big-endian numbers.
-/

namespace ByteString

abbrev Bytes := List UInt8

@[ext] structure BytesN (n : Nat) where
  val : Bytes
  length_eq : val.length = n
deriving DecidableEq

namespace BytesN

def replicate (n : Nat) (x : UInt8) : BytesN n := ⟨List.replicate n x, List.length_replicate⟩

def set {n : Nat} (b : BytesN n) (i : Nat) (x : UInt8) : BytesN n :=
  ⟨b.val.set i x, by rw [List.length_set, b.length_eq]⟩

def ofBytes (n : Nat) (b : Bytes) : Option (BytesN n) :=
  if h : b.length = n then some ⟨b, h⟩ else none

@[simp] theorem ofBytes_val {n : Nat} (b : BytesN n) : ofBytes n b.val = some b := by
  simp [ofBytes, b.length_eq]

theorem ofBytes_eq_some {n : Nat} {b : Bytes} {v : BytesN n} : ofBytes n b = some v ↔ b = v.val := by
  constructor
  · intro h
    unfold ofBytes at h
    split at h
    · cases h; rfl
    · cases h
  · rintro rfl; exact ofBytes_val v

end BytesN

def asBytes (s : String) : Bytes := s.toUTF8.data.toList

theorem asBytes_inj {s t : String} : asBytes s = asBytes t ↔ s = t := by
  unfold asBytes
  rw [Array.toList_inj, ← ByteArray.ext_iff]
  exact String.toByteArray_inj

/-! ## Slices -/

/-- The bytes `[off, off + n)`, as far as they exist. -/
def slice (b : Bytes) (off n : Nat) : Bytes := (b.drop off).take n

theorem length_slice {b : Bytes} {off n : Nat} (h : off + n ≤ b.length) :
    (slice b off n).length = n := by
  simp only [slice, List.length_take, List.length_drop]
  omega

theorem slice_succ {b : Bytes} {off n : Nat} {x : UInt8} (h : b[off + n]? = some x) :
    slice b off (n + 1) = slice b off n ++ [x] := by
  unfold slice
  rw [List.take_add_one, List.getElem?_drop, h]
  rfl

theorem slice_append_slice (b : Bytes) (off m n : Nat) :
    slice b off m ++ slice b (off + m) n = slice b off (m + n) := by
  simp only [slice, List.take_add, List.drop_drop]

/-- A slice of a prefix is a slice of the whole. -/
theorem slice_take {b : Bytes} {off n m : Nat} (h : off + n ≤ m) :
    slice (b.take m) off n = slice b off n := by
  rw [slice, slice, List.drop_take, List.take_take, Nat.min_eq_left (by omega)]

theorem slice_one {b : Bytes} {off : Nat} {x : UInt8} (h : b[off]? = some x) :
    slice b off 1 = [x] := by
  have h0 : slice b off 0 = [] := by simp [slice]
  simpa [h0] using slice_succ (n := 0) h

theorem slice_all {b : Bytes} {n : Nat} (h : b.length = n) : slice b 0 n = b := by
  subst h; simp [slice]

/-- The middle one of three parts. -/
theorem slice_append_append {a b c : Bytes} {off n : Nat} (ha : a.length = off)
    (hb : b.length = n) : slice (a ++ b ++ c) off n = b := by
  subst ha hb
  simp [slice]

end ByteString
