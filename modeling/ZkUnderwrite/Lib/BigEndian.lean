import Mathlib.Algebra.BigOperators.Ring.Finset
import Mathlib.Data.List.GetD
import Mathlib.Data.List.Induction
import ZkUnderwrite.Lib.Bytes

/-!
# Big-endian numbers

`beBytes k n` writes the last `k` base-256 digits of `n`, `beNat` reads a byte string as a number.
-/

namespace ByteString

/-- The number that a byte string denotes, most significant byte first. -/
def beNat (b : Bytes) : Nat :=
  b.foldl (fun acc x => acc * 256 + x.toNat) 0

/-- The last `k` base-256 digits of `n`, most significant first. -/
def beBytes : Nat → Nat → Bytes
  | 0, _ => []
  | k + 1, n => beBytes k (n / 256) ++ [UInt8.ofNat n]

@[simp] theorem length_beBytes (k n : Nat) : (beBytes k n).length = k := by
  induction k generalizing n with
  | zero => rfl
  | succ k ih => simp [beBytes, ih]

def BytesN.ofNat (k n : Nat) : BytesN k := ⟨beBytes k n, length_beBytes k n⟩

@[simp] theorem beNat_nil : beNat [] = 0 := rfl

theorem beNat_concat (b : Bytes) (x : UInt8) : beNat (b ++ [x]) = beNat b * 256 + x.toNat := by
  simp [beNat]

theorem beNat_append (a b : Bytes) : beNat (a ++ b) = beNat a * 256 ^ b.length + beNat b := by
  induction b using List.reverseRecOn with
  | nil => simp
  | append_singleton b x ih =>
      rw [← List.append_assoc, beNat_concat, ih, beNat_concat, List.length_append,
        List.length_singleton, Nat.pow_succ, Nat.add_mul, Nat.mul_assoc, Nat.add_assoc]

theorem beNat_lt (b : Bytes) : beNat b < 256 ^ b.length := by
  induction b using List.reverseRecOn with
  | nil => simp
  | append_singleton b x ih =>
      have hx := x.toNat_lt
      rw [beNat_concat, List.length_append, List.length_singleton, Nat.pow_succ]
      omega

/-- The bytes are the base-256 digits of the number, the first one the highest. -/
theorem beNat_eq_sum (b : Bytes) :
    beNat b = ∑ i ∈ Finset.range b.length, (b.getD i 0).toNat * 256 ^ (b.length - 1 - i) := by
  induction b using List.reverseRecOn with
  | nil => rfl
  | append_singleton b x ih =>
      have hdigit : ∀ i ∈ Finset.range b.length,
          ((b ++ [x]).getD i 0).toNat * 256 ^ (b.length - i) =
            (b.getD i 0).toNat * 256 ^ (b.length - 1 - i) * 256 := by
        intro i hi
        have hlt := Finset.mem_range.mp hi
        have hexp : b.length - i = b.length - 1 - i + 1 := by omega
        rw [List.getD_append _ _ _ _ hlt, hexp, Nat.pow_succ, Nat.mul_assoc]
      rw [beNat_concat, ih, Finset.sum_mul, List.length_append, List.length_singleton,
        Finset.sum_range_succ, Nat.add_sub_cancel, Finset.sum_congr rfl hdigit]
      simp

/-- The number in a slice, read off the bytes themselves. -/
theorem beNat_slice {b : Bytes} {off n : Nat} (h : off + n ≤ b.length) :
    beNat (slice b off n) =
      ∑ i ∈ Finset.range n, (b.getD (off + i) 0).toNat * 256 ^ (n - 1 - i) := by
  rw [beNat_eq_sum, length_slice h]
  refine Finset.sum_congr rfl fun i hi => ?_
  have hlt := Finset.mem_range.mp hi
  simp only [slice, List.getD_eq_getElem?_getD, List.getElem?_take_of_lt hlt, List.getElem?_drop]

theorem beNat_beBytes (k n : Nat) : beNat (beBytes k n) = n % 256 ^ k := by
  induction k generalizing n with
  | zero => simp [beBytes, Nat.mod_one]
  | succ k ih =>
      rw [beBytes, beNat_concat, ih, Nat.pow_succ', Nat.mod_mul, UInt8.toNat_ofNat']
      omega

theorem beNat_beBytes_of_lt {k n : Nat} (h : n < 256 ^ k) : beNat (beBytes k n) = n := by
  rw [beNat_beBytes, Nat.mod_eq_of_lt h]

theorem beBytes_beNat (b : Bytes) : beBytes b.length (beNat b) = b := by
  induction b using List.reverseRecOn with
  | nil => rfl
  | append_singleton b x ih =>
      have hx := x.toNat_lt
      have hd : (beNat b * 256 + x.toNat) / 256 = beNat b := by omega
      have hm : UInt8.ofNat (beNat b * 256 + x.toNat) = x := by
        apply UInt8.toNat_inj.mp
        rw [UInt8.toNat_ofNat']
        omega
      rw [beNat_concat, List.length_append, List.length_singleton, beBytes, hd, hm, ih]

theorem BytesN.eq_ofNat {n k : Nat} {b : BytesN n} (h : beNat b.val = k) : b = .ofNat n k := by
  have hb := beBytes_beNat b.val
  rw [b.length_eq, h] at hb
  exact BytesN.ext hb.symm

theorem beBytes_inj {k m n : Nat} (hm : m < 256 ^ k) (hn : n < 256 ^ k)
    (h : beBytes k m = beBytes k n) : m = n := by
  rw [← beNat_beBytes_of_lt hm, ← beNat_beBytes_of_lt hn, h]

/-! ## Length-prefixed fields -/

/-- A field behind its length, written in `k` bytes. -/
def lengthPrefixed (k : Nat) (b : Bytes) : Bytes := beBytes k b.length ++ b

/-- A length-prefixed field ends where its prefix says, whatever follows it. -/
theorem lengthPrefixed_append_inj {k : Nat} {a b r s : Bytes} (ha : a.length < 256 ^ k)
    (hb : b.length < 256 ^ k) (h : lengthPrefixed k a ++ r = lengthPrefixed k b ++ s) :
    a = b ∧ r = s := by
  simp only [lengthPrefixed, List.append_assoc] at h
  obtain ⟨hlen, hrest⟩ := List.append_inj h (by simp)
  exact List.append_inj hrest (beBytes_inj ha hb hlen)

end ByteString
