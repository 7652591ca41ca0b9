import ZkUnderwrite.Lib.Bytes

/-!
# Hexadecimal digits

Byte strings written with two ASCII digits a byte, and read from digits of either case.
-/

namespace ByteString

def hexDigit (d : Nat) : UInt8 := if d < 10 then UInt8.ofNat (48 + d) else UInt8.ofNat (87 + d)

def hexEncode (b : Bytes) : Bytes :=
  b.flatMap fun x => [hexDigit (x.toNat / 16), hexDigit (x.toNat % 16)]

/-- The digits as a text. -/
def hexText (b : Bytes) : String := String.ofList ((hexEncode b).map fun c => Char.ofNat c.toNat)

def hexVal (c : UInt8) : Option Nat :=
  if 48 ≤ c ∧ c ≤ 57 then some (c.toNat - 48)
  else if 97 ≤ c ∧ c ≤ 102 then some (c.toNat - 87)
  else if 65 ≤ c ∧ c ≤ 70 then some (c.toNat - 55)
  else none

def hexDecode : Bytes → Option Bytes
  | [] => some []
  | [_] => none
  | c :: d :: cs => do
      let x ← hexVal c
      let y ← hexVal d
      let b ← hexDecode cs
      return UInt8.ofNat (16 * x + y) :: b

theorem hexVal_hexDigit : ∀ d < 16, hexVal (hexDigit d) = some d := by decide

theorem hexDigit_ne : ∀ d < 16, hexDigit d ≠ 10 ∧ hexDigit d ≠ 13 := by decide

/-- Written digits hold no end of a line. -/
theorem ne_of_mem_hexEncode {b : Bytes} {c : UInt8} (h : c ∈ hexEncode b) : c ≠ 10 ∧ c ≠ 13 := by
  obtain ⟨x, -, hc⟩ := List.mem_flatMap.mp h
  have hx := x.toNat_lt
  rcases List.mem_pair.mp hc with rfl | rfl
  · exact hexDigit_ne _ (by omega)
  · exact hexDigit_ne _ (by omega)

/-- What is written is read back. -/
theorem hexDecode_hexEncode (b : Bytes) : hexDecode (hexEncode b) = some b := by
  induction b with
  | nil => rfl
  | cons x b ih =>
      have hx := x.toNat_lt
      have hdiv := hexVal_hexDigit (x.toNat / 16) (by omega)
      have hmod := hexVal_hexDigit (x.toNat % 16) (by omega)
      have hbyte : UInt8.ofNat (16 * (x.toNat / 16) + x.toNat % 16) = x := by
        rw [Nat.div_add_mod, UInt8.ofNat_toNat]
      rw [hexEncode, List.flatMap_cons, ← hexEncode, List.cons_append, List.cons_append, List.nil_append,
        hexDecode, hdiv, hmod, ih]
      exact congrArg (fun y => some (y :: b)) hbyte

end ByteString
