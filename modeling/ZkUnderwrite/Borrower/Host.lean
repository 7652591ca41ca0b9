import ZkUnderwrite.Contract.EntryPoints
import ZkUnderwrite.Guest.Main
import ZkUnderwrite.Issuer.Statement
import ZkUnderwrite.Lib.Hex

/-!
# The borrower's side

The host program, which proves the guest and writes `proof.txt`, and the call that the scripts make
with the lines of this file. A step of the program that panics gives `none`.
-/

namespace ZkUnderwrite.Borrower
open ByteString Contract

/-- The prover for the guest: its image id, and the encoded seal of the receipt for an input and the
journal of this input, when proving, the local check and the encoding succeed. -/
structure Zkvm where
  crates : Guest.Crates
  imageId : BytesN 32
  prove : Guest.Input → Bytes → Option Bytes

/-- What the program finds: its arguments, its files and the variable `THRESHOLD`. -/
structure Session where
  args : List String
  statement : Option Bytes
  signature : Option Bytes
  issuerPk : Option Bytes
  threshold : Option String
deriving DecidableEq

inductive Output where
  | imageId (out : Bytes)
  | proof (out : Bytes)
deriving DecidableEq

def hexLine (b : Bytes) : Bytes := hexEncode b ++ [10]

/-- The text of `proof.txt`. -/
def proofText (Z : Zkvm) (sealBytes journalBytes : Bytes) : Bytes :=
  hexLine sealBytes ++ hexLine Z.imageId.val ++ hexLine (Z.crates.sha256 journalBytes).val ++
    hexLine journalBytes

def main (Z : Zkvm) (x : Session) : Option Output := do
  if x.args.any (· = "--print-image-id") then return .imageId (hexLine Z.imageId.val)
  let statement ← x.statement
  let signature ← x.signature
  let issuerPk ← x.issuerPk
  let threshold ← (Issuer.parseU64 (x.threshold.getD "3000")).toOption
  let input : Guest.Input := ⟨statement, signature, issuerPk, threshold⟩
  let journalBytes ← (Guest.main Z.crates input).toOption
  let sealBytes ← Z.prove input journalBytes
  return .proof (proofText Z sealBytes journalBytes)

/-! ## The scripts -/

/-- `sed -n kp proof.txt | tr -d '\r\n'`. -/
def sedLine (txt : Bytes) (k : Nat) : Bytes :=
  ((txt.splitOn 10).getD (k - 1) []).filter fun c => c ≠ 13 && c ≠ 10

/-- The request that the scripts make with lines 1 and 4. -/
def request (borrower : Address) (txt : Bytes) : Option Call := do
  let sealBytes ← hexDecode (sedLine txt 1)
  let journal ← hexDecode (sedLine txt 4)
  return .requestCredit borrower sealBytes journal

/-! ## What the file says -/

theorem sedLine_hexLine (b rest : Bytes) : sedLine (hexLine b ++ rest) 1 = hexEncode b := by
  have hnot : (10 : UInt8) ∉ hexEncode b := fun h => (ne_of_mem_hexEncode h).1 rfl
  have hfilter : (hexEncode b).filter (fun c => c ≠ 13 && c ≠ 10) = hexEncode b :=
    List.filter_eq_self.mpr fun c hc => by simp [ne_of_mem_hexEncode hc]
  rw [sedLine, hexLine, List.append_assoc, List.singleton_append,
    List.splitOn_append_cons_self_of_not_mem hnot]
  exact hfilter

theorem sedLine_succ (b rest : Bytes) (k : Nat) :
    sedLine (hexLine b ++ rest) (k + 2) = sedLine rest (k + 1) := by
  have hnot : (10 : UInt8) ∉ hexEncode b := fun h => (ne_of_mem_hexEncode h).1 rfl
  rw [sedLine, hexLine, List.append_assoc, List.singleton_append,
    List.splitOn_append_cons_self_of_not_mem hnot]
  rfl

/-- Each line of the file decodes to what it was written from. -/
structure Lines (txt sealBytes imageId journalDigest journalBytes : Bytes) : Prop where
  sealBytes : hexDecode (sedLine txt 1) = some sealBytes
  imageId : hexDecode (sedLine txt 2) = some imageId
  journalDigest : hexDecode (sedLine txt 3) = some journalDigest
  journalBytes : hexDecode (sedLine txt 4) = some journalBytes

theorem lines_proofText (Z : Zkvm) (s j : Bytes) :
    Lines (proofText Z s j) s Z.imageId.val (Z.crates.sha256 j).val j := by
  have hlast : hexLine j = hexLine j ++ [] := (List.append_nil _).symm
  unfold proofText
  rw [hlast]
  simp only [List.append_assoc]
  constructor
  · rw [sedLine_hexLine, hexDecode_hexEncode]
  · rw [sedLine_succ, sedLine_hexLine, hexDecode_hexEncode]
  · rw [sedLine_succ, sedLine_succ, sedLine_hexLine, hexDecode_hexEncode]
  · rw [sedLine_succ, sedLine_succ, sedLine_succ, sedLine_hexLine, hexDecode_hexEncode]

theorem request_of_lines {txt s m d j : Bytes} (h : Lines txt s m d j) (borrower : Address) :
    request borrower txt = some (.requestCredit borrower s j) := by
  simp only [request, h.sealBytes, h.journalBytes, Option.bind_eq_bind, Option.bind_some,
    Option.pure_def]

/-! ## Proofs -/

/-- The input that the program hands to the guest. -/
structure Session.Reads (x : Session) (inp : Guest.Input) : Prop where
  statement : x.statement = some inp.statementBytes
  signature : x.signature = some inp.signatureBytes
  issuerPk : x.issuerPk = some inp.issuerPubkeyBytes
  threshold : Issuer.parseU64 (x.threshold.getD "3000") = .ok inp.threshold

theorem toOption_eq_some {ε α : Type} {r : Except ε α} {a : α} : r.toOption = some a ↔ r = .ok a := by
  cases r <;> simp [Except.toOption]

/-- A proof is written exactly for an input that the guest accepts and the prover proves. -/
theorem main_eq_proof {Z : Zkvm} {x : Session} {txt : Bytes} :
    main Z x = some (.proof txt) ↔ (x.args.any (· = "--print-image-id")) = false ∧
      ∃ inp j s, x.Reads inp ∧ Guest.main Z.crates inp = .ok j ∧ Z.prove inp j = some s ∧
        txt = proofText Z s j := by
  unfold main
  cases x.args.any (· = "--print-image-id") with
  | true => simp
  | false =>
      simp only [Bool.false_eq_true, if_false, Option.bind_eq_bind, Option.pure_def,
        Option.bind_eq_some_iff, toOption_eq_some, Option.some.injEq, Output.proof.injEq, true_and]
      constructor
      · rintro ⟨st, hst, sig, hsig, pk, hpk, t, ht, j, hj, s, hs, rfl⟩
        exact ⟨_, j, s, ⟨hst, hsig, hpk, ht⟩, hj, hs, rfl⟩
      · rintro ⟨⟨st, sig, pk, t⟩, j, s, ⟨hst, hsig, hpk, ht⟩, hj, hs, rfl⟩
        exact ⟨st, hst, sig, hsig, pk, hpk, t, ht, j, hj, s, hs, rfl⟩

end ZkUnderwrite.Borrower
