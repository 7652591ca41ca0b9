import ZkUnderwrite.Verifier.Receipt

/-!
# What the digests bind

The strings that are hashed consist of fields of a fixed width, so that they determine the fields. A
SHA-256 without a collision on these strings then carries this over to the digests.
-/

namespace ZkUnderwrite.Verifier
open ByteString Contract

variable {sha256 : Bytes → BytesN 32} {S : Set Bytes}

@[simp] theorem append_val_inj {n : Nat} {c d : Bytes} {a b : BytesN n} :
    c ++ a.val = d ++ b.val ↔ c = d ∧ a = b := by
  constructor
  · intro h
    obtain ⟨hc, ha⟩ := List.append_inj' h (a.length_eq.trans b.length_eq.symm)
    exact ⟨hc, BytesN.ext ha⟩
  · rintro ⟨rfl, rfl⟩
    rfl

/-- A byte written as a 32-bit word with the byte in front. -/
theorem append_word_inj {c d : Bytes} {x y : UInt8} :
    c ++ [x, 0, 0, 0] = d ++ [y, 0, 0, 0] ↔ c = d ∧ x = y := by
  constructor
  · intro h
    obtain ⟨hc, hx⟩ := List.append_inj' h rfl
    exact ⟨hc, (List.cons.inj hx).1⟩
  · rintro ⟨rfl, rfl⟩
    rfl

theorem SystemExitCode.toByte_inj {s t : SystemExitCode} : s.toByte = t.toByte ↔ s = t := by
  cases s <;> cases t <;> decide

/-! ## Claims and outputs -/

theorem Output.preimage_inj {o o' : Output} : o.preimage = o'.preimage ↔ o = o' := by
  constructor
  · intro h
    simp only [Output.preimage, List.append_cancel_right_eq, append_val_inj, true_and] at h
    cases o
    cases o'
    simp_all
  · rintro rfl
    rfl

/-- The fields of a claim that its digest takes in: all but seven of the eight user code bytes. -/
structure ReceiptClaim.Agree (c c' : ReceiptClaim) : Prop where
  input : c.input = c'.input
  preStateDigest : c.preStateDigest = c'.preStateDigest
  postStateDigest : c.postStateDigest = c'.postStateDigest
  output : c.output = c'.output
  system : c.exitCode.system = c'.exitCode.system
  user : c.exitCode.user.val.getD 3 0 = c'.exitCode.user.val.getD 3 0

theorem ReceiptClaim.preimage_eq_iff {c c' : ReceiptClaim} : c.preimage = c'.preimage ↔ c.Agree c' := by
  constructor
  · intro h
    rw [preimage, preimage, List.append_cancel_right_eq, append_word_inj, append_word_inj,
      append_val_inj, append_val_inj, append_val_inj, append_val_inj] at h
    obtain ⟨⟨⟨⟨⟨⟨-, hin⟩, hpre⟩, hpost⟩, hout⟩, hsys⟩, huser⟩ := h
    exact ⟨hin, hpre, hpost, hout, SystemExitCode.toByte_inj.mp hsys, huser⟩
  · intro h
    simp only [preimage, h.input, h.preStateDigest, h.postStateDigest, h.output, h.system, h.user]

/-- The strings hashed for the digest that `verify` proves. -/
def claimInputs (sha256 : Bytes → BytesN 32) (imageId journalDigest : BytesN 32) : List Bytes :=
  [(⟨journalDigest, zeroDigest⟩ : Output).preimage,
    (ReceiptClaim.new sha256 imageId journalDigest).preimage]

theorem claimDigest_inj {image image' journal journal' : BytesN 32} (hcol : Set.InjOn sha256 S)
    (hS : ∀ x ∈ claimInputs sha256 image journal, x ∈ S)
    (hS' : ∀ x ∈ claimInputs sha256 image' journal', x ∈ S)
    (h : claimDigest sha256 image journal = claimDigest sha256 image' journal') :
    image = image' ∧ journal = journal' := by
  have hclaim := ReceiptClaim.preimage_eq_iff.mp
    (hcol (hS _ (by simp [claimInputs])) (hS' _ (by simp [claimInputs])) h)
  have hout := Output.preimage_inj.mp
    (hcol (hS _ (by simp [claimInputs])) (hS' _ (by simp [claimInputs])) hclaim.output)
  exact ⟨hclaim.preStateDigest, congrArg Output.journalDigest hout⟩

/-! ## Tagged structs -/

/-- The string hashed for a tagged struct. -/
def taggedInput (sha256 : Bytes → BytesN 32) (tag : String) (down : List (BytesN 32)) : Bytes :=
  (sha256 (asBytes tag)).val ++ blocks down ++ (beBytes 2 down.length).reverse

theorem taggedStruct_eq_some {tag : String} {down : List (BytesN 32)} {d : BytesN 32} :
    taggedStruct sha256 tag down = some d ↔
      down.length < 2 ^ 16 ∧ sha256 (taggedInput sha256 tag down) = d := by
  unfold taggedStruct
  split <;> simp_all [taggedInput]

theorem taggedInput_inj {tag tag' : String} {down down' : List (BytesN 32)}
    (h : taggedInput sha256 tag down = taggedInput sha256 tag' down') :
    sha256 (asBytes tag) = sha256 (asBytes tag') ∧ down = down' := by
  have hlen := congrArg List.length h
  simp only [taggedInput, List.length_append, List.length_reverse, length_beBytes, length_blocks,
    BytesN.length_eq] at hlen
  simp only [taggedInput, List.append_assoc] at h
  obtain ⟨htag, hrest⟩ := List.append_inj h (by simp [BytesN.length_eq])
  exact ⟨BytesN.ext htag, (blocks_append_inj (by omega) hrest).1⟩

/-! ## Tagged lists -/

def consInput (sha256 : Bytes → BytesN 32) (tag : String) (head tail : BytesN 32) : Bytes :=
  taggedInput sha256 tag [head, tail]

theorem consInput_inj {tag : String} {a d a' d' : BytesN 32}
    (h : consInput sha256 tag a d = consInput sha256 tag a' d') : a = a' ∧ d = d' := by
  have := (taggedInput_inj h).2
  simpa using this

/-- No cell of a tagged list panics: the list's digest is a chain of cells. -/
theorem taggedIter_eq (tag : String) (l : List (BytesN 32)) :
    taggedIter sha256 tag l = some (chain sha256 (consInput sha256 tag) zeroDigest l) := by
  induction l with
  | nil => rfl
  | cons a l ih =>
      rw [taggedIter, List.foldr_cons, ← taggedIter, ih]
      rfl

end ZkUnderwrite.Verifier
