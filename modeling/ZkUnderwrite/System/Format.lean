import ZkUnderwrite.Contract.Lemmas.Journal
import ZkUnderwrite.Guest.Lemmas.Main

/-!
# The journal between guest and contract

The guest writes the journal and the contract reads it, each with its own offsets. The five fields tile
the 81 bytes, so that reading undoes writing and writing undoes reading.
-/

namespace ZkUnderwrite.System
open ByteString Contract Guest

/-! ## Reading what was written -/

section
variable (h : BytesN 32) (t : UInt64) (m : Bool) (n : BytesN 32) (p : UInt64)

theorem length_encodeJournal : (encodeJournal h t m n p).length = journalLen := by
  simp [encodeJournal, h.length_eq, n.length_eq, journalLen]

def packJournal : BytesN journalLen := ⟨encodeJournal h t m n p, length_encodeJournal h t m n p⟩

theorem slice_issuerHash : slice (encodeJournal h t m n p) 0 32 = h.val := by
  unfold encodeJournal
  simp only [List.append_assoc]
  exact slice_append_append (a := []) rfl h.length_eq

theorem slice_threshold : slice (encodeJournal h t m n p) 32 8 = beBytes 8 t.toNat := by
  unfold encodeJournal
  rw [List.append_assoc, List.append_assoc]
  exact slice_append_append h.length_eq (length_beBytes 8 _)

theorem getElem?_meets : (encodeJournal h t m n p)[40]? = some (if m then 1 else 0) := by
  have hlen : (h.val ++ beBytes 8 t.toNat).length = 40 := by simp [h.length_eq]
  unfold encodeJournal
  rw [List.append_assoc, List.append_assoc, List.getElem?_append_right (by omega), hlen]
  rfl

theorem slice_nullifier : slice (encodeJournal h t m n p) 41 32 = n.val := by
  unfold encodeJournal
  exact slice_append_append (by simp [h.length_eq]) n.length_eq

theorem slice_period : slice (encodeJournal h t m n p) 73 8 = beBytes 8 p.toNat := by
  unfold encodeJournal
  rw [← List.append_nil (_ ++ beBytes 8 p.toNat)]
  exact slice_append_append (by simp [h.length_eq, n.length_eq]) (length_beBytes 8 _)

theorem ofNat_beNat_beBytes : UInt64.ofNat (beNat (beBytes 8 t.toNat)) = t := by
  rw [beNat_beBytes_of_lt (by simpa using t.toNat_lt), UInt64.ofNat_toNat]

theorem parse_packJournal :
    Journal.parse (packJournal h t m n p) = ⟨h, t, if m then 1 else 0, n, p⟩ := by
  ext1
  · exact BytesN.ext (slice_issuerHash h t m n p)
  · exact (congrArg (fun b => UInt64.ofNat (beNat b)) (slice_threshold h t m n p)).trans
      (ofNat_beNat_beBytes t)
  · exact Option.some.inj ((get_meets _).symm.trans (getElem?_meets h t m n p))
  · exact BytesN.ext (slice_nullifier h t m n p)
  · exact (congrArg (fun b => UInt64.ofNat (beNat b)) (slice_period h t m n p)).trans
      (ofNat_beNat_beBytes p)

end

/-! ## Writing what was read -/

theorem beBytes_ofNat_beNat {b : Bytes} (h : b.length = 8) :
    beBytes 8 (UInt64.ofNat (beNat b)).toNat = b := by
  have hlt : beNat b < 2 ^ 64 := by
    have := beNat_lt b
    rw [h] at this
    simpa using this
  rw [UInt64.toNat_ofNat_of_lt' hlt]
  simpa [h] using beBytes_beNat b

/-- The five ranges tile the journal. -/
theorem slices_tile (j : BytesN journalLen) :
    slice j.val 0 32 ++ slice j.val 32 8 ++ [(Journal.parse j).meets] ++ slice j.val 41 32 ++
      slice j.val 73 8 = j.val := by
  rw [← slice_one (get_meets j)]
  calc slice j.val 0 32 ++ slice j.val 32 8 ++ slice j.val 40 1 ++ slice j.val 41 32 ++
        slice j.val 73 8
      = slice j.val 0 81 := by
        rw [slice_append_slice j.val 0, slice_append_slice j.val 0, slice_append_slice j.val 0,
          slice_append_slice j.val 0]
    _ = j.val := slice_all j.length_eq

/-- The bytes that the guest builds from the values that the contract reads. -/
def encode (v : Journal) : Bytes :=
  encodeJournal v.issuerHash v.threshold (v.meets = 1) v.nullifier v.period

/-- Writing the values of a journal whose flag is 0 or 1 gives the journal back. -/
theorem encode_parse (j : BytesN journalLen)
    (hm : (Journal.parse j).meets = 0 ∨ (Journal.parse j).meets = 1) :
    encode (Journal.parse j) = j.val := by
  have hlen : ∀ off, off + 8 ≤ 81 → (slice j.val off 8).length = 8 :=
    fun off h => length_slice (by rw [j.length_eq]; exact h)
  have hflag : (if decide ((Journal.parse j).meets = 1) then 1 else 0) = (Journal.parse j).meets := by
    rcases hm with h | h <;> rw [h] <;> rfl
  refine Eq.trans ?_ (slices_tile j)
  simp only [encode, encodeJournal, hflag]
  simp only [Journal.parse, beBytes_ofNat_beNat (hlen 32 (by decide)),
    beBytes_ofNat_beNat (hlen 73 (by decide))]

/-! ## The reads of `request_credit` -/

/-- The five reads of `request_credit` in the bytes `j` return the values `v`. -/
structure Reads (j : Bytes) (v : Journal) : Prop where
  issuerHash : readBytes32 j offIssuerHash = .ok v.issuerHash
  threshold : readU64Be j offThreshold = .ok v.threshold
  meets : j[offMeets.toNat]? = some v.meets
  nullifier : readBytes32 j offNullifier = .ok v.nullifier
  period : readU64Be j offPeriod = .ok v.period

theorem reads_parse (j : BytesN journalLen) : Reads j.val (Journal.parse j) :=
  ⟨readBytes32_issuerHash j, readU64Be_threshold j, get_meets j, readBytes32_nullifier j,
    readU64Be_period j⟩

theorem Reads.unique {j : Bytes} {v v' : Journal} (h : Reads j v) (h' : Reads j v') : v = v' := by
  ext1
  · exact Except.ok.inj (h.issuerHash.symm.trans h'.issuerHash)
  · exact Except.ok.inj (h.threshold.symm.trans h'.threshold)
  · exact Option.some.inj (h.meets.symm.trans h'.meets)
  · exact Except.ok.inj (h.nullifier.symm.trans h'.nullifier)
  · exact Except.ok.inj (h.period.symm.trans h'.period)

/-- A journal whose flag byte is 0 or 1. -/
structure Flagged (j : Bytes) : Prop where
  length_eq : j.length = 81
  flag : j[40]? = some 0 ∨ j[40]? = some 1

/-- Whatever values the contract reads in such a journal, the guest builds it from them. -/
theorem Flagged.encode_of_reads {j : Bytes} (hj : Flagged j) {v : Journal} (h : Reads j v) :
    encode v = j := by
  have hparse := reads_parse ⟨j, hj.length_eq⟩
  rw [h.unique hparse]
  refine encode_parse _ ?_
  rcases hj.flag with hf | hf
  · exact .inl (Option.some.inj (hparse.meets.symm.trans hf))
  · exact .inr (Option.some.inj (hparse.meets.symm.trans hf))

end ZkUnderwrite.System
