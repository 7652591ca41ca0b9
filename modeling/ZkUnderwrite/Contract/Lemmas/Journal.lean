import ZkUnderwrite.Contract.Policy

/-!
# What the journal readers return

The readers return the bytes at their offset when these exist and panic with `BadJournal`
otherwise.
-/

namespace ZkUnderwrite.Contract
open ByteString WhileLoop Transaction

/-! ## One byte -/

theorem checkedAdd_of_lt {a b : UInt32} (h : a.toNat + b.toNat < 2 ^ 32) :
    checkedAdd a b = .ok (a + b) := by
  rw [checkedAdd, if_pos h]

theorem checkedAdd_one {i : UInt32} (h : i.toNat < 32) :
    checkedAdd i 1 = .ok (i + 1) ∧ (i + 1).toNat = i.toNat + 1 := by
  have h1 : (1 : UInt32).toNat = 1 := rfl
  refine ⟨checkedAdd_of_lt (by omega), ?_⟩
  rw [UInt32.toNat_add, h1, Nat.mod_eq_of_lt (by omega)]

theorem byteAt_of_lt {b : Bytes} {off i : UInt32} (hb : b.length < 2 ^ 32)
    (h : off.toNat + i.toNat < b.length) : byteAt b off i = .ok b[off.toNat + i.toNat] := by
  have hi : (off + i).toNat = off.toNat + i.toNat := by
    rw [UInt32.toNat_add, Nat.mod_eq_of_lt (by omega)]
  simp only [byteAt, checkedAdd_of_lt (show off.toNat + i.toNat < 2 ^ 32 by omega), hi,
    bind, Except.bind, List.getElem?_eq_getElem h]

/-- The first missing byte is found before the index can overflow. -/
theorem byteAt_of_ge {b : Bytes} {off i : UInt32} (hlt : off.toNat + i.toNat < 2 ^ 32)
    (h : b.length ≤ off.toNat + i.toNat) : byteAt b off i = .error (.contract .badJournal) := by
  have hi : (off + i).toNat = off.toNat + i.toNat := by
    rw [UInt32.toNat_add, Nat.mod_eq_of_lt hlt]
  simp only [byteAt, checkedAdd_of_lt hlt, hi, bind, Except.bind, List.getElem?_eq_none h]

/-! ## `read_u64_be` -/

theorem shift_or_toNat {v : UInt64} {x : UInt8} (h : v.toNat < 256 ^ 7) :
    ((v <<< 8) ||| x.toUInt64).toNat = v.toNat * 256 + x.toNat := by
  have hx : x.toNat < 2 ^ 8 := x.toNat_lt
  have hs : (v <<< 8).toNat = v.toNat <<< 8 := by
    rw [UInt64.toNat_shiftLeft]
    simp only [UInt64.reduceToNat, Nat.reduceMod, Nat.shiftLeft_eq]
    exact Nat.mod_eq_of_lt (by omega)
  rw [UInt64.toNat_or, hs, UInt8.toNat_toUInt64, ← Nat.shiftLeft_add_eq_or_of_lt hx,
    Nat.shiftLeft_eq]

/-- The accumulator is the number that the bytes read so far denote. -/
def ReadU64.Inv (b : Bytes) (off : UInt32) (s : ReadU64) : Prop :=
  s.i.toNat ≤ 8 ∧ s.v.toNat = beNat (slice b off.toNat s.i.toNat)

/-- Before the eighth byte the highest byte of the accumulator is free. -/
theorem ReadU64.Inv.v_lt {b : Bytes} {off : UInt32} {s : ReadU64} (h : s.Inv b off)
    (hi : s.i.toNat < 8) : s.v.toNat < 256 ^ 7 := by
  have hlen : (slice b off.toNat s.i.toNat).length ≤ s.i.toNat := List.length_take_le _ _
  calc s.v.toNat = beNat (slice b off.toNat s.i.toNat) := h.2
    _ < 256 ^ (slice b off.toNat s.i.toNat).length := beNat_lt _
    _ ≤ 256 ^ 7 := Nat.pow_le_pow_right (by decide) (by omega)

theorem readU64BeBody_ok {b : Bytes} {off : UInt32} {s : ReadU64} (hb : b.length < 2 ^ 32)
    (hs : s.Inv b off) (hi : s.i.toNat < 8) (h : off.toNat + s.i.toNat < b.length) :
    ∃ s', readU64BeBody b off s = .ok s' ∧ s'.Inv b off ∧ s'.i.toNat = s.i.toNat + 1 := by
  obtain ⟨hadd, hnext⟩ := checkedAdd_one (i := s.i) (by omega)
  refine ⟨⟨s.i + 1, (s.v <<< 8) ||| b[off.toNat + s.i.toNat].toUInt64⟩, ?_, ⟨?_, ?_⟩, hnext⟩
  · simp only [readU64BeBody, byteAt_of_lt hb h, hadd, bind, Except.bind, pure, Except.pure]
  · show (s.i + 1).toNat ≤ 8
    omega
  · show ((s.v <<< 8) ||| b[off.toNat + s.i.toNat].toUInt64).toNat = _
    rw [shift_or_toNat (hs.v_lt hi), hs.2, hnext, slice_succ (List.getElem?_eq_getElem h),
      beNat_concat]

theorem readU64BeBody_error {b : Bytes} {off : UInt32} {s : ReadU64}
    (hlt : off.toNat + s.i.toNat < 2 ^ 32) (h : b.length ≤ off.toNat + s.i.toNat) :
    readU64BeBody b off s = .error (.contract .badJournal) := by
  simp only [readU64BeBody, byteAt_of_ge hlt h, bind, Except.bind]

theorem readU64Be_of_le {b : Bytes} {off : UInt32} (hb : b.length < 2 ^ 32)
    (h : off.toNat + 8 ≤ b.length) :
    readU64Be b off = .ok (UInt64.ofNat (beNat (slice b off.toNat 8))) := by
  obtain ⟨s, hs, hinv, hi⟩ : ∃ s, readU64BeLoop b off 8 ⟨0, 0⟩ = .ok s ∧ s.Inv b off ∧
      s.i.toNat = 8 := by
    apply whileFuel_count (c := fun s : ReadU64 => s.i.toNat) (I := ReadU64.Inv b off)
    · simp [UInt32.lt_iff_toNat_lt]
    · exact fun s hs hi => readU64BeBody_ok hb hs hi (by omega)
    · exact ⟨by decide, by simp [slice]⟩
    · decide
    · decide
  have hv : s.v = UInt64.ofNat (beNat (slice b off.toNat 8)) := by
    rw [← hi, ← hinv.2, UInt64.ofNat_toNat]
  simp only [readU64Be, hs, bind, Except.bind, pure, Except.pure, hv]

theorem readU64Be_of_gt {b : Bytes} {off : UInt32} (hb : b.length < 2 ^ 32)
    (h : b.length < off.toNat + 8) : readU64Be b off = .error (.contract .badJournal) := by
  have hoff := off.toNat_lt
  have hloop : readU64BeLoop b off 8 ⟨0, 0⟩ = .error (.contract .badJournal) := by
    refine whileFuel_count_error (N := 8) (M := b.length - off.toNat) (c := fun s => s.i.toNat)
      (I := ReadU64.Inv b off) (by omega) (fun s => by simp [UInt32.lt_iff_toNat_lt])
      (fun s hs hi => readU64BeBody_ok hb hs (by omega) (by omega))
      (fun s _ hi => readU64BeBody_error (by omega) (by omega)) ⟨by decide, by simp [slice]⟩
      (by simp) (by simp)
  simp only [readU64Be, hloop, bind, Except.bind]

/-! ## `read_bytes32` -/

/-- The first `i` bytes of the array are the bytes read so far. -/
def ReadBytes32.Inv (b : Bytes) (off : UInt32) (s : ReadBytes32) : Prop :=
  s.i.toNat ≤ 32 ∧ s.arr.val.take s.i.toNat = slice b off.toNat s.i.toNat

theorem readBytes32Body_ok {b : Bytes} {off : UInt32} {s : ReadBytes32} (hb : b.length < 2 ^ 32)
    (hs : s.Inv b off) (hi : s.i.toNat < 32) (h : off.toNat + s.i.toNat < b.length) :
    ∃ s', readBytes32Body b off s = .ok s' ∧ s'.Inv b off ∧ s'.i.toNat = s.i.toNat + 1 := by
  obtain ⟨hadd, hnext⟩ := checkedAdd_one hi
  have harr : s.i.toNat < s.arr.val.length := by rw [s.arr.length_eq]; exact hi
  refine ⟨⟨s.i + 1, s.arr.set s.i.toNat b[off.toNat + s.i.toNat]⟩, ?_, ⟨?_, ?_⟩, hnext⟩
  · simp only [readBytes32Body, byteAt_of_lt hb h, hadd, bind, Except.bind, pure, Except.pure]
  · show (s.i + 1).toNat ≤ 32
    omega
  · show (s.arr.val.set s.i.toNat _).take (s.i + 1).toNat = slice b off.toNat (s.i + 1).toNat
    rw [hnext, slice_succ (List.getElem?_eq_getElem h), List.take_add_one, ← hs.2,
      List.take_set_of_le (Nat.le_refl _), List.getElem?_set_self harr]
    rfl

theorem readBytes32Body_error {b : Bytes} {off : UInt32} {s : ReadBytes32}
    (hlt : off.toNat + s.i.toNat < 2 ^ 32) (h : b.length ≤ off.toNat + s.i.toNat) :
    readBytes32Body b off s = .error (.contract .badJournal) := by
  simp only [readBytes32Body, byteAt_of_ge hlt h, bind, Except.bind]

theorem readBytes32_of_le {b : Bytes} {off : UInt32} (hb : b.length < 2 ^ 32)
    (h : off.toNat + 32 ≤ b.length) :
    readBytes32 b off = .ok ⟨slice b off.toNat 32, length_slice h⟩ := by
  obtain ⟨s, hs, hinv, hi⟩ : ∃ s, readBytes32Loop b off 32 ⟨0, BytesN.replicate 32 0⟩ = .ok s ∧
      s.Inv b off ∧ s.i.toNat = 32 := by
    apply whileFuel_count (c := fun s : ReadBytes32 => s.i.toNat) (I := ReadBytes32.Inv b off)
    · simp [UInt32.lt_iff_toNat_lt]
    · exact fun s hs hi => readBytes32Body_ok hb hs hi (by omega)
    · exact ⟨by decide, by simp [slice]⟩
    · decide
    · decide
  have harr : s.arr = ⟨slice b off.toNat 32, length_slice h⟩ := by
    have htake := hinv.2
    rw [hi, List.take_of_length_le (Nat.le_of_eq s.arr.length_eq)] at htake
    exact BytesN.ext htake
  simp only [readBytes32, hs, bind, Except.bind, pure, Except.pure, harr]

theorem readBytes32_of_gt {b : Bytes} {off : UInt32} (hb : b.length < 2 ^ 32)
    (h : b.length < off.toNat + 32) : readBytes32 b off = .error (.contract .badJournal) := by
  have hoff := off.toNat_lt
  have hloop : readBytes32Loop b off 32 ⟨0, BytesN.replicate 32 0⟩ =
      .error (.contract .badJournal) := by
    refine whileFuel_count_error (N := 32) (M := b.length - off.toNat) (c := fun s => s.i.toNat)
      (I := ReadBytes32.Inv b off) (by omega) (fun s => by simp [UInt32.lt_iff_toNat_lt])
      (fun s hs hi => readBytes32Body_ok hb hs (by omega) (by omega))
      (fun s _ hi => readBytes32Body_error (by omega) (by omega)) ⟨by decide, by simp [slice]⟩
      (by simp) (by simp)
  simp only [readBytes32, hloop, bind, Except.bind]

/-! ## Every round -/

/-- However many rounds the loop has made, the offset of the next byte fits 32 bits. -/
theorem readU64BeLoop_inv {b : Bytes} {off : UInt32} (hb : b.length < 2 ^ 32) {k : Nat}
    {s : ReadU64} (h : readU64BeLoop b off k ⟨0, 0⟩ = .ok s) :
    s.Inv b off ∧ off.toNat + s.i.toNat < 2 ^ 32 := by
  have hoff := off.toNat_lt
  obtain ⟨hinv, hcount⟩ := whileFuel_count_invariant (N := 8) (M := b.length - off.toNat)
    (c := fun s => s.i.toNat) (I := ReadU64.Inv b off) (fun s => by simp [UInt32.lt_iff_toNat_lt])
    (fun s hs hi hin => readU64BeBody_ok hb hs hi (by omega))
    (fun s _ hi => readU64BeBody_error (by omega) (by omega)) ⟨by decide, by simp [slice]⟩
    (Nat.zero_le _) h
  exact ⟨hinv, by omega⟩

theorem readBytes32Loop_inv {b : Bytes} {off : UInt32} (hb : b.length < 2 ^ 32) {k : Nat}
    {s : ReadBytes32} (h : readBytes32Loop b off k ⟨0, BytesN.replicate 32 0⟩ = .ok s) :
    s.Inv b off ∧ off.toNat + s.i.toNat < 2 ^ 32 := by
  have hoff := off.toNat_lt
  obtain ⟨hinv, hcount⟩ := whileFuel_count_invariant (N := 32) (M := b.length - off.toNat)
    (c := fun s => s.i.toNat) (I := ReadBytes32.Inv b off)
    (fun s => by simp [UInt32.lt_iff_toNat_lt])
    (fun s hs hi hin => readBytes32Body_ok hb hs hi (by omega))
    (fun s _ hi => readBytes32Body_error (by omega) (by omega)) ⟨by decide, by simp [slice]⟩
    (Nat.zero_le _) h
  exact ⟨hinv, by omega⟩

/-! ## Enough rounds -/

theorem toNat_of_checkedAdd {a b c : UInt32} (h : checkedAdd a b = .ok c) :
    c.toNat = a.toNat + b.toNat := by
  unfold checkedAdd at h
  split at h
  · cases h
    rw [UInt32.toNat_add]
    omega
  · cases h

theorem readU64BeBody_count {b : Bytes} {off : UInt32} {s s' : ReadU64}
    (h : readU64BeBody b off s = .ok s') : s'.i.toNat = s.i.toNat + 1 := by
  obtain ⟨x, -, h⟩ := bind_eq_ok.mp h
  obtain ⟨i, hi, h⟩ := bind_eq_ok.mp h
  cases h
  exact toNat_of_checkedAdd hi

theorem readBytes32Body_count {b : Bytes} {off : UInt32} {s s' : ReadBytes32}
    (h : readBytes32Body b off s = .ok s') : s'.i.toNat = s.i.toNat + 1 := by
  obtain ⟨x, -, h⟩ := bind_eq_ok.mp h
  obtain ⟨i, hi, h⟩ := bind_eq_ok.mp h
  cases h
  exact toNat_of_checkedAdd hi

/-- Whatever the bytes and the offset, there is no ninth round. -/
theorem readU64BeLoop_exits (b : Bytes) (off : UInt32) :
    Exits (fun s => decide (s.i < 8)) (readU64BeBody b off) 8 ⟨0, 0⟩ :=
  exits_of_count (c := fun s : ReadU64 => s.i.toNat) (N := 8)
    (fun s => by simp [UInt32.lt_iff_toNat_lt]) (fun _ _ => readU64BeBody_count) (by decide)

theorem readBytes32Loop_exits (b : Bytes) (off : UInt32) :
    Exits (fun s => decide (s.i < 32)) (readBytes32Body b off) 32 ⟨0, BytesN.replicate 32 0⟩ :=
  exits_of_count (c := fun s : ReadBytes32 => s.i.toNat) (N := 32)
    (fun s => by simp [UInt32.lt_iff_toNat_lt]) (fun _ _ => readBytes32Body_count) (by decide)

/-! ## The reads of `request_credit` -/

section
variable (j : BytesN journalLen)

theorem readBytes32_issuerHash :
    readBytes32 j.val offIssuerHash = .ok (Journal.parse j).issuerHash :=
  readBytes32_of_le (by rw [j.length_eq]; decide) (by rw [j.length_eq]; decide)

theorem readU64Be_threshold : readU64Be j.val offThreshold = .ok (Journal.parse j).threshold :=
  readU64Be_of_le (by rw [j.length_eq]; decide) (by rw [j.length_eq]; decide)

theorem get_meets : j.val[offMeets.toNat]? = some (Journal.parse j).meets :=
  List.getElem?_eq_getElem (by rw [j.length_eq]; decide)

theorem readBytes32_nullifier :
    readBytes32 j.val offNullifier = .ok (Journal.parse j).nullifier :=
  readBytes32_of_le (by rw [j.length_eq]; decide) (by rw [j.length_eq]; decide)

theorem readU64Be_period : readU64Be j.val offPeriod = .ok (Journal.parse j).period :=
  readU64Be_of_le (by rw [j.length_eq]; decide) (by rw [j.length_eq]; decide)

end

end ZkUnderwrite.Contract
