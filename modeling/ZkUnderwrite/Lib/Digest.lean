import Mathlib.Data.Set.Function
import ZkUnderwrite.Lib.Bytes

/-!
# Blocks of bytes and digests of lists

`blocks` writes fixed-width fields one behind the other; with a fixed width the fields can be read
back. `chain` folds a list into one digest, cell by cell from the right, as a hash list does: where the
hash does not collide on the strings that were hashed, equal digests of lists of one length come from
equal lists.
-/

namespace ByteString

variable {n : Nat}

/-! ## Fields of a fixed width -/

def blocks (l : List (BytesN n)) : Bytes := (l.map BytesN.val).flatten

@[simp] theorem blocks_nil : blocks ([] : List (BytesN n)) = [] := rfl

@[simp] theorem blocks_cons (b : BytesN n) (l : List (BytesN n)) :
    blocks (b :: l) = b.val ++ blocks l := rfl

theorem length_blocks (l : List (BytesN n)) : (blocks l).length = n * l.length := by
  induction l with
  | nil => rfl
  | cons b l ih =>
      rw [blocks_cons, List.length_append, ih, b.length_eq, List.length_cons, Nat.mul_succ]
      omega

/-- As many fields on both sides can be told apart from what follows them. -/
theorem blocks_append_inj {l l' : List (BytesN n)} {r r' : Bytes} (hlen : l.length = l'.length)
    (h : blocks l ++ r = blocks l' ++ r') : l = l' ∧ r = r' := by
  induction l generalizing l' with
  | nil =>
      cases List.length_eq_zero_iff.mp hlen.symm
      exact ⟨rfl, h⟩
  | cons b l ih =>
      cases l' with
      | nil => cases hlen
      | cons b' l' =>
          rw [blocks_cons, blocks_cons, List.append_assoc, List.append_assoc] at h
          obtain ⟨hb, hrest⟩ := List.append_inj h (b.length_eq.trans b'.length_eq.symm)
          obtain ⟨rfl, hr⟩ := ih (Nat.succ.inj hlen) hrest
          exact ⟨by rw [BytesN.ext hb], hr⟩

/-! ## Digests of lists -/

section
variable {α δ : Type*} (hash : Bytes → δ) (cell : α → δ → Bytes)

/-- The digest of a list: each element is hashed together with the digest of what follows it. -/
def chain (nil : δ) : List α → δ
  | [] => nil
  | a :: l => hash (cell a (chain nil l))

/-- The strings that `chain` hashes. -/
def chainInputs (nil : δ) : List α → List Bytes
  | [] => []
  | a :: l => cell a (chain hash cell nil l) :: chainInputs nil l

variable {hash cell} {nil : δ} {S : Set Bytes}

theorem chain_inj_of_length (hcell : ∀ a d a' d', cell a d = cell a' d' → a = a' ∧ d = d')
    (hcol : Set.InjOn hash S) {l l' : List α} (hlen : l.length = l'.length)
    (hS : ∀ x ∈ chainInputs hash cell nil l, x ∈ S) (hS' : ∀ x ∈ chainInputs hash cell nil l', x ∈ S)
    (h : chain hash cell nil l = chain hash cell nil l') : l = l' := by
  induction l generalizing l' with
  | nil => exact (List.length_eq_zero_iff.mp hlen.symm).symm
  | cons a l ih =>
      cases l' with
      | nil => cases hlen
      | cons a' l' =>
          have hmem := hS _ List.mem_cons_self
          have hmem' := hS' _ List.mem_cons_self
          obtain ⟨rfl, hd⟩ := hcell _ _ _ _ (hcol hmem hmem' h)
          rw [ih (Nat.succ.inj hlen) (fun x hx => hS x (List.mem_cons_of_mem _ hx))
            (fun x hx => hS' x (List.mem_cons_of_mem _ hx)) hd]

end

end ByteString
