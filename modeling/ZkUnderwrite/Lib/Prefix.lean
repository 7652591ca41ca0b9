import Mathlib.Data.Set.Function
import ZkUnderwrite.Lib.BigEndian

/-!
# Codes that delimit themselves

A code is self-delimiting on a set when the words of its elements can be read off the front of any string:
whatever follows them, equal strings begin with the same word. Such codes can be written one behind the
other. A list that is written after its length is such a code when its elements are.
-/

namespace ByteString

variable {α β : Type*} {enc : α → Bytes} {T : Set α}

def SelfDelimiting (enc : α → Bytes) (T : Set α) : Prop :=
  ∀ a ∈ T, ∀ b ∈ T, ∀ s t, enc a ++ s = enc b ++ t → a = b ∧ s = t

theorem SelfDelimiting.mono {T' : Set α} (h : SelfDelimiting enc T) (hT : T' ⊆ T) :
    SelfDelimiting enc T' := fun a ha b hb => h a (hT ha) b (hT hb)

theorem selfDelimiting_of_length {n : Nat} (hlen : ∀ a, (enc a).length = n) (hinj : Set.InjOn enc T) :
    SelfDelimiting enc T := by
  intro a ha b hb s t h
  obtain ⟨hab, hs⟩ := List.append_inj h ((hlen a).trans (hlen b).symm)
  exact ⟨hinj ha hb hab, hs⟩

theorem SelfDelimiting.comp (h : SelfDelimiting enc T) {f : β → α} (hf : Function.Injective f) :
    SelfDelimiting (enc ∘ f) {b | f b ∈ T} := by
  intro a ha b hb s t heq
  obtain ⟨hab, hs⟩ := h _ ha _ hb _ _ heq
  exact ⟨hf hab, hs⟩

/-- A constant in front. -/
theorem SelfDelimiting.tag (h : SelfDelimiting enc T) (c : Bytes) :
    SelfDelimiting (fun a => c ++ enc a) T := by
  intro a ha b hb s t heq
  rw [List.append_assoc, List.append_assoc, List.append_cancel_left_eq] at heq
  exact h a ha b hb s t heq

/-- Padding behind. -/
theorem SelfDelimiting.pad (h : SelfDelimiting enc T) (p : α → Bytes) :
    SelfDelimiting (fun a => enc a ++ p a) T := by
  intro a ha b hb s t heq
  rw [List.append_assoc, List.append_assoc] at heq
  obtain ⟨rfl, hs⟩ := h a ha b hb _ _ heq
  exact ⟨rfl, List.append_cancel_left hs⟩

/-! ## Lists -/

/-- The length in `k` bytes and then the elements. -/
def counted (k : Nat) (enc : α → Bytes) (l : List α) : Bytes := beBytes k l.length ++ l.flatMap enc

theorem SelfDelimiting.flatMap (h : SelfDelimiting enc T) {l l' : List α} (hl : ∀ a ∈ l, a ∈ T)
    (hl' : ∀ a ∈ l', a ∈ T) (hlen : l.length = l'.length) {s t : Bytes}
    (heq : l.flatMap enc ++ s = l'.flatMap enc ++ t) : l = l' ∧ s = t := by
  induction l generalizing l' with
  | nil =>
      cases List.length_eq_zero_iff.mp hlen.symm
      exact ⟨rfl, heq⟩
  | cons a l ih =>
      cases l' with
      | nil => cases hlen
      | cons b l' =>
          rw [List.flatMap_cons, List.flatMap_cons, List.append_assoc, List.append_assoc] at heq
          obtain ⟨rfl, hrest⟩ := h a (hl a List.mem_cons_self) b (hl' b List.mem_cons_self) _ _ heq
          obtain ⟨rfl, hs⟩ := ih (fun x hx => hl x (List.mem_cons_of_mem _ hx))
            (fun x hx => hl' x (List.mem_cons_of_mem _ hx)) (Nat.succ.inj hlen) hrest
          exact ⟨rfl, hs⟩

theorem SelfDelimiting.counted (h : SelfDelimiting enc T) (k : Nat) :
    SelfDelimiting (counted k enc) {l | l.length < 256 ^ k ∧ ∀ a ∈ l, a ∈ T} := by
  rintro l ⟨hlt, hl⟩ l' ⟨hlt', hl'⟩ s t heq
  unfold ByteString.counted at heq
  rw [List.append_assoc, List.append_assoc] at heq
  obtain ⟨hcount, heq⟩ := List.append_inj heq (by rw [length_beBytes, length_beBytes])
  refine h.flatMap hl hl' ?_ heq
  have hnat := congrArg beNat hcount
  rwa [beNat_beBytes_of_lt hlt, beNat_beBytes_of_lt hlt'] at hnat

end ByteString
