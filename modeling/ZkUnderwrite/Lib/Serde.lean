import Mathlib.Algebra.Order.Ring.Int
import Mathlib.Data.List.Basic

/-!
# Derived structs in JSON

JSON documents, and how a derived struct reads its fields from one: from an object by name, where an
unknown member is skipped and a missing or repeated field is an error, or from an array by position.
-/

namespace Serde

/-- An integer that fits 64 bits, or any other number, as it is written. -/
inductive Number where
  | posInt (n : UInt64)
  | negInt (n : Int64)
  | float (text : String)
deriving DecidableEq, Repr

inductive Json where
  | null
  | bool (b : Bool)
  | number (n : Number)
  | string (s : String)
  | array (elements : List Json)
  | object (members : List (String × Json))

namespace Json

def asString : Json → Option String
  | .string s => some s
  | _ => none

def asU64 : Json → Option UInt64
  | .number (.posInt n) => some n
  | _ => none

def asU32 (j : Json) : Option UInt32 :=
  j.asU64.bind fun n => if n.toNat < 2 ^ 32 then some n.toUInt32 else none

def asVecU64 : Json → Option (List UInt64)
  | .array elements => elements.mapM asU64
  | _ => none

def member (members : List (String × Json)) (name : String) : Option Json :=
  match members.filter fun m => m.1 = name with
  | [m] => some m.2
  | _ => none

def fields (names : List String) : Json → Option (List Json)
  | .object members => names.mapM (member members)
  | .array elements => if elements.length = names.length then some elements else none
  | _ => none

def ofU64 (n : UInt64) : Json := .number (.posInt n)

def ofU32 (n : UInt32) : Json := ofU64 n.toUInt64

def ofVecU64 (ns : List UInt64) : Json := .array (ns.map ofU64)

theorem member_eq_none {members : List (String × Json)} {name : String}
    (h : name ∉ members.map Prod.fst) : member members name = none := by
  have hf : (members.filter fun m => m.1 = name) = [] := by
    refine List.filter_eq_nil_iff.mpr fun m hm hn => h ?_
    exact of_decide_eq_true hn ▸ List.mem_map_of_mem hm
  unfold member
  rw [hf]

/-- An object that lacks a field is rejected. -/
theorem fields_eq_none {members : List (String × Json)} {names : List String} {name : String}
    (hn : name ∈ names) (h : name ∉ members.map Prod.fst) : fields names (.object members) = none := by
  simp only [fields]
  induction names with
  | nil => cases hn
  | cons n ns ih =>
      rw [List.mapM_cons]
      rcases List.mem_cons.mp hn with rfl | hn
      · rw [member_eq_none h]; rfl
      · rw [ih hn]
        cases member members n <;> rfl

end Json

end Serde
