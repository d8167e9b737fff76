/-
A table that a loop searches from the front, reporting the index at which it
stops or -1, and that is indexed by integers nobody checks.
-/
import Mathlib.Data.List.Basic

namespace LookupTable

universe u

variable {α : Type u}

/-- The indices of a table. -/
def InTable (table : List α) (index : Int) : Prop :=
  0 ≤ index ∧ index < table.length

/-- The entry at an index.  There is none outside the table. -/
def entry (table : List α) (index : Int) : Option α :=
  if index < 0 then none else table[index.toNat]?

def searchFrom [DecidableEq α] (x : α) : List α → Int → Int
  | [], _ => -1
  | head :: rest, i => if x = head then i else searchFrom x rest (i + 1)

/-- The index of the first entry equal to `x`, or -1. -/
def search [DecidableEq α] (table : List α) (x : α) : Int :=
  searchFrom x table 0

variable {table : List α} {index : Int} {x : α}

theorem entry_natCast (i : Nat) : entry table i = table[i]? := by
  rw [entry, if_neg (by omega), Int.toNat_natCast]

theorem entry_neg (hneg : index < 0) : entry table index = none := if_pos hneg

theorem inTable_of_entry (hentry : entry table index = some x) :
    InTable table index := by
  unfold entry at hentry
  split at hentry
  · cases hentry
  · rename_i hnonneg
    obtain ⟨hlt, -⟩ := List.getElem?_eq_some_iff.mp hentry
    exact ⟨Int.not_lt.mp hnonneg, by omega⟩

variable [DecidableEq α]

/-- The search finds nothing and says -1, or it says where `x` is. -/
theorem searchFrom_spec (table : List α) (x : α) (i : Int) :
    searchFrom x table i = -1 ∧ x ∉ table ∨
      ∃ j : Nat, searchFrom x table i = i + j ∧ table[j]? = some x := by
  induction table generalizing i with
  | nil => exact Or.inl ⟨rfl, List.not_mem_nil⟩
  | cons head rest ih =>
      rw [searchFrom]
      by_cases hhead : x = head
      · rw [if_pos hhead]
        exact Or.inr ⟨0, by simp, by simp [hhead]⟩
      · rw [if_neg hhead]
        rcases ih (i + 1) with ⟨hnone, hrest⟩ | ⟨j, hfound, hplace⟩
        · exact Or.inl ⟨hnone, by simp [hhead, hrest]⟩
        · refine Or.inr ⟨j + 1, ?_, hplace⟩
          rw [hfound, Int.natCast_succ]
          omega

theorem search_of_notMem (hx : x ∉ table) : search table x = -1 := by
  rcases searchFrom_spec table x 0 with ⟨hnone, -⟩ | ⟨j, -, hplace⟩
  · exact hnone
  · exact absurd (List.mem_of_getElem? hplace) hx

theorem entry_search (hx : x ∈ table) : entry table (search table x) = some x := by
  rcases searchFrom_spec table x 0 with ⟨-, hnot⟩ | ⟨j, hfound, hplace⟩
  · exact absurd hx hnot
  · rw [search, hfound, Int.zero_add, entry_natCast, hplace]

/-- The index reported may be used exactly when `x` is in the table. -/
theorem inTable_search_iff : InTable table (search table x) ↔ x ∈ table := by
  constructor
  · intro hin
    by_contra hx
    rw [search_of_notMem hx] at hin
    exact absurd hin.1 (by decide)
  · exact fun hx => inTable_of_entry (entry_search hx)

end LookupTable
