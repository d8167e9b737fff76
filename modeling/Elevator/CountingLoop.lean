/-
Counting loops whose body can raise their bound.  Where the body does nothing
at most indices, what such a loop does is a fold over the others.
-/
import Mathlib.Data.List.Range

namespace CountingLoop

universe u

variable {S : Type u}

/-- `for (i = start; i <= bound; i++) body`, with the bound looked up each time
round, and no more than `fuel` times round. -/
def loop (bound : S → Int) (body : S → Nat → S) : Nat → Nat → S → S
  | 0, _, s => s
  | fuel + 1, i, s =>
      if (i : Int) ≤ bound s then loop bound body fuel (i + 1) (body s i) else s

variable {bound : S → Int} {body : S → Nat → S} {busy : Nat → Prop}

theorem foldl_idle (hidle : ∀ s i, ¬ busy i → body s i = s) {indices : List Nat}
    (hindices : ∀ i ∈ indices, ¬ busy i) (s : S) : indices.foldl body s = s := by
  induction indices with
  | nil => rfl
  | cons i rest ih =>
      obtain ⟨hi, hrest⟩ := List.forall_mem_cons.mp hindices
      rw [List.foldl_cons, hidle s i hi]
      exact ih hrest

/-- Idle turns can be left out. -/
theorem foldl_filter_busy [DecidablePred busy]
    (hidle : ∀ s i, ¬ busy i → body s i = s) (indices : List Nat) (s : S) :
    (indices.filter (busy ·)).foldl body s = indices.foldl body s := by
  induction indices generalizing s with
  | nil => rfl
  | cons i rest ih =>
      by_cases hi : busy i
      · rw [List.filter_cons_of_pos (by simpa using hi)]
        exact ih (body s i)
      · rw [List.filter_cons_of_neg (by simpa using hi), List.foldl_cons,
          hidle s i hi]
        exact ih s

/-- Where the bound never goes down and only turns within it are busy, the loop
takes all the turns there are. -/
theorem loop_eq_foldl (hidle : ∀ s i, ¬ busy i → body s i = s)
    (hgrows : ∀ s i, bound s ≤ bound (body s i)) (fuel i : Nat) {s : S}
    (hwithin : ∀ j, busy j → (j : Int) ≤ bound s) :
    loop bound body fuel i s = (List.range' i fuel).foldl body s := by
  induction fuel generalizing i s with
  | zero => rfl
  | succ fuel ih =>
      rw [loop]
      split
      · rw [List.range'_succ, List.foldl_cons]
        apply ih
        intro j hj
        exact Int.le_trans (hwithin j hj) (hgrows s i)
      · next hpast =>
          have hlater : ∀ j ∈ List.range' i (fuel + 1), ¬ busy j := by
            intro j hj hbusy
            have hj := (List.mem_range'_1.mp hj).1
            have hbound := hwithin j hbusy
            omega
          exact (foldl_idle hidle hlater s).symm

end CountingLoop
