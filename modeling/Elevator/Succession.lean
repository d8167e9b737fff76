/-
How often one value comes right after another in a list.  Whoever sees only some
of the entries, in order, sees the pair no more often than it can be found again
in the list, one occurrence after the other.  Between two values in succession a
list switches once.
-/
import Mathlib.Data.List.Infix

namespace Succession

universe u

variable {α : Type u}

/-- The pair, one occurrence after the other. -/
def repeated (first second : α) (n : Nat) : List α :=
  (List.replicate n [first, second]).flatten

variable {first second : α}

@[simp] theorem repeated_zero : repeated first second 0 = [] := rfl

@[simp] theorem repeated_succ (n : Nat) :
    repeated first second (n + 1) = first :: second :: repeated first second n := by
  simp [repeated, List.replicate_succ]

theorem repeated_sublist {m n : Nat} (hle : m ≤ n) :
    (repeated first second m).Sublist (repeated first second n) := by
  obtain ⟨k, rfl⟩ := Nat.exists_eq_add_of_le hle
  rw [repeated, repeated, List.replicate_add, List.flatten_append]
  exact List.sublist_append_left _ _

/-- The entries are `first` up to some place and `second` from there on. -/
def Switches (first second : α) (entries : List α) : Prop :=
  ∃ early late, entries = early ++ late ∧ (∀ entry ∈ early, entry = first) ∧
    ∀ entry ∈ late, entry = second

namespace Switches

variable {entries : List α}

theorem nil (first second : α) : Switches first second [] :=
  ⟨[], [], rfl, by simp, by simp⟩

theorem concat (hswitches : Switches first second entries) :
    Switches first second (entries ++ [second]) := by
  obtain ⟨early, late, rfl, hearly, hlate⟩ := hswitches
  refine ⟨early, late ++ [second], List.append_assoc .., hearly, ?_⟩
  exact List.forall_mem_append.mpr ⟨hlate, by simp⟩

/-- Entries that are all the same are those before the next switch. -/
theorem restart (hswitches : Switches first first entries) (next : α) :
    Switches first next entries := by
  obtain ⟨early, late, rfl, hearly, hlate⟩ := hswitches
  exact ⟨early ++ late, [], (List.append_nil _).symm,
    List.forall_mem_append.mpr ⟨hearly, hlate⟩, by simp⟩

/-- The next entry is of one kind or the other, and the rest goes on from it. -/
theorem tail {next : α} (hswitches : Switches first second (next :: entries)) :
    (next = first ∨ next = second) ∧ Switches next second entries := by
  obtain ⟨early, late, hsplit, hearly, hlate⟩ := hswitches
  cases early with
  | nil =>
      obtain rfl : next :: entries = late := hsplit
      obtain ⟨rfl, hrest⟩ := List.forall_mem_cons.mp hlate
      exact ⟨Or.inr rfl, [], entries, rfl, by simp, hrest⟩
  | cons head rest =>
      obtain ⟨rfl, rfl⟩ := List.cons.inj hsplit
      obtain ⟨rfl, hrest⟩ := List.forall_mem_cons.mp hearly
      exact ⟨Or.inl rfl, rest, late, rfl, hrest, hlate⟩

end Switches

variable [DecidableEq α]

/-- How often `second` comes right after `first`. -/
def count (first second : α) : List α → Nat
  | [] => 0
  | [_] => 0
  | a :: b :: rest =>
      (if a = first ∧ b = second then 1 else 0) + count first second (b :: rest)

theorem count_concat (l : List α) (last : α) :
    count first second (l ++ [last]) = count first second l +
      if l.getLast? = some first ∧ last = second then 1 else 0 := by
  induction l with
  | nil => simp [count]
  | cons a rest ih =>
      cases rest with
      | nil => simp [count]
      | cons b rest =>
          simp only [List.cons_append, List.getLast?_cons_cons] at ih ⊢
          rw [count, count, ih, Nat.add_assoc]

theorem count_cons_of_ne {a : α} (hne : a ≠ first) (rest : List α) :
    count first second (a :: rest) = count first second rest := by
  cases rest with
  | nil => rfl
  | cons b rest => simp [count, hne]

/-- The pair does not overlap itself, so all its occurrences fit in. -/
theorem repeated_count_sublist (hne : first ≠ second) (l : List α) :
    (repeated first second (count first second l)).Sublist l := by
  induction l with
  | nil => exact List.Sublist.refl _
  | cons a rest ih =>
      cases rest with
      | nil => exact List.nil_sublist _
      | cons b rest =>
          by_cases hpair : a = first ∧ b = second
          · obtain ⟨rfl, rfl⟩ := hpair
            have hrest : count a b (b :: rest) = count a b rest :=
              count_cons_of_ne hne.symm rest
            rw [count, if_pos ⟨rfl, rfl⟩, Nat.add_comm, repeated_succ]
            rw [hrest] at ih ⊢
            apply List.Sublist.cons_cons
            apply List.Sublist.cons_cons
            cases hcount : count a b rest with
            | zero => exact List.nil_sublist _
            | succ n =>
                rw [hcount, repeated_succ] at ih
                exact ih.of_cons_of_ne hne
          · rw [count, if_neg hpair, Nat.zero_add]
            exact ih.cons a

/-- Occurrences seen in a part of a list are there in the whole. -/
theorem repeated_sublist_of_sublist (hne : first ≠ second) {seen whole : List α}
    (hseen : seen.Sublist whole) {n : Nat} (hn : n ≤ count first second seen) :
    (repeated first second n).Sublist whole :=
  ((repeated_sublist hn).trans (repeated_count_sublist hne seen)).trans hseen

end Succession
