/-
Waiting lists that are served at the head and joined anywhere.  Whoever joins
overtakes the others once at most, so an entry is served at the latest when as
many others have been as stood before it and have joined since.
-/
import Mathlib.Data.List.InsertIdx

namespace Turns

universe u

variable {α : Type u}

/-- Every entry of `before` is in `after`, with at most `n` more before it. -/
def Overtakes (n : Nat) (before after : List α) : Prop :=
  ∀ front entry back, before = front ++ entry :: back →
    ∃ front' back', after = front' ++ entry :: back' ∧
      front'.length ≤ front.length + n

namespace Overtakes

variable {n : Nat} {before after : List α}

theorem refl (n : Nat) (entries : List α) : Overtakes n entries entries :=
  fun front _ back hsplit => ⟨front, back, hsplit, Nat.le_add_right ..⟩

theorem mono {m : Nat} (hovertakes : Overtakes n before after) (hle : n ≤ m) :
    Overtakes m before after := by
  intro front entry back hsplit
  obtain ⟨front', back', hafter, hlength⟩ := hovertakes front entry back hsplit
  exact ⟨front', back', hafter, by omega⟩

theorem head (x : α) (entries : List α) : Overtakes 1 entries (x :: entries) := by
  intro front entry back hsplit
  exact ⟨x :: front, back, by rw [hsplit, List.cons_append], by simp⟩

/-- The end of the list is no concern of those who wait. -/
theorem append (entries more : List α) : Overtakes 0 entries (entries ++ more) := by
  intro front entry back hsplit
  refine ⟨front, back ++ more, ?_, Nat.le_refl _⟩
  rw [hsplit, List.append_assoc, List.cons_append]

theorem cons (hovertakes : Overtakes n before after) (x : α) :
    Overtakes n (x :: before) (x :: after) := by
  intro front entry back hsplit
  cases front with
  | nil =>
      obtain ⟨rfl, -⟩ := List.cons.inj hsplit
      exact ⟨[], after, rfl, Nat.zero_le _⟩
  | cons first rest =>
      obtain ⟨rfl, hrest⟩ := List.cons.inj hsplit
      obtain ⟨front', back', hafter, hlength⟩ := hovertakes rest entry back hrest
      refine ⟨x :: front', back', by rw [hafter, List.cons_append], ?_⟩
      rw [List.length_cons, List.length_cons]
      omega

theorem insertIdx (x : α) (entries : List α) (i : Nat) :
    Overtakes 1 entries (entries.insertIdx i x) := by
  induction entries generalizing i with
  | nil =>
      intro front entry back hsplit
      exact absurd hsplit.symm (List.append_ne_nil_of_right_ne_nil _
        (List.cons_ne_nil entry back))
  | cons first rest ih =>
      cases i with
      | zero => exact head x (first :: rest)
      | succ i =>
          rw [List.insertIdx_succ_cons]
          exact (ih i).cons first

end Overtakes

/-- The entry has been served in its turn, or stands in the list with so many
before it that it will be: the bound is the place it had, and one for everybody
who has joined.  Entries are values, so an equal one that is served first counts
as this one. -/
def HasTurn (entry : α) (place : Nat) (served entries : List α) (joined : Nat) :
    Prop :=
  (∃ k ≤ place + joined, served[k]? = some entry) ∨
    ∃ front back, entries = front ++ entry :: back ∧
      front.length + served.length ≤ place + joined

namespace HasTurn

variable {entry : α} {place joined : Nat} {served entries : List α}

theorem start (front : List α) (entry : α) (back : List α) :
    HasTurn entry front.length [] (front ++ entry :: back) 0 :=
  Or.inr ⟨front, back, rfl, by simp⟩

theorem join (hturn : HasTurn entry place served entries joined) {n : Nat}
    {after : List α} (hovertakes : Overtakes n entries after) :
    HasTurn entry place served after (joined + n) := by
  rcases hturn with ⟨k, hk, hserved⟩ | ⟨front, back, hsplit, hlength⟩
  · exact Or.inl ⟨k, by omega, hserved⟩
  · obtain ⟨front', back', hafter, hfront⟩ := hovertakes front entry back hsplit
    exact Or.inr ⟨front', back', hafter, by omega⟩

theorem serve {head : α} {rest : List α}
    (hturn : HasTurn entry place served (head :: rest) joined) :
    HasTurn entry place (served ++ [head]) rest joined := by
  rcases hturn with ⟨k, hk, hserved⟩ | ⟨front, back, hsplit, hlength⟩
  · obtain ⟨hlt, -⟩ := List.getElem?_eq_some_iff.mp hserved
    exact Or.inl ⟨k, hk, by rw [List.getElem?_append_left hlt, hserved]⟩
  · cases front with
    | nil =>
        obtain ⟨rfl, -⟩ := List.cons.inj hsplit
        exact Or.inl ⟨served.length, by simpa using hlength, by simp⟩
    | cons first front =>
        obtain ⟨-, hrest⟩ := List.cons.inj hsplit
        refine Or.inr ⟨front, back, hrest, ?_⟩
        rw [List.length_cons] at hlength
        rw [List.length_append, List.length_singleton]
        omega

end HasTurn

end Turns
