/-
A scan with a running minimum.  It keeps the entry at hand as long as no later
one has a smaller score, so it ends with the first of those whose score is
least.
-/
import Mathlib.Order.Lattice
import Mathlib.Data.List.Basic

namespace Least

universe u v

variable {α : Type u} {β : Type v} [LinearOrder β]

/-- The entry at place `i` is the first of the admitted entries with the least
score. -/
structure FirstLeast (admits : α → Prop) (score : α → β) (entries : List α)
    (i : Nat) (entry : α) : Prop where
  place : entries[i]? = some entry
  admitted : admits entry
  least : ∀ (j : Nat) (other : α), entries[j]? = some other →
    admits other → score entry ≤ score other
  first : ∀ (j : Nat) (other : α), j < i → entries[j]? = some other →
    admits other → score entry < score other

/-- The scan, from place `i` on, for an entry below `bound`. -/
def scan (admits : α → Bool) (score : α → β) :
    List α → Nat → β → Option (Nat × α) → Option (Nat × α)
  | [], _, _, best => best
  | entry :: rest, i, bound, best =>
      if admits entry && score entry < bound then
        scan admits score rest (i + 1) (score entry) (some (i, entry))
      else scan admits score rest (i + 1) bound best

variable {admits : α → Prop} {score : α → β} {entry head : α} {rest : List α}
  {i : Nat}

theorem FirstLeast.unique {entries : List α} {j : Nat} {other : α}
    (hentry : FirstLeast admits score entries i entry)
    (hother : FirstLeast admits score entries j other) : i = j ∧ entry = other := by
  have hplace : i = j := by
    rcases Nat.lt_trichotomy i j with hlt | heq | hlt
    · have hless := hother.first i entry hlt hentry.place hentry.admitted
      exact absurd (hentry.least j other hother.place hother.admitted)
        (not_le_of_gt hless)
    · exact heq
    · have hless := hentry.first j other hlt hother.place hother.admitted
      exact absurd (hother.least i entry hentry.place hentry.admitted)
        (not_le_of_gt hless)
  subst hplace
  exact ⟨rfl, Option.some.inj (hentry.place.symm.trans hother.place)⟩

/-- Only the scores of admitted entries matter. -/
theorem FirstLeast.congr {entries : List α} {other : α → β}
    (hleast : FirstLeast admits score entries i entry)
    (hsame : ∀ entry ∈ entries, admits entry → other entry = score entry) :
    FirstLeast admits other entries i entry := by
  have heq : ∀ (j : Nat) (entry : α), entries[j]? = some entry → admits entry →
      other entry = score entry :=
    fun j entry hplace => hsame entry (List.mem_of_getElem? hplace)
  obtain ⟨hplace, hadmitted, hmin, hfirst⟩ := hleast
  refine ⟨hplace, hadmitted, fun j later hj hlater => ?_,
    fun j earlier hlt hj hearlier => ?_⟩
  · rw [heq i entry hplace hadmitted, heq j later hj hlater]
    exact hmin j later hj hlater
  · rw [heq i entry hplace hadmitted, heq j earlier hj hearlier]
    exact hfirst j earlier hlt hj hearlier

theorem FirstLeast.of_head (hadmitted : admits head)
    (hrest : ∀ other ∈ rest, admits other → score head ≤ score other) :
    FirstLeast admits score (head :: rest) 0 head := by
  refine ⟨rfl, hadmitted, fun j other hj hother => ?_,
    fun j other hlt => absurd hlt (Nat.not_lt_zero j)⟩
  cases j with
  | zero =>
      obtain rfl : head = other := Option.some.inj hj
      exact le_refl _
  | succ j => exact hrest other (List.mem_of_getElem? hj) hother

theorem FirstLeast.of_tail (hleast : FirstLeast admits score rest i entry)
    (hhead : admits head → score entry < score head) :
    FirstLeast admits score (head :: rest) (i + 1) entry := by
  obtain ⟨hplace, hadmitted, hmin, hfirst⟩ := hleast
  refine ⟨hplace, hadmitted, fun j other hj hother => ?_,
    fun j other hlt hj hother => ?_⟩
  · cases j with
    | zero =>
        obtain rfl : head = other := Option.some.inj hj
        exact le_of_lt (hhead hother)
    | succ j => exact hmin j other hj hother
  · cases j with
    | zero =>
        obtain rfl : head = other := Option.some.inj hj
        exact hhead hother
    | succ j => exact hfirst j other (Nat.lt_of_succ_lt_succ hlt) hj hother

/-- The scan keeps what it started with, if nothing is better, or ends with the
first least entry. -/
theorem scan_spec (admits : α → Bool) (score : α → β) (entries : List α)
    (i : Nat) (bound : β) (best : Option (Nat × α)) :
    (scan admits score entries i bound best = best ∧
        ∀ entry ∈ entries, admits entry = true → bound ≤ score entry) ∨
      ∃ j entry, scan admits score entries i bound best = some (i + j, entry) ∧
        FirstLeast (admits · = true) score entries j entry ∧
        score entry < bound := by
  induction entries generalizing i bound best with
  | nil =>
      left
      refine ⟨rfl, fun entry hentry => ?_⟩
      cases hentry
  | cons head rest ih =>
      rw [scan]
      by_cases htaken : (admits head && score head < bound) = true
      · rw [if_pos htaken]
        rw [Bool.and_eq_true, decide_eq_true_eq] at htaken
        obtain ⟨hadmits, hless⟩ := htaken
        right
        rcases ih (i + 1) (score head) (some (i, head)) with
          ⟨hscan, hrest⟩ | ⟨j, entry, hscan, hleast, hbelow⟩
        · exact ⟨0, head, hscan, .of_head hadmits hrest, hless⟩
        · refine ⟨j + 1, entry, ?_, hleast.of_tail fun _ => hbelow,
            lt_trans hbelow hless⟩
          rw [hscan, Nat.add_assoc, Nat.add_comm 1 j]
      · rw [if_neg htaken]
        have hhead : admits head = true → bound ≤ score head := by
          intro hadmits
          by_contra hless
          rw [Bool.and_eq_true, decide_eq_true_eq] at htaken
          exact htaken ⟨hadmits, not_le.mp hless⟩
        rcases ih (i + 1) bound best with
          ⟨hscan, hrest⟩ | ⟨j, entry, hscan, hleast, hbelow⟩
        · exact Or.inl ⟨hscan, List.forall_mem_cons.mpr ⟨hhead, hrest⟩⟩
        · right
          refine ⟨j + 1, entry, ?_,
            hleast.of_tail fun hadmits => lt_of_lt_of_le hbelow (hhead hadmits),
            hbelow⟩
          rw [hscan, Nat.add_assoc, Nat.add_comm 1 j]

/-- From nothing, the scan finds the first least entry if it is below the
bound. -/
theorem scan_eq_some_iff (admits : α → Bool) (score : α → β) (entries : List α)
    (bound : β) (i : Nat) (entry : α) :
    scan admits score entries 0 bound none = some (i, entry) ↔
      FirstLeast (admits · = true) score entries i entry ∧ score entry < bound := by
  rcases scan_spec admits score entries 0 bound none with
    ⟨hscan, hnone⟩ | ⟨j, found, hscan, hleast, hbelow⟩
  · rw [hscan]
    constructor
    · intro h
      cases h
    · rintro ⟨hleast, hless⟩
      have hle := hnone entry (List.mem_of_getElem? hleast.place) hleast.admitted
      exact absurd hless (not_lt_of_ge hle)
  · rw [hscan, Nat.zero_add]
    constructor
    · intro h
      obtain ⟨rfl, rfl⟩ := Prod.mk.inj (Option.some.inj h)
      exact ⟨hleast, hbelow⟩
    · rintro ⟨hother, -⟩
      obtain ⟨rfl, rfl⟩ := hleast.unique hother
      rfl

end Least
