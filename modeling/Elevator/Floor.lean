/-
Floors as numbers.  Labels run from B99 to B1 and from 1 to 999 with no floor 0
between them; counted as storeys, one after the other, the floors form an
interval of the integers and a move of the car is an addition.
-/
import Elevator.SharedMemory

namespace Elevator

open CText

/-- The floors of a building: B99 to B1 and 1 to 999. -/
def IsFloor (floor : Int) : Prop :=
  (-99 ≤ floor ∧ floor ≤ -1) ∨ (1 ≤ floor ∧ floor ≤ 999)

instance (floor : Int) : Decidable (IsFloor floor) :=
  inferInstanceAs (Decidable (_ ∨ _))

theorem IsFloor.ne_zero {floor : Int} (hfloor : IsFloor floor) : floor ≠ 0 := by
  unfold IsFloor at hfloor
  omega

/-- A label in the form the components print it. -/
def IsLabel (label : CString 4) : Prop :=
  ∃ floor, IsFloor floor ∧ label = floorToString floor

theorem isLabel_floorToString {floor : Int} (hfloor : IsFloor floor) :
    IsLabel (floorToString floor) :=
  ⟨floor, hfloor, rfl⟩

theorem stringToFloor_basement {size : Nat} {label : CString size}
    {rest : List Char} (hchars : label.chars = 'B' :: rest) :
    stringToFloor label = ((scanInt rest).map Neg.neg).getD intMin := by
  rw [stringToFloor, hchars]
  cases hscan : scanInt rest <;> simp [hscan]

theorem stringToFloor_regular {size : Nat} {label : CString size}
    (hchars : ∀ rest, label.chars ≠ 'B' :: rest) :
    stringToFloor label = (scanInt label.chars).getD intMin := by
  rw [stringToFloor]
  split
  · rename_i rest heq
    exact absurd heq (hchars rest)
  · cases hscan : scanInt label.chars <;> simp

theorem printInt_ne_basement {n : Int} (hpos : 0 < n) (rest : List Char) :
    printInt n ≠ 'B' :: rest := by
  intro heq
  rw [printInt, if_neg (by omega)] at heq
  have hmem : 'B' ∈ Nat.toDigits 10 n.natAbs := heq ▸ List.mem_cons_self
  exact absurd (Nat.isDigit_of_mem_toDigits (by decide) (by decide) hmem) (by decide)

theorem floorToString_chars_of_neg {floor : Int} (hlow : -99 ≤ floor)
    (hneg : floor < 0) :
    (floorToString floor).chars = 'B' :: printInt floor.natAbs := by
  rw [floorToString, if_pos hneg]
  apply CString.store_chars
  have hlength := length_printInt_le (n := floor.natAbs) (k := 1) (by decide)
    (by omega) (by omega)
  rw [List.length_cons]
  omega

theorem floorToString_chars_of_pos {floor : Int} (hpos : 0 < floor)
    (hhigh : floor ≤ 999) : (floorToString floor).chars = printInt floor := by
  rw [floorToString, if_neg (by omega), if_neg (by omega)]
  apply CString.store_chars
  exact length_printInt_le (k := 2) (by decide) (by omega) (by omega)

/-- Whatever number is printed, what the four bytes hold of it is the label of
a floor: the characters cut off are the last digits. -/
theorem floorToString_isLabel (floor : Int) : IsLabel (floorToString floor) := by
  rcases Int.lt_trichotomy floor 0 with hneg | rfl | hpos
  · obtain ⟨m, hm, hlt, htake⟩ :=
      exists_take_toDigits (k := 2) (by decide) (n := floor.natAbs) (by omega)
    have hchars : (floorToString (-(m : Int))).chars =
        'B' :: printInt (-(m : Int)).natAbs :=
      floorToString_chars_of_neg (by omega) (by omega)
    refine ⟨-(m : Int), Or.inl (by omega), CString.ext ?_⟩
    rw [hchars, floorToString, if_pos hneg]
    have hpos : ¬ (floor.natAbs : Int) < 0 := by omega
    have hmpos : ¬ (m : Int) < 0 := by omega
    simp only [CString.store, printInt, Int.natAbs_natCast, Int.natAbs_neg,
      if_neg hpos, if_neg hmpos]
    exact congrArg ('B' :: ·) htake
  · exact ⟨1, by decide, rfl⟩
  · obtain ⟨m, hm, hlt, htake⟩ :=
      exists_take_toDigits (k := 3) (by decide) (n := floor.natAbs) (by omega)
    have hchars : (floorToString (m : Int)).chars = printInt m :=
      floorToString_chars_of_pos (by omega) (by omega)
    refine ⟨m, Or.inr (by omega), CString.ext ?_⟩
    rw [hchars, floorToString, if_neg (by omega), if_neg (by omega)]
    have hnot : ¬ floor < 0 := by omega
    have hmpos : ¬ (m : Int) < 0 := by omega
    simp only [CString.store, printInt, Int.natAbs_natCast, if_neg hnot,
      if_neg hmpos]
    exact htake

/-- Every floor survives being printed and read back. -/
theorem stringToFloor_floorToString {floor : Int} (hfloor : IsFloor floor) :
    stringToFloor (floorToString floor) = floor := by
  rcases hfloor with ⟨hlow, hneg⟩ | ⟨hpos, hhigh⟩
  · rw [stringToFloor_basement (floorToString_chars_of_neg hlow (by omega))]
    simp only [scanInt_printInt, Option.map_some, Option.getD_some]
    omega
  · have hchars := floorToString_chars_of_pos (by omega) hhigh
    rw [stringToFloor_regular, hchars, scanInt_printInt, Option.getD_some]
    intro rest heq
    exact printInt_ne_basement (by omega) rest (hchars.symm.trans heq)

theorem isFloor_stringToFloor {label : CString 4} (hlabel : IsLabel label) :
    IsFloor (stringToFloor label) := by
  obtain ⟨floor, hfloor, rfl⟩ := hlabel
  rwa [stringToFloor_floorToString hfloor]

theorem IsLabel.floorToString_stringToFloor {label : CString 4}
    (hlabel : IsLabel label) : floorToString (stringToFloor label) = label := by
  obtain ⟨floor, hfloor, rfl⟩ := hlabel
  rw [stringToFloor_floorToString hfloor]

/-- Labels in the printed form differ when their floors do. -/
theorem IsLabel.ext {first second : CString 4} (hfirst : IsLabel first)
    (hsecond : IsLabel second)
    (hfloor : stringToFloor first = stringToFloor second) : first = second := by
  rw [← hfirst.floorToString_stringToFloor, hfloor,
    hsecond.floorToString_stringToFloor]

theorem isLabel_iff (label : CString 4) :
    IsLabel label ↔ IsFloor (stringToFloor label) ∧
      floorToString (stringToFloor label) = label :=
  ⟨fun hlabel => ⟨isFloor_stringToFloor hlabel, hlabel.floorToString_stringToFloor⟩,
    fun h => ⟨stringToFloor label, h.1, h.2.symm⟩⟩

instance (label : CString 4) : Decidable (IsLabel label) :=
  decidable_of_iff _ (isLabel_iff label).symm

/-- The labels written out: a `B` before a number from 1 to 99, or a number
from 1 to 999, without leading zeros. -/
def IsCanonical (label : CString 4) : Prop :=
  (∃ n, 1 ≤ n ∧ n ≤ 99 ∧ label.chars = 'B' :: Nat.toDigits 10 n) ∨
    ∃ n, 1 ≤ n ∧ n ≤ 999 ∧ label.chars = Nat.toDigits 10 n

theorem printInt_natCast (n : Nat) : printInt n = Nat.toDigits 10 n := by
  rw [printInt, if_neg (by omega), Int.natAbs_natCast]

theorem isLabel_iff_isCanonical (label : CString 4) :
    IsLabel label ↔ IsCanonical label := by
  constructor
  · rintro ⟨floor, ⟨hlow, hneg⟩ | ⟨hpos, hhigh⟩, rfl⟩
    · refine Or.inl ⟨floor.natAbs, by omega, by omega, ?_⟩
      rw [floorToString_chars_of_neg hlow (by omega), printInt_natCast]
    · refine Or.inr ⟨floor.natAbs, by omega, by omega, ?_⟩
      rw [floorToString_chars_of_pos (by omega) hhigh, ← printInt_natCast,
        Int.natAbs_of_nonneg (by omega)]
  · rintro (⟨n, hpos, hhigh, hchars⟩ | ⟨n, hpos, hhigh, hchars⟩)
    · refine ⟨-(n : Int), Or.inl (by omega), CString.ext ?_⟩
      rw [hchars, floorToString_chars_of_neg (by omega) (by omega),
        Int.natAbs_neg, Int.natAbs_natCast, printInt_natCast]
    · refine ⟨n, Or.inr (by omega), CString.ext ?_⟩
      rw [hchars, floorToString_chars_of_pos (by omega) (by omega), printInt_natCast]

/-- Three characters cannot name a floor outside B99 to 999. -/
theorem stringToFloor_bounds (label : CString 4) :
    -99 ≤ stringToFloor label ∧ stringToFloor label ≤ 999 := by
  have hlength : label.chars.length ≤ 3 := label.fits
  by_cases hbasement : ∃ rest, label.chars = 'B' :: rest
  · obtain ⟨rest, hchars⟩ := hbasement
    rw [stringToFloor_basement hchars]
    rw [hchars, List.length_cons] at hlength
    cases hscan : scanInt rest with
    | none => decide
    | some floor =>
        have hbounds := scanInt_bounds (k := 1) (by omega) hscan
        simp only [Option.map_some, Option.getD_some]
        omega
  · rw [stringToFloor_regular fun rest heq => hbasement ⟨rest, heq⟩]
    cases hscan : scanInt label.chars with
    | none => decide
    | some floor =>
        have hbounds := scanInt_bounds (k := 2) hlength hscan
        simp only [Option.getD_some]
        omega

/-- Floors counted consecutively: B1 is storey 0, directly below storey 1. -/
def storey (floor : Int) : Int :=
  if floor < 0 then floor + 1 else floor

theorem storey_le_iff {first second : Int} (hfirst : first ≠ 0)
    (hsecond : second ≠ 0) : storey first ≤ storey second ↔ first ≤ second := by
  simp only [storey]
  split <;> split <;> omega

theorem isFloor_of_storey_between {low floor high : Int} (hlow : IsFloor low)
    (hhigh : IsFloor high) (hne : floor ≠ 0)
    (habove : storey low ≤ storey floor) (hbelow : storey floor ≤ storey high) :
    IsFloor floor := by
  have hlow' := (storey_le_iff (by unfold IsFloor at hlow; omega) hne).mp habove
  have hhigh' := (storey_le_iff hne (by unfold IsFloor at hhigh; omega)).mp hbelow
  unfold IsFloor at *
  omega

theorem movedFloor_ne_zero {fromFloor : Int} (hfrom : fromFloor ≠ 0)
    (floor : Int) : movedFloor fromFloor floor ≠ 0 := by
  simp only [movedFloor]
  split_ifs <;> omega

/-- A move is an addition of storeys. -/
theorem storey_movedFloor {fromFloor : Int} (hfrom : fromFloor ≠ 0)
    (floor : Int) :
    storey (movedFloor fromFloor floor) = storey fromFloor + floor := by
  simp only [storey, movedFloor]
  split_ifs <;> omega

/-- The floor at a storey. -/
def floorAt (level : Int) : Int :=
  if level ≤ 0 then level - 1 else level

@[simp] theorem storey_floorAt (level : Int) : storey (floorAt level) = level := by
  simp only [storey, floorAt]
  split_ifs <;> omega

theorem floorAt_storey {floor : Int} (hne : floor ≠ 0) :
    floorAt (storey floor) = floor := by
  simp only [storey, floorAt]
  split_ifs <;> omega

theorem floorAt_ne_zero (level : Int) : floorAt level ≠ 0 := by
  simp only [floorAt]
  split_ifs <;> omega

end Elevator
