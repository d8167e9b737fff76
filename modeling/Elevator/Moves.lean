/-
Moves of the floor fields.  A move is an addition of places in the building,
whatever its length and direction, as long as it stays inside; one that leads
out of the building is printed into four bytes all the same.
-/
import Elevator.Labels
import Mathlib.Algebra.Ring.Int.Defs

namespace Elevator

open CText Transition

inductive FloorField where
  | current
  | destination
deriving DecidableEq, Repr

namespace FloorField

def moveOp : FloorField → CarOp
  | .current => .moveCurrent
  | .destination => .moveDestination

def label (shm : CarSharedData) : FloorField → CString 4
  | .current => shm.currentFloor
  | .destination => shm.destinationFloor

def withLabel (shm : CarSharedData) (label : CString 4) :
    FloorField → CarSharedData
  | .current => { shm with currentFloor := label }
  | .destination => { shm with destinationFloor := label }

variable (field : FloorField) (shm : CarSharedData)

@[simp] theorem label_withLabel (label : CString 4) :
    field.label (field.withLabel shm label) = label := by
  cases field <;> rfl

@[simp] theorem withLabel_withLabel (first second : CString 4) :
    field.withLabel (field.withLabel shm first) second =
      field.withLabel shm second := by
  cases field <;> rfl

@[simp] theorem withLabel_label : field.withLabel shm (field.label shm) = shm := by
  cases field <;> rfl

end FloorField

/-- Moves of a field by these amounts, one after the other. -/
def moves (field : FloorField) (amounts : List Int) : List Edit :=
  amounts.map fun amount => ⟨field.moveOp, amount, .Opening⟩

def InBuilding (i : Int) : Prop :=
  0 ≤ i ∧ i < 1098

instance (i : Int) : Decidable (InBuilding i) :=
  inferInstanceAs (Decidable (_ ∧ _))

/-- A move is an addition of places. -/
theorem movedFloor_floorAtPlace (i amount : Int) :
    movedFloor (floorAtPlace i) amount = floorAtPlace (i + amount) := by
  simp only [movedFloor, floorAtPlace_eq]
  split_ifs <;> omega

theorem isFloor_floorAtPlace_iff (i : Int) :
    IsFloor (floorAtPlace i) ↔ InBuilding i := by
  rw [floorAtPlace_eq]
  unfold IsFloor InBuilding
  split <;> omega

theorem getElem?_building_floorToString {i : Int} (hinside : InBuilding i) :
    ∃ j : Nat, (j : Int) = i ∧
      building[j]? = some (floorToString (floorAtPlace i)).chars := by
  obtain ⟨j, rfl⟩ := Int.eq_ofNat_of_zero_le hinside.1
  refine ⟨j, rfl, (getElem?_building_iff j _).mpr ⟨by have := hinside.2; omega, ?_⟩⟩
  exact (names_iff _ _).mpr ⟨(isFloor_floorAtPlace_iff j).mpr hinside, rfl⟩

section Field

variable {field : FloorField} {shm : CarSharedData} {i : Nat}

theorem stringToFloor_of_place {label : CString 4}
    (hplace : building[i]? = some label.chars) :
    stringToFloor label = floorAtPlace i :=
  ((getElem?_building_iff i label.chars).mp hplace).2.decodes

theorem editStep_move (hplace : building[i]? = some (field.label shm).chars)
    (amount : Int) (status : Status) :
    editStep shm ⟨field.moveOp, amount, status⟩ =
      field.withLabel shm (floorToString (floorAtPlace (i + amount))) := by
  have hstep : editStep shm ⟨field.moveOp, amount, status⟩ =
      field.withLabel shm
        (floorToString (movedFloor (stringToFloor (field.label shm)) amount)) := by
    cases field <;> rfl
  rw [hstep, stringToFloor_of_place hplace, movedFloor_floorAtPlace]

/-- The label of a place is the one that is printed for it. -/
theorem label_of_place (hplace : building[i]? = some (field.label shm).chars) :
    floorToString (floorAtPlace i) = field.label shm := by
  obtain ⟨-, hnames⟩ := (getElem?_building_iff i _).mp hplace
  obtain ⟨-, hchars⟩ := (names_iff _ _).mp hnames
  exact CString.ext hchars.symm

/-- Moves that stay in the building add up. -/
theorem run_moves (hplace : building[i]? = some (field.label shm).chars)
    {amounts : List Int}
    (hinside : ∀ k, k ≤ amounts.length → InBuilding (i + (amounts.take k).sum)) :
    run editStep shm (moves field amounts) =
      field.withLabel shm (floorToString (floorAtPlace (i + amounts.sum))) := by
  induction amounts generalizing shm i with
  | nil =>
      simp only [moves, List.map_nil, run_nil, List.sum_nil, Int.add_zero]
      rw [label_of_place hplace, FloorField.withLabel_label]
  | cons amount rest ih =>
      have hfirst : InBuilding (i + amount) := by
        have hone := hinside 1 (by rw [List.length_cons]; omega)
        rwa [List.take_one, List.head?_cons, Option.toList_some,
          List.sum_singleton] at hone
      obtain ⟨j, hj, hnext⟩ := getElem?_building_floorToString hfirst
      have hrest : ∀ k, k ≤ rest.length → InBuilding (j + (rest.take k).sum) := by
        intro k hk
        have hmore := hinside (k + 1) (by rw [List.length_cons]; omega)
        rwa [List.take_succ_cons, List.sum_cons, ← Int.add_assoc, ← hj] at hmore
      have hafter : building[j]? = some (field.label (field.withLabel shm
          (floorToString (floorAtPlace (i + amount))))).chars := by
        rwa [FloorField.label_withLabel]
      have hrun := ih hafter hrest
      rw [moves, List.map_cons, run_cons, editStep_move hplace, ← moves, hrun,
        FloorField.withLabel_withLabel, hj, List.sum_cons, Int.add_assoc]

end Field

/-- The moves of a field act on the building by addition: inside it they lead
exactly as far as they add up to, one move can be made in place of many, and
the opposite move takes them back; nothing but the field is written. -/
theorem moves_act (field : FloorField) {shm : CarSharedData} {i : Nat}
    (hplace : building[i]? = some (field.label shm).chars) {amounts : List Int}
    (hinside : ∀ k, k ≤ amounts.length → InBuilding (i + (amounts.take k).sum)) :
    (∃ (j : Nat) (label : CString 4), (j : Int) = i + amounts.sum ∧
      building[j]? = some label.chars ∧
      run editStep shm (moves field amounts) = field.withLabel shm label) ∧
    run editStep shm (moves field amounts) =
      run editStep shm (moves field [amounts.sum]) ∧
    run editStep shm (moves field (amounts ++ [-amounts.sum])) = shm := by
  have hrun := run_moves hplace hinside
  have hend : InBuilding (i + amounts.sum) := by
    have hall := hinside amounts.length (Nat.le_refl _)
    rwa [List.take_length] at hall
  obtain ⟨j, hj, hlabel⟩ := getElem?_building_floorToString hend
  refine ⟨⟨j, _, hj, hlabel, hrun⟩, ?_, ?_⟩
  · rw [hrun, moves, List.map_singleton, run_cons, run_nil, editStep_move hplace]
  · have hafter : building[j]? = some (field.label (field.withLabel shm
        (floorToString (floorAtPlace (i + amounts.sum))))).chars := by
      rwa [FloorField.label_withLabel]
    have hback : (j : Int) + -amounts.sum = i := by omega
    rw [moves, List.map_append, run_append, ← moves, hrun, List.map_singleton,
      run_cons, run_nil, editStep_move hafter, FloorField.withLabel_withLabel,
      hback, label_of_place hplace, FloorField.withLabel_label]

/-- From B2 past the ground to 3, down to B99 and back. -/
theorem moves_act_past_the_ground :
    run editStep (initSharedData (floorToString (-2)))
        (moves .current ([4, -101] ++ [97])) =
      initSharedData (floorToString (-2)) := by
  have hplace : building[97]? =
      some (initSharedData (floorToString (-2))).currentFloor.chars :=
    (getElem?_building_iff 97 _).mpr (by decide)
  exact (@moves_act .current _ 97 hplace [4, -101] (by decide)).2.2

/-- What is printed for a floor, before it is cut off. -/
def printedFloor (floor : Int) : List Char :=
  if floor < 0 then 'B' :: printInt floor.natAbs else printInt floor

theorem floorToString_floorAtPlace (i : Int) :
    floorToString (floorAtPlace i) = .store 4 (printedFloor (floorAtPlace i)) := by
  have hne : floorAtPlace i ≠ 0 := by
    simp only [floorAtPlace_eq]
    split_ifs <;> omega
  rw [floorToString, printedFloor, if_neg hne]
  split <;> rfl

theorem floorAtPlace_neg_iff (i : Int) : floorAtPlace i < 0 ↔ i < 99 := by
  rw [floorAtPlace_eq]
  split <;> omega

/-- A number outside the building takes more than three characters. -/
theorem length_printedFloor {i : Int} (houtside : ¬ InBuilding i) :
    3 < (printedFloor (floorAtPlace i)).length := by
  have hsides : i < 0 ∨ 1098 ≤ i := by
    unfold InBuilding at houtside
    omega
  rcases hsides with hbelow | habove
  · have hneg : floorAtPlace i < 0 := (floorAtPlace_neg_iff i).mpr (by omega)
    have hfar : 10 ^ 2 ≤ (floorAtPlace i).natAbs := by
      rw [floorAtPlace_eq, if_pos (by omega)]
      omega
    rw [printedFloor, if_pos hneg, printInt_natCast, List.length_cons]
    exact Nat.succ_lt_succ (lt_length_toDigits (by decide) hfar)
  · have hpos : ¬ floorAtPlace i < 0 := fun h =>
      absurd ((floorAtPlace_neg_iff i).mp h) (by omega)
    have hfar : 10 ^ 3 ≤ (floorAtPlace i).natAbs := by
      rw [floorAtPlace_eq, if_neg (by omega)]
      omega
    rw [printedFloor, if_neg hpos, printInt, if_neg hpos]
    exact lt_length_toDigits (by decide) hfar

/-- A move out of the building leaves the label as it is only where the label
has three characters and the number of the target begins with them. -/
theorem move_outside_unchanged_iff {field : FloorField} {shm : CarSharedData}
    {i : Nat} (hplace : building[i]? = some (field.label shm).chars)
    {amount : Int} (houtside : ¬ InBuilding (i + amount)) (status : Status) :
    field.label (editStep shm ⟨field.moveOp, amount, status⟩) = field.label shm ↔
      (field.label shm).chars.length = 3 ∧
        (field.label shm).chars <+: printedFloor (floorAtPlace (i + amount)) := by
  have hlong := length_printedFloor houtside
  have hcut : field.label (editStep shm ⟨field.moveOp, amount, status⟩) =
      field.label shm ↔
        (printedFloor (floorAtPlace (i + amount))).take 3 =
          (field.label shm).chars := by
    rw [editStep_move hplace, FloorField.label_withLabel, floorToString_floorAtPlace,
      CString.ext_iff]
    exact Iff.rfl
  rw [hcut, List.prefix_iff_eq_take]
  constructor
  · intro hlabel
    have hlength : (field.label shm).chars.length = 3 := by
      rw [← hlabel, List.length_take]
      omega
    rw [hlength]
    exact ⟨rfl, hlabel.symm⟩
  · rintro ⟨hlength, hlabel⟩
    rw [hlength] at hlabel
    exact hlabel.symm

end Elevator
