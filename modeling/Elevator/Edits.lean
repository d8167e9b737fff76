/-
Histories of edits.  Whatever the components ask of the shared segment, its
texts stay labels and status names and its flags stay flags; and each flag is
the last of the operations that set or clear it.
-/
import Elevator.Floor
import Elevator.Safety
import Elevator.Transition

namespace Elevator

open CText Transition

structure Edit where
  operation : CarOp
  floor : Int
  status : Status
deriving DecidableEq, Repr

def editStep (shm : CarSharedData) (edit : Edit) : CarSharedData :=
  (editSharedMemory shm edit.operation edit.floor edit.status).1

/-- The conditions that have an operation to set, to clear and to read them. -/
inductive Condition where
  | openDoors
  | closeDoors
  | overload
  | doorObstruction
  | emergency
  | service
  | emergencyStop
deriving DecidableEq, Repr

namespace Condition

def setOp : Condition → CarOp
  | .openDoors => .setOpen
  | .closeDoors => .setClose
  | .overload => .setOverload
  | .doorObstruction => .setDoorObstruction
  | .emergency => .setEmergency
  | .service => .setService
  | .emergencyStop => .setEmergencyStop

def clearOp : Condition → CarOp
  | .openDoors => .clearOpen
  | .closeDoors => .clearClose
  | .overload => .clearOverload
  | .doorObstruction => .clearDoorObstruction
  | .emergency => .clearEmergency
  | .service => .clearService
  | .emergencyStop => .clearEmergencyStop

def getOp : Condition → CarOp
  | .openDoors => .getOpen
  | .closeDoors => .getClose
  | .overload => .getOverload
  | .doorObstruction => .getDoorObstruction
  | .emergency => .getEmergency
  | .service => .getService
  | .emergencyStop => .getEmergencyStop

theorem clearOp_ne_setOp (condition : Condition) :
    condition.clearOp ≠ condition.setOp := by
  cases condition <;> decide

/-- The flag that setting and clearing the condition write.  The emergency
operations write the mode, those of the emergency stop the button. -/
def flag (shm : CarSharedData) : Condition → UInt8
  | .openDoors => shm.openButton
  | .closeDoors => shm.closeButton
  | .overload => shm.overload
  | .doorObstruction => shm.doorObstruction
  | .emergency => shm.emergencyMode
  | .service => shm.individualServiceMode
  | .emergencyStop => shm.emergencyStop

end Condition

/-- An edit writes a flag exactly when it sets or clears its condition. -/
theorem flag_editStep (condition : Condition) (shm : CarSharedData)
    (edit : Edit) :
    condition.flag (editStep shm edit) =
      if edit.operation = condition.setOp then 1
      else if edit.operation = condition.clearOp then 0
      else condition.flag shm := by
  obtain ⟨operation, floor, status⟩ := edit
  cases condition <;> cases operation <;> rfl

section Texts

variable (shm : CarSharedData) (edit : Edit)

theorem currentFloor_editStep :
    (editStep shm edit).currentFloor = shm.currentFloor ∨
      ∃ floor, (editStep shm edit).currentFloor = floorToString floor := by
  obtain ⟨operation, floor, status⟩ := edit
  cases operation <;> first | exact Or.inl rfl | exact Or.inr ⟨_, rfl⟩

theorem destinationFloor_editStep :
    (editStep shm edit).destinationFloor = shm.destinationFloor ∨
      ∃ floor, (editStep shm edit).destinationFloor = floorToString floor := by
  obtain ⟨operation, floor, status⟩ := edit
  cases operation <;> first | exact Or.inl rfl | exact Or.inr ⟨_, rfl⟩

theorem status_editStep :
    (editStep shm edit).status = shm.status ∨
      ∃ status, (editStep shm edit).status = statusNames status := by
  obtain ⟨operation, floor, status⟩ := edit
  cases operation <;> first | exact Or.inl rfl | exact Or.inr ⟨_, rfl⟩

end Texts

/-- A segment no component has corrupted: both floors are canonical labels, the
status is one of the names and all seven flags are 0 or 1. -/
structure Uncorrupted (shm : CarSharedData) : Prop where
  currentFloor : IsCanonical shm.currentFloor
  destinationFloor : IsCanonical shm.destinationFloor
  status : ∃ status, shm.status = statusNames status
  flags : ∀ condition : Condition,
    condition.flag shm = 0 ∨ condition.flag shm = 1

theorem isCanonical_floorToString (floor : Int) :
    IsCanonical (floorToString floor) :=
  (isLabel_iff_isCanonical _).mp (floorToString_isLabel floor)

theorem flag_initSharedData (condition : Condition) (lowest : CString 4) :
    condition.flag (initSharedData lowest) = 0 := by
  cases condition <;> rfl

theorem uncorrupted_initSharedData {lowest : CString 4}
    (hlowest : IsLabel lowest) : Uncorrupted (initSharedData lowest) := by
  rw [isLabel_iff_isCanonical] at hlowest
  refine ⟨hlowest, hlowest, ⟨.Closed, rfl⟩, ?_⟩
  intro condition
  exact Or.inl (flag_initSharedData condition lowest)

theorem Uncorrupted.editStep {shm : CarSharedData} (hshm : Uncorrupted shm)
    (edit : Edit) : Uncorrupted (editStep shm edit) := by
  constructor
  · obtain heq | ⟨floor, heq⟩ := currentFloor_editStep shm edit
    · exact heq ▸ hshm.currentFloor
    · exact heq ▸ isCanonical_floorToString floor
  · obtain heq | ⟨floor, heq⟩ := destinationFloor_editStep shm edit
    · exact heq ▸ hshm.destinationFloor
    · exact heq ▸ isCanonical_floorToString floor
  · obtain heq | hname := status_editStep shm edit
    · exact heq ▸ hshm.status
    · exact hname
  · intro condition
    rw [flag_editStep]
    split_ifs
    · exact Or.inr rfl
    · exact Or.inl rfl
    · exact hshm.flags condition

/-- A label in the printed form passes the floor test of the safety system. -/
theorem isValidFloor_of_isLabel {label : CString 4} (hlabel : IsLabel label) :
    isValidFloor label = true := by
  have hlength : label.chars.length ≤ 3 := label.fits
  obtain ⟨floor, hfloor, rfl⟩ := hlabel
  rcases hfloor with ⟨hlow, hneg⟩ | ⟨hpos, hhigh⟩
  · rw [floorToString_chars_of_neg hlow (by omega)] at hlength
    rw [isValidFloor, floorToString_chars_of_neg hlow (by omega)]
    simp only [if_neg (Nat.not_lt.mpr hlength), List.all_eq_true]
    exact fun c hc => isDigit_of_mem_printInt (by omega) hc
  · have hchars := floorToString_chars_of_pos (by omega) hhigh
    rw [hchars] at hlength
    rw [isValidFloor, hchars]
    split
    · rename_i rest heq
      exact absurd heq (printInt_ne_basement (by omega) rest)
    · rw [if_neg (Nat.not_lt.mpr hlength), List.all_eq_true]
      exact fun c hc => isDigit_of_mem_printInt (by omega) hc

theorem Uncorrupted.wellFormed {shm : CarSharedData} (hshm : Uncorrupted shm) :
    WellFormed shm := by
  have hcurrent := isValidFloor_of_isLabel
    ((isLabel_iff_isCanonical _).mpr hshm.currentFloor)
  have hdest := isValidFloor_of_isLabel
    ((isLabel_iff_isCanonical _).mpr hshm.destinationFloor)
  have hflag (condition : Condition) : ¬ 1 < condition.flag shm := by
    rcases hshm.flags condition with heq | heq <;> rw [heq] <;> decide
  refine ⟨?_, (isValidStatus_iff _).mpr hshm.status, ?_⟩
  · simp [floorsInvalid, hcurrent, hdest]
  · simp only [flagsInvalid, Bool.or_eq_false_iff, decide_eq_false_iff_not]
    exact ⟨⟨⟨⟨⟨hflag .openDoors, hflag .closeDoors⟩, hflag .doorObstruction⟩,
      hflag .overload⟩, hflag .emergencyStop⟩, hflag .service⟩

/-- The numbers of a 32-bit `int`. -/
def FitsInt (n : Int) : Prop :=
  -2147483648 ≤ n ∧ n ≤ 2147483647

/-- The arithmetic of a move from either floor field stays within `int`, the
negation that prints a basement level included. -/
def ArithmeticFits (shm : CarSharedData) (edit : Edit) : Prop :=
  ∀ label ∈ [shm.currentFloor, shm.destinationFloor],
    FitsInt (stringToFloor label + edit.floor) ∧
      FitsInt (movedFloor (stringToFloor label) edit.floor) ∧
      FitsInt (-movedFloor (stringToFloor label) edit.floor)

theorem arithmeticFits (shm : CarSharedData) {edit : Edit}
    (hbound : edit.floor.natAbs ≤ 2 ^ 30) : ArithmeticFits shm edit := by
  intro label _
  have hlabel := stringToFloor_bounds label
  simp only [FitsInt, movedFloor]
  split_ifs <;> omega

/-- No history of edits corrupts the segment, and the monitor has no cause to
report its floors, its status or its flags: what a pass prints about the data
is due to an obstruction at the wrong moment. -/
theorem edits_leave_uncorrupted {lowest : CString 4} (hlowest : IsLabel lowest)
    {edits : List Edit} (hbound : ∀ edit ∈ edits, edit.floor.natAbs ≤ 2 ^ 30) :
    Along editStep ArithmeticFits (initSharedData lowest) edits ∧
      Uncorrupted (run editStep (initSharedData lowest) edits) ∧
      ∀ reported ∈ (safetyPass (run editStep (initSharedData lowest) edits)).2,
        reported ≠ .floorConsistency ∧ reported ≠ .statusConsistency ∧
          reported ≠ .buttonConsistency ∧
          (reported = .dataConsistency →
            doorStatusInvalid (run editStep (initSharedData lowest) edits) = true) := by
  have hrun : Uncorrupted (run editStep (initSharedData lowest) edits) :=
    run_of_invariant Uncorrupted (fun _ edit hshm => hshm.editStep edit)
      (uncorrupted_initSharedData hlowest) edits
  refine ⟨?_, hrun, ?_⟩
  · have hguard : Along editStep (fun _ edit => edit.floor.natAbs ≤ 2 ^ 30)
        (initSharedData lowest) edits := along_of_forall_mem hbound
    exact hguard.mono fun shm _ hfloor => arithmeticFits shm hfloor
  · intro reported hmem
    obtain rfl | rfl | ⟨hdoor, rfl | rfl⟩ := safetyPass_reports hrun.wellFormed hmem
    · simp
    · simp
    · simp [hdoor]
    · simp

/-- A long move up from B1, of whose result four bytes hold three digits. -/
theorem edits_leave_uncorrupted_far :
    Along editStep ArithmeticFits (initSharedData (floorToString (-1)))
        [⟨.moveCurrent, 1073741824, .Closed⟩] ∧
      Uncorrupted (run editStep (initSharedData (floorToString (-1)))
        [⟨.moveCurrent, 1073741824, .Closed⟩]) := by
  have hall := @edits_leave_uncorrupted _ (floorToString_isLabel (-1))
    [⟨.moveCurrent, 1073741824, .Closed⟩] (by decide)
  exact ⟨hall.1, hall.2.1⟩

/-- The condition is set, going by the last operation that sets or clears it. -/
def LastSet (condition : Condition) (edits : List Edit) : Prop :=
  ((edits.map Edit.operation).filter fun operation =>
    operation = condition.setOp || operation = condition.clearOp).getLast? =
    some condition.setOp

instance (condition : Condition) (edits : List Edit) :
    Decidable (LastSet condition edits) :=
  inferInstanceAs (Decidable (_ = _))

theorem lastSet_concat (condition : Condition) (edits : List Edit) (edit : Edit) :
    LastSet condition (edits ++ [edit]) ↔
      edit.operation = condition.setOp ∨
        edit.operation ≠ condition.clearOp ∧ LastSet condition edits := by
  have hne := condition.clearOp_ne_setOp
  simp only [LastSet, List.map_append, List.filter_append, List.map_cons,
    List.map_nil, List.filter_cons, List.filter_nil]
  by_cases hset : edit.operation = condition.setOp
  · simp [hset]
  · by_cases hclear : edit.operation = condition.clearOp
    · simp [hclear, hne]
    · simp [hset, hclear]

/-- A flag is 1 after the edits exactly when its condition was set last. -/
theorem flag_run_eq_one_iff (condition : Condition) (lowest : CString 4)
    (edits : List Edit) :
    condition.flag (run editStep (initSharedData lowest) edits) = 1 ↔
      LastSet condition edits := by
  induction edits using List.reverseRecOn with
  | nil => simp [flag_initSharedData, LastSet]
  | append_singleton edits edit ih =>
      rw [run_append, lastSet_concat, run_cons, run_nil, flag_editStep]
      split_ifs with hset hclear
      · simp [hset]
      · simp [hclear, condition.clearOp_ne_setOp]
      · simp [hset, hclear, ih]

/-- What the histories must be like for the emergency reads to answer as they
were asked: `OP_GET_EMERGENCY` reads the stop button and goes on into the
obstruction, `OP_GET_EMERGENCY_STOP` reads the mode. -/
def ReadAsSet (edits : List Edit) : Condition → Prop
  | .emergency => LastSet .emergency edits ↔
      LastSet .emergencyStop edits ∨ LastSet .doorObstruction edits
  | .emergencyStop => LastSet .emergencyStop edits ↔ LastSet .emergency edits
  | _ => True

/-- Five of the seven conditions always read back what was last written; the
two emergency conditions do exactly when the flags they are confused with
happen to agree. -/
theorem readSharedMemory_iff_lastSet_iff (condition : Condition)
    (lowest : CString 4) (edits : List Edit) :
    (readSharedMemory (run editStep (initSharedData lowest) edits)
        condition.getOp = true ↔ LastSet condition edits) ↔
      ReadAsSet edits condition := by
  have hflag (other : Condition) := flag_run_eq_one_iff other lowest edits
  cases condition with
  | emergency =>
      simp only [ReadAsSet, ← hflag]
      simp [readSharedMemory, Condition.getOp, Condition.flag, iff_comm]
  | emergencyStop =>
      simp only [ReadAsSet, ← hflag]
      simp [readSharedMemory, Condition.getOp, Condition.flag, iff_comm]
  | openDoors | closeDoors | overload | doorObstruction | service =>
      simp only [ReadAsSet, ← hflag, iff_true]
      simp [readSharedMemory, Condition.getOp, Condition.flag]

/-- An obstruction reads as an emergency nobody raised, and an emergency that
was raised does not read as one. -/
theorem readSharedMemory_emergency_confused :
    ¬ ∀ (condition : Condition) (lowest : CString 4) (edits : List Edit),
      readSharedMemory (run editStep (initSharedData lowest) edits)
        condition.getOp = true ↔ LastSet condition edits := by
  intro hreads
  have hread := hreads .emergency (floorToString 1)
    [⟨.setDoorObstruction, 0, .Closed⟩]
  exact absurd (hread.mp (by decide)) (by decide)

end Elevator
