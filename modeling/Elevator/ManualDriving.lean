/-
Driving by hand.  A command of the internal controls that nobody interrupts is
one step; it is accepted or refused, and an accepted one moves the destination
from where the destination is, not from where the car is, and past the last
floor as readily as anywhere else.
-/
import Elevator.Internal
import Elevator.Moves

namespace Elevator

open CText Transition

/-- A command whose accesses follow one another; none makes more than five. -/
def internalCommand (shm : CarSharedData) (operation : List Char) :
    CarSharedData × InternalPc :=
  run (fun state (_ : Unit) => internalStep state.1 state.2)
    (shm, internalMain operation) (List.replicate 5 ())

theorem internalCommand_ends (shm : CarSharedData) (operation : List Char) :
    (internalCommand shm operation).2 = .finished ∨
      ∃ error, (internalCommand shm operation).2 = .failed error := by
  simp only [internalCommand]
  generalize hmain : internalMain operation = first
  unfold internalMain at hmain
  split at hmain
  · subst hmain
    exact Or.inr ⟨_, rfl⟩
  · cases hoperation : getOperation operation with
    | none =>
        rw [hoperation] at hmain
        subst hmain
        exact Or.inr ⟨_, rfl⟩
    | some opp =>
        rw [hoperation] at hmain
        subst hmain
        cases opp with
        | opendoor =>
            simp only [Input.start, List.replicate, run_cons, run_nil, internalStep]
            by_cases hmoving : readCarStatus shm = some .Between
            · simp [hmoving]
            · simp [hmoving]
        | closedoor | stop | serviceon | serviceoff => exact Or.inl rfl
        | up | down =>
            simp only [Input.start, List.replicate, run_cons, run_nil, internalStep]
            by_cases hservice : readSharedMemory shm .getService = true
            · by_cases hopen : readCarStatus shm = some .Open
              · simp [hservice, hopen]
              · by_cases hmoving : readCarStatus shm = some .Between
                · simp [hservice, hmoving]
                · simp [hservice, hopen, hmoving]
            · simp [hservice]

/-- The commands that drive the car by hand. -/
inductive Drive where
  | up
  | down
deriving DecidableEq, Repr

namespace Drive

def operation : Drive → List Char
  | .up => "up".toList
  | .down => "down".toList

def amount : Drive → Int
  | .up => 1
  | .down => -1

def lastFloor : Drive → List Char
  | .up => "999".toList
  | .down => "B99".toList

/-- The floor whose neighbour that way has the label that is printed for what
lies beyond the last floor: 1000 and B100 are cut off to 100 and B10. -/
def besideWrapped : Drive → List Char
  | .up => "99".toList
  | .down => "B9".toList

end Drive

/-- A command is accepted in service mode, with a status that is neither `Open`
nor `Between`. -/
def Accepts (shm : CarSharedData) : Prop :=
  shm.individualServiceMode = 1 ∧ readCarStatus shm ≠ some .Open ∧
    readCarStatus shm ≠ some .Between

instance (shm : CarSharedData) : Decidable (Accepts shm) :=
  inferInstanceAs (Decidable (_ ∧ _ ∧ _))

/-- A command that is accepted moves the destination. -/
theorem internalCommand_of_accepts {shm : CarSharedData} (haccepts : Accepts shm)
    (drive : Drive) :
    internalCommand shm drive.operation =
      (editStep shm ⟨.moveDestination, drive.amount, .Opening⟩, .finished) := by
  obtain ⟨hservice, hopen, hmoving⟩ := haccepts
  have hread : readSharedMemory shm .getService = true := decide_eq_true hservice
  cases drive with
  | up =>
      have hmain : internalMain Drive.up.operation = .checkService 1 := rfl
      rw [internalCommand, hmain]
      simp [internalStep, hread, hopen, hmoving, editStep, Drive.amount,
        List.replicate]
  | down =>
      have hmain : internalMain Drive.down.operation = .checkService (-1) := rfl
      rw [internalCommand, hmain]
      simp [internalStep, hread, hopen, hmoving, editStep, Drive.amount,
        List.replicate]

theorem internalCommand_of_not_accepts {shm : CarSharedData}
    (hrefused : ¬ Accepts shm) (drive : Drive) :
    (internalCommand shm drive.operation).1 = shm ∧
      (internalCommand shm drive.operation).2 ≠ .finished := by
  have hmain : ∃ floor, internalMain drive.operation = .checkService floor := by
    cases drive <;> exact ⟨_, rfl⟩
  obtain ⟨floor, hmain⟩ := hmain
  rw [internalCommand, hmain]
  by_cases hservice : shm.individualServiceMode = 1
  · have hread : readSharedMemory shm .getService = true := decide_eq_true hservice
    by_cases hopen : readCarStatus shm = some .Open
    · simp [internalStep, hread, hopen, List.replicate]
    · have hmoving : readCarStatus shm = some .Between := by
        by_contra hmoving
        exact hrefused ⟨hservice, hopen, hmoving⟩
      simp [internalStep, hread, hmoving, List.replicate]
  · have hread : readSharedMemory shm .getService = false := decide_eq_false hservice
    simp [internalStep, hread, List.replicate]

theorem internalCommand_finished_iff (shm : CarSharedData) (drive : Drive) :
    (internalCommand shm drive.operation).2 = .finished ↔ Accepts shm := by
  constructor
  · intro hfinished
    by_contra hrefused
    exact (internalCommand_of_not_accepts hrefused drive).2 hfinished
  · intro haccepts
    rw [internalCommand_of_accepts haccepts]

/-- The segment after a command that nobody interrupts. -/
def driveStep (shm : CarSharedData) (drive : Drive) : CarSharedData :=
  (internalCommand shm drive.operation).1

theorem driveStep_of_accepts {shm : CarSharedData} (haccepts : Accepts shm)
    (drive : Drive) :
    driveStep shm drive =
      editStep shm ⟨FloorField.destination.moveOp, drive.amount, .Opening⟩ :=
  congrArg Prod.fst (internalCommand_of_accepts haccepts drive)

namespace Drive

/-- The places of these floors in the building, and that of the wrapped one. -/
def lastPlace : Drive → Nat
  | .up => 1097
  | .down => 0

def wrappedPlace : Drive → Nat
  | .up => 198
  | .down => 89

def drivenTo (drive : Drive) (j : Nat) : Nat :=
  if j = drive.lastPlace then drive.wrappedPlace else (j + drive.amount).toNat

theorem lastFloor_place (drive : Drive) :
    building[drive.lastPlace]? = some drive.lastFloor := by
  cases drive <;> exact (getElem?_building_iff _ _).mpr (by decide)

theorem wrapped_place (drive : Drive) :
    building[drive.wrappedPlace]? =
      some (floorToString (floorAtPlace (drive.lastPlace + drive.amount))).chars := by
  cases drive <;> exact (getElem?_building_iff _ _).mpr (by decide)

theorem besideWrapped_place (drive : Drive) :
    building[(drive.wrappedPlace - drive.amount).toNat]? =
      some drive.besideWrapped := by
  cases drive <;> exact (getElem?_building_iff _ _).mpr (by decide)

theorem inBuilding_of_ne_last (drive : Drive) {j : Nat} (hj : j < 1098)
    (hne : j ≠ drive.lastPlace) : InBuilding (j + drive.amount) := by
  unfold InBuilding
  cases drive with
  | up => simp only [lastPlace, amount] at hne ⊢; omega
  | down => simp only [lastPlace, amount] at hne ⊢; omega

/-- The label that a move by hand prints stands at the place driven to. -/
theorem drivenTo_place (drive : Drive) {j : Nat} (hj : j < 1098) :
    building[drive.drivenTo j]? =
      some (floorToString (floorAtPlace (j + drive.amount))).chars := by
  rw [drivenTo]
  split
  case isTrue hlast =>
    rw [hlast]
    exact drive.wrapped_place
  case isFalse hne =>
    have hinside := drive.inBuilding_of_ne_last hj hne
    obtain ⟨k, hk, hlabel⟩ := getElem?_building_floorToString hinside
    rwa [← hk, Int.toNat_natCast, hk]

/-- From the last floor a drive wraps, from any other it goes one floor on. -/
theorem drivenTo_cases (drive : Drive) {j : Nat} (hj : j < 1098) :
    j = drive.lastPlace ∧ drive.drivenTo j = drive.wrappedPlace ∨
      j ≠ drive.lastPlace ∧ (drive.drivenTo j : Int) = j + drive.amount := by
  by_cases hlast : j = drive.lastPlace
  · exact Or.inl ⟨hlast, if_pos hlast⟩
  · have hinside := drive.inBuilding_of_ne_last hj hlast
    refine Or.inr ⟨hlast, ?_⟩
    rw [drivenTo, if_neg hlast, Int.toNat_of_nonneg hinside.1]

theorem drivenTo_ne (drive : Drive) {j : Nat} (hj : j < 1098) :
    drive.drivenTo j ≠ j := by
  rcases drive.drivenTo_cases hj with ⟨rfl, hwrapped⟩ | ⟨-, hnext⟩
  · rw [hwrapped]
    cases drive <;> decide
  · cases drive <;> simp only [amount] at hnext <;> omega

end Drive

theorem place_lt {text : List Char} {i : Nat} (hi : building[i]? = some text) :
    i < 1098 :=
  ((getElem?_building_iff i text).mp hi).1

theorem place_unique {text : List Char} {i j : Nat} (hi : building[i]? = some text)
    (hj : building[j]? = some text) : i = j := by
  obtain ⟨-, hfirst⟩ := (getElem?_building_iff i text).mp hi
  obtain ⟨-, hsecond⟩ := (getElem?_building_iff j text).mp hj
  have hsame := hfirst.unique hsecond
  have hnot (m n : Int) (heq : floorAtPlace m = floorAtPlace n) : ¬ m < n := by
    rw [← floorAtPlace_lt_iff, heq]
    exact Int.lt_irrefl _
  have hle := hnot i j hsame
  have hge := hnot j i hsame.symm
  omega

theorem eq_iff_place_eq {first second : List Char} {i j : Nat}
    (hi : building[i]? = some first) (hj : building[j]? = some second) :
    first = second ↔ i = j := by
  constructor
  · rintro rfl
    exact place_unique hi hj
  · rintro rfl
    exact Option.some.inj (hi.symm.trans hj)

section Step

variable {shm : CarSharedData} {j : Nat}

theorem driveStep_withLabel (haccepts : Accepts shm)
    (hplace : building[j]? = some shm.destinationFloor.chars) (drive : Drive) :
    driveStep shm drive =
      { shm with
        destinationFloor := floorToString (floorAtPlace (j + drive.amount)) } := by
  rw [driveStep_of_accepts haccepts]
  exact @editStep_move .destination shm j hplace drive.amount .Opening

/-- Where a command that is accepted takes the destination. -/
theorem driveStep_place (haccepts : Accepts shm)
    (hplace : building[j]? = some shm.destinationFloor.chars) (drive : Drive) :
    building[drive.drivenTo j]? =
      some (driveStep shm drive).destinationFloor.chars := by
  rw [driveStep_withLabel haccepts hplace]
  exact drive.drivenTo_place (place_lt hplace)

/-- Whether it is accepted or not, a command leaves a label. -/
theorem isCanonical_driveStep (hlabel : IsCanonical shm.destinationFloor)
    (drive : Drive) : IsCanonical (driveStep shm drive).destinationFloor := by
  by_cases haccepts : Accepts shm
  · rw [driveStep_of_accepts haccepts]
    exact isCanonical_floorToString _
  · rw [driveStep, (internalCommand_of_not_accepts haccepts drive).1]
    exact hlabel

theorem IsCanonical.exists_place {label : CString 4} (hlabel : IsCanonical label) :
    ∃ i : Nat, building[i]? = some label.chars := by
  obtain ⟨i, hi, -⟩ := hlabel.names.exists_place
  exact ⟨i, hi⟩

end Step

/-- After the command the destination is the floor next to the one the car is
on, in the direction of the command. -/
def MovesFromCurrent (shm : CarSharedData) (drive : Drive) : Prop :=
  ∃ i j : Nat, (j : Int) = i + drive.amount ∧
    building[i]? = some shm.currentFloor.chars ∧
    building[j]? = some (driveStep shm drive).destinationFloor.chars

/-- The command finds the destination where the car is, with a floor beyond it;
or the destination is the last floor, and the car happens to be beside the one
that this wraps to. -/
def FindsCarThere (shm : CarSharedData) (drive : Drive) : Prop :=
  shm.destinationFloor = shm.currentFloor ∧
      shm.destinationFloor.chars ≠ drive.lastFloor ∨
    shm.destinationFloor.chars = drive.lastFloor ∧
      shm.currentFloor.chars = drive.besideWrapped

instance (shm : CarSharedData) (drive : Drive) : Decidable (FindsCarThere shm drive) :=
  inferInstanceAs (Decidable (_ ∨ _))

/-- Doors closed in service mode, with labels in both floor fields. -/
structure InManualService (shm : CarSharedData) : Prop where
  service : shm.individualServiceMode = 1
  status : shm.status = statusNames .Closed
  currentFloor : IsCanonical shm.currentFloor
  destinationFloor : IsCanonical shm.destinationFloor

theorem InManualService.accepts {shm : CarSharedData} (hshm : InManualService shm) :
    Accepts shm := by
  have hread : readCarStatus shm = some .Closed := by
    rw [readCarStatus, hshm.status, stringToStatus_statusNames]
  refine ⟨hshm.service, ?_, ?_⟩ <;> rw [hread] <;> decide

theorem InManualService.driveStep {shm : CarSharedData} (hshm : InManualService shm)
    (drive : Drive) : InManualService (driveStep shm drive) := by
  have hlabel := isCanonical_driveStep hshm.destinationFloor drive
  rw [driveStep_of_accepts hshm.accepts] at hlabel ⊢
  exact ⟨hshm.service, hshm.status, hshm.currentFloor, hlabel⟩

theorem movesFromCurrent_iff {shm : CarSharedData} (hshm : InManualService shm)
    (drive : Drive) : MovesFromCurrent shm drive ↔ FindsCarThere shm drive := by
  obtain ⟨i, hi⟩ := hshm.currentFloor.exists_place
  obtain ⟨j, hj⟩ := hshm.destinationFloor.exists_place
  have hafter := driveStep_place hshm.accepts hj drive
  have hmoves : MovesFromCurrent shm drive ↔
      (drive.drivenTo j : Int) = i + drive.amount := by
    constructor
    · rintro ⟨k, l, hkl, hk, hl⟩
      rw [place_unique hi hk, place_unique hafter hl]
      exact hkl
    · exact fun hplaces => ⟨i, drive.drivenTo j, hplaces, hi, hafter⟩
  have hsame : shm.destinationFloor = shm.currentFloor ↔ j = i := by
    rw [CString.ext_iff]
    exact eq_iff_place_eq hj hi
  rw [hmoves, FindsCarThere, hsame, ne_eq, eq_iff_place_eq hj drive.lastFloor_place,
    eq_iff_place_eq hi drive.besideWrapped_place]
  rcases drive.drivenTo_cases (place_lt hj) with ⟨hlast, hwrapped⟩ | ⟨hlast, hnext⟩
  · rw [hwrapped]
    cases drive <;> simp only [Drive.lastPlace, Drive.wrappedPlace, Drive.amount] at * <;>
      omega
  · rw [hnext]
    omega

/-- In every run of commands in manual service, each of which is accepted, each
leaves the destination next to the car exactly when each finds the destination
where the car is, and a floor beyond it. -/
theorem manual_moves_from_current_iff {shm : CarSharedData}
    (hshm : InManualService shm) (drives : List Drive) :
    Along driveStep MovesFromCurrent shm drives ↔
      Along driveStep FindsCarThere shm drives :=
  @along_iff_of_invariant _ _ _ InManualService _ _
    (fun _ drive hinv => hinv.driveStep drive)
    (fun _ drive hinv => movesFromCurrent_iff hinv drive) _ hshm drives

def servicedSegment (current destination : CString 4) : CarSharedData :=
  { initSharedData current with
    destinationFloor := destination
    individualServiceMode := 1 }

theorem inManualService_servicedSegment (current destination : Int) :
    InManualService
      (servicedSegment (floorToString current) (floorToString destination)) :=
  ⟨rfl, rfl, isCanonical_floorToString current, isCanonical_floorToString destination⟩

theorem manual_moves_from_current_once :
    Along driveStep MovesFromCurrent
      (servicedSegment (floorToString 1) (floorToString 1)) [.down] :=
  (manual_moves_from_current_iff (inManualService_servicedSegment 1 1) [.down]).mpr
    (by decide)

/-- The second of two commands up, with the car still on floor 1, makes 3 the
destination. -/
theorem manual_moves_from_destination :
    ¬ ∀ (shm : CarSharedData) (drives : List Drive), InManualService shm →
      Along driveStep MovesFromCurrent shm drives := by
  intro hall
  have hstart := inManualService_servicedSegment 1 1
  obtain ⟨-, hsecond, -⟩ := hall _ [.up, .up] hstart
  have hfinds := (movesFromCurrent_iff (hstart.driveStep .up) .up).mp hsecond
  exact absurd hfinds (by decide)

/-- A command that is accepted takes the destination one floor at most. -/
def MovesOneFloor (shm : CarSharedData) (drive : Drive) : Prop :=
  (internalCommand shm drive.operation).2 = .finished →
    ∃ i j : Nat, building[i]? = some shm.destinationFloor.chars ∧
      building[j]? = some (driveStep shm drive).destinationFloor.chars ∧
      ((j : Int) - i).natAbs ≤ 1

/-- A command that is accepted does not find the destination at the last floor
its way. -/
def HasFloorBeyond (shm : CarSharedData) (drive : Drive) : Prop :=
  Accepts shm → shm.destinationFloor.chars ≠ drive.lastFloor

instance (shm : CarSharedData) (drive : Drive) :
    Decidable (HasFloorBeyond shm drive) :=
  inferInstanceAs (Decidable (_ → _))

theorem movesOneFloor_iff {shm : CarSharedData}
    (hlabel : IsCanonical shm.destinationFloor) (drive : Drive) :
    MovesOneFloor shm drive ↔ HasFloorBeyond shm drive := by
  rw [MovesOneFloor, HasFloorBeyond, internalCommand_finished_iff]
  apply imp_congr_right
  intro haccepts
  obtain ⟨j, hj⟩ := hlabel.exists_place
  have hafter := driveStep_place haccepts hj drive
  have hmoves : (∃ k l : Nat, building[k]? = some shm.destinationFloor.chars ∧
      building[l]? = some (driveStep shm drive).destinationFloor.chars ∧
      ((l : Int) - k).natAbs ≤ 1) ↔ ((drive.drivenTo j : Int) - j).natAbs ≤ 1 := by
    constructor
    · rintro ⟨k, l, hk, hl, hnear⟩
      rw [place_unique hafter hl, place_unique hj hk]
      exact hnear
    · exact fun hnear => ⟨j, drive.drivenTo j, hj, hafter, hnear⟩
  rw [hmoves, ne_eq, eq_iff_place_eq hj drive.lastFloor_place]
  rcases drive.drivenTo_cases (place_lt hj) with ⟨hlast, hwrapped⟩ | ⟨hlast, hnext⟩
  · rw [hwrapped]
    cases drive <;> simp only [Drive.lastPlace, Drive.wrappedPlace] at * <;> omega
  · rw [hnext]
    cases drive <;> simp only [Drive.amount] <;> omega

/-- Where moves out of the building end.  An edit leaves the label alone
exactly where it has three characters and the number of the target begins with
them; and in a run of commands each that is accepted moves the destination by
one floor at most exactly when none is accepted at the last floor its way. -/
theorem moves_out_of_building_iff (shm : CarSharedData) :
    (∀ (field : FloorField) (i : Nat) (amount : Int) (status : Status),
      building[i]? = some (field.label shm).chars → ¬ InBuilding (i + amount) →
      (field.label (editStep shm ⟨field.moveOp, amount, status⟩) = field.label shm ↔
        (field.label shm).chars.length = 3 ∧
          (field.label shm).chars <+: printedFloor (floorAtPlace (i + amount)))) ∧
    ∀ drives : List Drive, IsCanonical shm.destinationFloor →
      (Along driveStep MovesOneFloor shm drives ↔
        Along driveStep HasFloorBeyond shm drives) := by
  constructor
  · intro field i amount status hplace houtside
    exact move_outside_unchanged_iff hplace houtside status
  · intro drives hlabel
    exact @along_iff_of_invariant _ _ _
      (fun shm : CarSharedData => IsCanonical shm.destinationFloor) _ _
      (fun _ drive hinv => isCanonical_driveStep hinv drive)
      (fun _ drive hinv => movesOneFloor_iff hinv drive) _ hlabel drives

/-- Up from 999 leads to 100. -/
theorem top_floor_wraps :
    (¬ ∀ (field : FloorField) (shm : CarSharedData) (i : Nat) (amount : Int)
      (status : Status), building[i]? = some (field.label shm).chars →
      ¬ InBuilding (i + amount) →
      field.label (editStep shm ⟨field.moveOp, amount, status⟩) = field.label shm) ∧
    ¬ ∀ (shm : CarSharedData) (drives : List Drive),
      IsCanonical shm.destinationFloor → Along driveStep MovesOneFloor shm drives := by
  constructor
  · intro hall
    have hmove := hall .destination
      (servicedSegment (floorToString 999) (floorToString 999)) 1097 1 .Opening
      ((getElem?_building_iff 1097 _).mpr (by decide)) (by decide)
    exact absurd hmove (by decide)
  · intro hall
    have hlabel := isCanonical_floorToString 999
    obtain ⟨hfirst, -⟩ := hall
      (servicedSegment (floorToString 999) (floorToString 999)) [.up] hlabel
    exact absurd ((movesOneFloor_iff hlabel .up).mp hfirst) (by decide)

end Elevator
