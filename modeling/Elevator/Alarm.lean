/-
False alarms.  The programs write into the segment in ways of their own: orders
and range checks copy labels, the door cycle and the monitor write statuses and
buttons past `edit_shared_memory`.  Nothing any of them writes gives the monitor
cause for an alarm by its form alone.
-/
import Elevator.Edits
import Elevator.ServiceMode

namespace Elevator

open CText Transition

/-- Who takes the next step at a car: its threads, the monitor and the commands
of the internal controls, or some other process with an edit. -/
inductive SiteAction where
  | control (action : ControlAction)
  | edit (edit : Edit)
deriving DecidableEq, Repr

def siteStep (state : ControlledCar) :
    SiteAction → ControlledCar × List SafetyMessage
  | .control .safety =>
      (controlStep state .safety, (safetyPass state.car.data).2)
  | .control action => (controlStep state action, [])
  | .edit edit =>
      ({ state with
        car := { state.car with data := editStep state.car.data edit } }, [])

def siteNext (state : ControlledCar) (action : SiteAction) : ControlledCar :=
  (siteStep state action).1

/-- What a message of the monitor says about the segment. -/
def Warranted (shm : CarSharedData) : SafetyMessage → Prop
  | .emergencyStop => shm.emergencyStop = 1
  | .overload => shm.overload = 1
  | .dataConsistency | .doorStatusConsistency => doorStatusInvalid shm = true
  | .floorConsistency | .statusConsistency | .buttonConsistency => False

/-- What turns emergency mode on: a pass of the monitor that has cause to, or
another process that asks for it. -/
def Alarms (shm : CarSharedData) : SiteAction → Prop
  | .control .safety => ¬ NoCause shm
  | .edit edit => edit.operation = .setEmergency
  | _ => False

/-- Orders are for canonical labels, and edits are for floors within 2^30. -/
def SiteAction.IsOrderly : SiteAction → Prop
  | .control (.floor label) => IsLabel label
  | .edit change => change.floor.natAbs ≤ 2 ^ 30
  | _ => True

/-- The arithmetic of an edit stays within `int`, where the numbers of the model
are those of the code. -/
def SiteAction.Fits (state : ControlledCar) : SiteAction → Prop
  | .edit change => ArithmeticFits state.car.data change
  | _ => True

/-- Whatever is printed is warranted, and emergency mode comes on when there is
cause, and only then. -/
def AlarmedOnCause (state : ControlledCar) (action : SiteAction) : Prop :=
  (∀ message ∈ (siteStep state action).2, Warranted state.car.data message) ∧
    (state.car.data.emergencyMode = 0 →
      ((siteNext state action).car.data.emergencyMode = 1 ↔
        Alarms state.car.data action))

section Segment

variable {shm : CarSharedData}

theorem Uncorrupted.showing (hshm : Uncorrupted shm) (status : Status) :
    Uncorrupted { shm with status := statusNames status } :=
  hshm.editStep ⟨.setStatus, 0, status⟩

/-- A label is copied into the destination. -/
theorem Uncorrupted.heading (hshm : Uncorrupted shm) {label : CString 4}
    (hlabel : IsCanonical label) :
    Uncorrupted { shm with destinationFloor := label } := by
  refine ⟨hshm.currentFloor, hlabel, hshm.status, fun condition => ?_⟩
  have hflag := hshm.flags condition
  cases condition <;> exact hflag

theorem Uncorrupted.clampDestination (hshm : Uncorrupted shm)
    (lowest highest : CString 4) :
    Uncorrupted (clampDestination lowest highest shm) := by
  have hreset := hshm.heading hshm.currentFloor
  simp only [Elevator.clampDestination]
  split_ifs <;> assumption

theorem Uncorrupted.operateDoorStep (hshm : Uncorrupted shm) (frame : DoorFrame) :
    Uncorrupted (operateDoorStep shm frame).1 := by
  have hopen : Uncorrupted { shm with openButton := 0 } :=
    hshm.editStep ⟨.clearOpen, 0, .Opening⟩
  have hclose : Uncorrupted { shm with closeButton := 0 } :=
    hshm.editStep ⟨.clearClose, 0, .Opening⟩
  rw [operateDoorStep_data]
  cases frame.pc with
  | writeStatus => exact hshm.showing frame.currentStatus
  | clearReopening | clearOpening | clearOpen => exact hopen
  | clearClose => exact hclose
  | report =>
      by_cases hbetween : frame.currentStatus = .Between
      · rw [if_pos hbetween]
        exact hshm
      · rw [if_neg hbetween]
        exact hshm.showing frame.currentStatus
  | _ => exact hshm

theorem Uncorrupted.processStep {car : CarState} (hcar : Uncorrupted car.data) :
    Uncorrupted (processStep car).data := by
  rw [processStep_data]
  cases car.process with
  | top => exact hcar.clampDestination _ _
  | arrived frame | serve frame => exact hcar.operateDoorStep frame
  | setBetween floordiff i => exact hcar.showing .Between
  | setClosed floordiff i => exact hcar.showing .Closed
  | move floordiff i =>
      exact hcar.editStep ⟨.moveCurrent, if 0 < floordiff then 1 else -1, .Opening⟩
  | _ => exact hcar

theorem Uncorrupted.doorcontrolStep {car : CarState}
    (hcar : Uncorrupted car.data) : Uncorrupted (doorcontrolStep car).data := by
  unfold Elevator.doorcontrolStep
  split
  · split <;> exact hcar
  · exact hcar.operateDoorStep _

theorem Uncorrupted.receiveFloor {car : CarState} (hcar : Uncorrupted car.data)
    {label : CString 4} (hlabel : IsLabel label) :
    Uncorrupted (receiveFloor car label).data := by
  rw [receiveFloor_data]
  split_ifs
  · exact hcar.heading ((isLabel_iff_isCanonical _).mp hlabel)
  · exact hcar

theorem Uncorrupted.safetyPass (hshm : Uncorrupted shm) :
    Uncorrupted (safetyPass shm).1 := by
  have hreopened : Uncorrupted (reopenOnObstruction shm) := by
    unfold reopenOnObstruction
    split
    · exact (hshm.showing .Opening).editStep ⟨.setOpen, 0, .Opening⟩
    · exact hshm
  rw [safetyPass_data]
  cases raisesEmergency (reopenOnObstruction shm) with
  | true => exact hreopened.editStep ⟨.setEmergency, 0, .Opening⟩
  | false => exact hreopened

/-- An access of a command is an edit, or it only reads. -/
theorem Uncorrupted.internalStep (hshm : Uncorrupted shm) (pc : InternalPc) :
    Uncorrupted (internalStep shm pc).1 := by
  cases pc with
  | setOpen => exact hshm.editStep ⟨.setOpen, 0, .Opening⟩
  | setClose => exact hshm.editStep ⟨.setClose, 0, .Opening⟩
  | setEmergencyStop => exact hshm.editStep ⟨.setEmergencyStop, 0, .Opening⟩
  | setService => exact hshm.editStep ⟨.setService, 0, .Opening⟩
  | clearEmergency => exact hshm.editStep ⟨.clearEmergency, 0, .Opening⟩
  | clearEmergencyStop => exact hshm.editStep ⟨.clearEmergencyStop, 0, .Opening⟩
  | clearOverload => exact hshm.editStep ⟨.clearOverload, 0, .Opening⟩
  | clearDoorObstruction =>
      exact hshm.editStep ⟨.clearDoorObstruction, 0, .Opening⟩
  | clearService => exact hshm.editStep ⟨.clearService, 0, .Opening⟩
  | moveDestination floor => exact hshm.editStep ⟨.moveDestination, floor, .Opening⟩
  | _ => exact hshm

/-- The two reports that are guarded by a button and a sensor. -/
theorem safetyPass_warns (shm : CarSharedData) :
    (.emergencyStop ∈ (safetyPass shm).2 → shm.emergencyStop = 1) ∧
      (.overload ∈ (safetyPass shm).2 → shm.overload = 1) := by
  rw [safetyPass]
  generalize hreopened : reopenOnObstruction shm = reopened
  have hstop : reopened.emergencyStop = shm.emergencyStop := by
    rw [← hreopened, reopenOnObstruction_frame]
  have hload : reopened.overload = shm.overload := by
    rw [← hreopened, reopenOnObstruction_frame]
  dsimp only
  rw [apply_ite Prod.snd]
  constructor
  · intro hmem
    split at hmem <;>
      simp only [mem_reportIf, reduceCtorEq, and_false, or_false, List.not_mem_nil,
        false_or, and_true, Bool.and_eq_true, decide_eq_true_eq] at hmem <;>
      exact hstop ▸ hmem.1
  · intro hmem
    split at hmem <;>
      simp only [mem_reportIf, reportIf_data, reduceCtorEq, and_false, or_false,
        List.not_mem_nil, false_or, and_true, Bool.and_eq_true,
        decide_eq_true_eq] at hmem <;>
      exact hload ▸ hmem.1

/-- What a pass over a well-formed segment prints is warranted. -/
theorem WellFormed.warranted (hform : WellFormed shm) {message : SafetyMessage}
    (hmem : message ∈ (safetyPass shm).2) : Warranted shm message := by
  rcases safetyPass_reports hform hmem with rfl | rfl | ⟨hdoor, rfl | rfl⟩
  · exact (safetyPass_warns shm).1 hmem
  · exact (safetyPass_warns shm).2 hmem
  · exact hdoor
  · exact hdoor

end Segment

section Site

variable {state : ControlledCar} {action : SiteAction}

/-- No step leaves a corrupted segment behind. -/
theorem Uncorrupted.siteNext (hstate : Uncorrupted state.car.data)
    (horderly : action.IsOrderly) :
    Uncorrupted (siteNext state action).car.data := by
  cases action with
  | edit edit => exact hstate.editStep edit
  | control action =>
      cases action with
      | process => exact hstate.processStep
      | doorcontrol => exact hstate.doorcontrolStep
      | floor label => exact hstate.receiveFloor horderly
      | safety => exact hstate.safetyPass
      | start operation => exact hstate
      | internal i =>
          simp only [Elevator.siteNext, siteStep, controlStep]
          cases state.controls[i]? with
          | none => exact hstate
          | some pc => exact hstate.internalStep pc

/-- The emergency mode that an action leaves behind. -/
theorem siteNext_emergencyMode (hother : action ≠ .control .safety)
    (hoff : state.car.data.emergencyMode = 0) :
    (siteNext state action).car.data.emergencyMode = 1 ↔
      Alarms state.car.data action := by
  have hzero : ¬ (0 : UInt8) = 1 := by decide
  cases action with
  | edit edit =>
      have hflag := flag_editStep .emergency state.car.data edit
      have hmode : (siteNext state (.edit edit)).car.data.emergencyMode =
          if edit.operation = .setEmergency then 1
          else if edit.operation = .clearEmergency then 0
          else state.car.data.emergencyMode := hflag
      rw [hmode, hoff, ite_self, Alarms]
      split_ifs with hset
      · exact iff_of_true rfl hset
      · exact iff_of_false hzero hset
  | control action =>
      cases action with
      | safety => exact absurd rfl hother
      | process =>
          have hmode := (processStep_modes state.car).1
          simp only [siteNext, siteStep, controlStep, hmode, hoff, Alarms, hzero]
      | doorcontrol =>
          have hmode := (doorcontrolStep_sameButDoors state.car).emergencyMode
          simp only [siteNext, siteStep, controlStep, hmode, hoff, Alarms, hzero]
      | floor label =>
          simp [siteNext, siteStep, controlStep, receiveFloor_data, hoff, Alarms]
      | start operation =>
          simp only [siteNext, siteStep, controlStep, hoff, Alarms, hzero]
      | internal i =>
          simp only [siteNext, siteStep, controlStep, Alarms]
          cases state.controls[i]? with
          | none => simp only [hoff, hzero]
          | some pc =>
              simp only [internalStep_emergencyMode, hoff, ite_self, hzero]

/-- A step from an uncorrupted segment alarms on cause. -/
theorem Uncorrupted.alarmedOnCause (hstate : Uncorrupted state.car.data) :
    AlarmedOnCause state action := by
  have hform := hstate.wellFormed
  by_cases hsafety : action = .control .safety
  · subst hsafety
    refine ⟨fun message hmem => hform.warranted hmem, fun hoff => ?_⟩
    have hstays := safetyPass_stays_off_iff hform hoff
    have hflag : (Elevator.safetyPass state.car.data).1.emergencyMode = 0 ∨
        (Elevator.safetyPass state.car.data).1.emergencyMode = 1 :=
      hstate.safetyPass.flags .emergency
    have hone : (Elevator.safetyPass state.car.data).1.emergencyMode = 1 ↔
        ¬ (Elevator.safetyPass state.car.data).1.emergencyMode = 0 := by
      rcases hflag with hmode | hmode <;> rw [hmode] <;> decide
    exact hone.trans (not_congr hstays)
  · refine ⟨?_, siteNext_emergencyMode hsafety⟩
    have hsilent : (siteStep state action).2 = [] := by
      cases action with
      | edit edit => rfl
      | control action =>
          cases action with
          | safety => exact absurd rfl hsafety
          | _ => rfl
    rw [hsilent]
    exact fun message hmem => absurd hmem List.not_mem_nil

theorem SiteAction.IsOrderly.fits (horderly : action.IsOrderly)
    (state : ControlledCar) : action.Fits state := by
  cases action with
  | control action => trivial
  | edit edit => exact arithmeticFits state.car.data horderly

end Site

/-- A car is started on a canonical label.  In every run of its threads, its
internal controls, the monitor and any other processes that edit the segment by
floors within 2^30, with orders for canonical labels, the monitor warns of what is
there and alarms exactly on cause, and no arithmetic of an edit leaves `int`. -/
theorem alarms_exactly_on_cause {lowest : CString 4} (hlowest : IsLabel lowest)
    (highest : CString 4) (readFlag : Int) {actions : List SiteAction}
    (horderly : ∀ action ∈ actions, action.IsOrderly) :
    Along siteNext
      (fun state action => AlarmedOnCause state action ∧ action.Fits state)
      ⟨startCar lowest highest readFlag, []⟩ actions := by
  have hstart : Uncorrupted (startCar lowest highest readFlag).data :=
    uncorrupted_initSharedData hlowest
  exact @along_of_invariant _ _ _ (fun state => Uncorrupted state.car.data)
    (fun _ action => action.IsOrderly) _ (fun _ _ hstate haction =>
      hstate.siteNext haction)
    (fun state _ hstate haction => ⟨hstate.alarmedOnCause, haction.fits state⟩) _
    hstart _ (along_of_forall_mem horderly)

/-- A car is on its way to floor 4 when it is sent one further and is overloaded. -/
def overloadedTrip : List SiteAction :=
  [.control .process, .control (.floor (floorToString 4)), .control .safety,
    .control .process, .edit ⟨.moveDestination, 1, .Closed⟩,
    .edit ⟨.setOverload, 0, .Closed⟩, .control .process, .control .safety]

theorem alarms_exactly_on_cause_overload :
    let start : ControlledCar :=
      ⟨startCar (floorToString 1) (floorToString 10) 0, []⟩
    Along siteNext
        (fun state action => AlarmedOnCause state action ∧ action.Fits state) start
        overloadedTrip ∧
      (run siteNext start overloadedTrip).car.data.emergencyMode = 1 := by
  have horderly : ∀ action ∈ overloadedTrip, action.IsOrderly := by
    simp [overloadedTrip, SiteAction.IsOrderly, floorToString_isLabel]
  exact ⟨alarms_exactly_on_cause (floorToString_isLabel 1) (floorToString 10) 0
    horderly, by decide⟩

end Elevator
