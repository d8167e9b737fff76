/-
Emergency mode.  The process thread never reads `emergency_mode`: a car stands
still in emergency exactly because it had nowhere to go, not because of the
mode.  A schedule that raises the mode on such a car only keeps it still.
-/
import Elevator.Safety
import Elevator.Shaft

namespace Elevator

open CText Transition

/-- About to set the status to `Between` or to move the car. -/
def ProcessPc.drives : ProcessPc → Bool
  | .setBetween _ _ | .move _ _ => true
  | _ => false

/-- In emergency mode the process thread takes no driving step, and no step
changes the current floor. -/
def HeldStill (car : CarState) (action : CarAction) : Prop :=
  car.data.emergencyMode = 1 →
    (match action with
      | .process => car.process.drives = false
      | _ => True) ∧
    (carStep car action).data.currentFloor = car.data.currentFloor

instance heldStillDecidable (car : CarState) :
    (action : CarAction) → Decidable (HeldStill car action)
  | .process => inferInstanceAs (Decidable (_ → _ = false ∧ _))
  | .doorcontrol => inferInstanceAs (Decidable (_ → True ∧ _))
  | .floor _ => inferInstanceAs (Decidable (_ → True ∧ _))
  | .external _ => inferInstanceAs (Decidable (_ → True ∧ _))

/-- The moves the process thread will make before it looks at the destination
again. -/
def ProcessPc.outstanding : ProcessPc → Nat
  | .checkSend atDestination floordiff =>
      if atDestination then 0 else floordiff.natAbs
  | .checkClosed floordiff => floordiff.natAbs
  | .setBetween floordiff i | .lowerFlag floordiff i | .move floordiff i =>
      floordiff.natAbs - i
  | .setClosed floordiff i | .raiseFlag floordiff i =>
      floordiff.natAbs - (i + 1)
  | _ => 0

def HeadingNowhere (car : CarState) : Prop :=
  car.process.outstanding = 0 ∧
    stringToFloor car.data.destinationFloor = stringToFloor car.data.currentFloor

instance (car : CarState) : Decidable (HeadingNowhere car) :=
  inferInstanceAs (Decidable (_ ∧ _))

/-- An order or another process's write leaves emergency mode on only where the
car is heading nowhere. -/
def EmergencyAtRest (car : CarState) : CarAction → Prop
  | .floor label =>
      (receiveFloor car label).data.emergencyMode = 1 →
        HeadingNowhere (receiveFloor car label)
  | .external edit =>
      (edit car.data).emergencyMode = 1 →
        HeadingNowhere { car with data := edit car.data }
  | _ => True

instance emergencyAtRestDecidable (car : CarState) :
    (action : CarAction) → Decidable (EmergencyAtRest car action)
  | .floor _ => inferInstanceAs (Decidable (_ → _))
  | .external _ => inferInstanceAs (Decidable (_ → _))
  | .process => isTrue trivial
  | .doorcontrol => isTrue trivial

/-- The invariant: a car in emergency is heading nowhere. -/
def StoppedInEmergency (car : CarState) : Prop :=
  car.process.Counting ∧ (car.data.emergencyMode = 1 → HeadingNowhere car)

theorem moveLoop_outstanding (floordiff : Int) (i : Nat) :
    (moveLoop floordiff i).outstanding = floordiff.natAbs - i := by
  unfold moveLoop
  split
  · rfl
  · simp only [ProcessPc.outstanding]
    omega

theorem clampDestination_decoded (lowest highest : CString 4)
    {shm : CarSharedData}
    (hhere : stringToFloor shm.destinationFloor = stringToFloor shm.currentFloor) :
    stringToFloor (clampDestination lowest highest shm).destinationFloor =
      stringToFloor shm.currentFloor := by
  simp only [clampDestination]
  split_ifs <;> simp [hhere]

/-- Inside the movement loop before the move there is a move outstanding. -/
theorem drives_eq_false {car : CarState} (hcounting : car.process.Counting)
    (hnone : car.process.outstanding = 0) : car.process.drives = false := by
  cases hpc : car.process with
  | setBetween floordiff i | move floordiff i =>
      rw [hpc] at hcounting hnone
      simp only [ProcessPc.Counting, ProcessPc.outstanding] at hcounting hnone
      omega
  | _ => rfl

theorem ProcessPc.ne_move_of_drives {pc : ProcessPc} (hdrives : pc.drives = false)
    (floordiff : Int) (i : Nat) : pc ≠ .move floordiff i := by
  rintro rfl
  exact Bool.noConfusion hdrives

/-- Without a move outstanding, and with nowhere to go, none comes up. -/
theorem processStep_outstanding {car : CarState} (hcounting : car.process.Counting)
    (hnowhere : HeadingNowhere car) : (processStep car).process.outstanding = 0 := by
  obtain ⟨hnone, hhere⟩ := hnowhere
  cases hpc : car.process with
  | top => simp [processStep, hpc, ProcessPc.outstanding, hhere]
  | checkSend atDestination floordiff =>
      rw [hpc] at hnone
      cases atDestination with
      | true =>
          simp only [processStep, hpc]
          split_ifs <;> rfl
      | false =>
          simp only [processStep, hpc, Bool.false_eq_true, and_false, if_false]
          exact hnone
  | checkClosed floordiff =>
      rw [hpc] at hnone
      simp only [processStep, hpc]
      split
      · exact (moveLoop_outstanding floordiff 0).trans hnone
      · rfl
  | raiseFlag floordiff i =>
      rw [hpc] at hnone
      simp only [processStep, hpc]
      exact (moveLoop_outstanding floordiff (i + 1)).trans hnone
  | setClosed floordiff i =>
      rw [hpc] at hnone
      simp only [processStep, hpc]
      exact hnone
  | arrived frame | serve frame =>
      cases hframe : (operateDoorStep car.data frame).2 <;>
        simp [processStep, hpc, hframe, ProcessPc.outstanding]
  | start | clearSend => simp [processStep, hpc, ProcessPc.outstanding]
  | setBetween floordiff i | lowerFlag floordiff i | move floordiff i =>
      rw [hpc] at hcounting hnone
      simp only [ProcessPc.Counting, ProcessPc.outstanding] at hcounting hnone
      omega

theorem headingNowhere_process {car : CarState} (hcounting : car.process.Counting)
    (hnowhere : HeadingNowhere car) : HeadingNowhere (processStep car) := by
  refine ⟨processStep_outstanding hcounting hnowhere, ?_⟩
  obtain ⟨hnone, hhere⟩ := hnowhere
  have hdrives := drives_eq_false hcounting hnone
  rw [processStep_currentFloor (ProcessPc.ne_move_of_drives hdrives)]
  by_cases htop : car.process = .top
  · rw [processStep_data, htop]
    exact clampDestination_decoded car.lowestFloor car.highestFloor hhere
  · rw [processStep_destinationFloor htop, hhere]

theorem stoppedInEmergency_step (car : CarState) (action : CarAction)
    (hinv : StoppedInEmergency car)
    (hguard : CurrentFloorLeftAlone action ∧ EmergencyAtRest car action) :
    StoppedInEmergency (carStep car action) := by
  obtain ⟨hcounting, hstopped⟩ := hinv
  cases action with
  | process =>
      refine ⟨processStep_counting hcounting, fun hmode => ?_⟩
      exact headingNowhere_process hcounting
        (hstopped ((processStep_modes car).1.symm.trans hmode))
  | doorcontrol =>
      have hsame := doorcontrolStep_sameButDoors car
      have hprocess := doorcontrolStep_process car
      refine ⟨hprocess ▸ hcounting, fun hmode => ?_⟩
      obtain ⟨hnone, hhere⟩ := hstopped (hsame.emergencyMode.symm.trans hmode)
      refine ⟨hprocess ▸ hnone, ?_⟩
      show stringToFloor (doorcontrolStep car).data.destinationFloor =
        stringToFloor (doorcontrolStep car).data.currentFloor
      rw [hsame.destinationFloor, hsame.currentFloor, hhere]
  | floor label =>
      refine ⟨?_, hguard.2⟩
      have hprocess := receiveFloor_process car label
      exact hprocess ▸ hcounting
  | external edit => exact ⟨hcounting, hguard.2⟩

theorem StoppedInEmergency.heldStill {car : CarState} {action : CarAction}
    (hinv : StoppedInEmergency car) (halone : CurrentFloorLeftAlone action) :
    HeldStill car action := by
  intro hmode
  obtain ⟨hcounting, hstopped⟩ := hinv
  cases action with
  | process =>
      have hdrives := drives_eq_false hcounting (hstopped hmode).1
      exact ⟨hdrives, processStep_currentFloor (ProcessPc.ne_move_of_drives hdrives)⟩
  | doorcontrol => exact ⟨trivial, (doorcontrolStep_sameButDoors car).currentFloor⟩
  | floor label =>
      exact ⟨trivial, by simp [carStep, receiveFloor_data]⟩
  | external edit => exact ⟨trivial, halone car.data⟩

/-- A car stands still in emergency in every run that raises the mode, and
sends out orders under it, only where the car is heading nowhere. -/
theorem heldStill_of_emergencyAtRest (lowest highest : CString 4)
    (readFlag : Int) (actions : List CarAction)
    (hguard : Along carStep
      (fun car action => CurrentFloorLeftAlone action ∧ EmergencyAtRest car action)
      (startCar lowest highest readFlag) actions) :
    Along carStep HeldStill (startCar lowest highest readFlag) actions := by
  have hstart : StoppedInEmergency (startCar lowest highest readFlag) :=
    ⟨trivial, fun _ => ⟨rfl, rfl⟩⟩
  apply along_of_invariant stoppedInEmergency_step _ hstart hguard
  intro car action hinv hguard
  exact hinv.heldStill hguard.1

/-- The emergency stop is pressed, and the safety system takes notice. -/
def emergencyStop : List CarAction :=
  [.external fun shm => (editSharedMemory shm .setEmergencyStop 0 .Opening).1,
    .external fun shm => (safetyPass shm).1]

def endEmergency : CarAction :=
  .external fun shm =>
    (editSharedMemory (editSharedMemory shm .clearEmergencyStop 0 .Opening).1
      .clearEmergency 0 .Opening).1

theorem emergency_currentFloorLeftAlone :
    (∀ action ∈ emergencyStop, CurrentFloorLeftAlone action) ∧
      CurrentFloorLeftAlone endEmergency := by
  refine ⟨?_, fun shm => rfl⟩
  intro action haction
  simp only [emergencyStop, List.mem_cons, List.not_mem_nil, or_false] at haction
  rcases haction with rfl | rfl
  · exact fun shm => rfl
  · exact fun shm => (safetyPass_floors shm).1

/-- An emergency before the trip: the car stays where it is, and the order that
ends the wait is carried out. -/
theorem heldStill_stopped_before_trip :
    Along carStep HeldStill demoCar
      ([.process] ++ emergencyStop ++ List.replicate 6 .process ++
        [endEmergency, .floor (floorToString 3)] ++ List.replicate 20 .process) :=
  heldStill_of_emergencyAtRest _ _ _ _ <|
    (along_of_forall_mem (by
      obtain ⟨hstop, hend⟩ := emergency_currentFloorLeftAlone
      intro action haction
      simp only [List.mem_append, List.mem_cons, List.mem_replicate,
        List.not_mem_nil, or_false] at haction
      rcases haction with (((rfl | h) | ⟨-, rfl⟩) | rfl | rfl) | ⟨-, rfl⟩
      · trivial
      · exact hstop _ h
      · trivial
      · exact hend
      · trivial
      · trivial)).and (by decide)

/-- The emergency stop is pressed while the car is between floors 1 and 2. -/
def stoppedUnderWay : List CarAction :=
  [.process, .floor (floorToString 3)] ++ List.replicate 4 .process ++
    emergencyStop ++ List.replicate 2 .process

/-- The car in emergency mode still makes the move it is on. -/
theorem moves_in_emergency :
    (∀ action ∈ stoppedUnderWay, CurrentFloorLeftAlone action) ∧
      ¬ Along carStep HeldStill demoCar stoppedUnderWay ∧
      (run carStep demoCar stoppedUnderWay).data.emergencyMode = 1 ∧
      (run carStep demoCar stoppedUnderWay).data.currentFloor = floorToString 2 := by
  refine ⟨?_, by decide, by decide, by decide⟩
  intro action haction
  simp only [stoppedUnderWay, List.mem_append, List.mem_cons,
    List.mem_replicate, List.not_mem_nil, or_false] at haction
  rcases haction with (((rfl | rfl) | ⟨-, rfl⟩) | h) | ⟨-, rfl⟩
  · trivial
  · trivial
  · trivial
  · exact emergency_currentFloorLeftAlone.1 _ h
  · trivial

end Elevator
