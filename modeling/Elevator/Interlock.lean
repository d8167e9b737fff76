/-
The interlock between the doors and the motor.  The two threads of the car that
drive the status do not exclude each other: the doors stay shut on a moving car
exactly as long as the schedule keeps the threads apart.
-/
import Elevator.Car

namespace Elevator

open CText Transition

/-- Between `set Between` and `set Closed` for one floor. -/
def ProcessPc.inMotion : ProcessPc → Bool
  | .lowerFlag _ _ | .move _ _ | .setClosed _ _ => true
  | _ => false

/-- About to `set Between` for the next floor. -/
def ProcessPc.leaving : ProcessPc → Bool
  | .setBetween _ _ => true
  | _ => false

/-- While the process thread takes the car from one floor to the next, the
status is `Between`. -/
def Interlocked (car : CarState) : Prop :=
  car.process.inMotion = true → car.data.status = statusNames .Between

/-- Other processes press buttons and write floors; none writes the status. -/
def StatusLeftAlone : CarAction → Prop
  | .external edit => ∀ shm, (edit shm).status = shm.status
  | _ => True

/-- The schedule keeps the door thread and the motor apart: the poll does not
find the open button pressed while the car is in motion, and no floor is left
while the door thread is inside `operate_door`. -/
def DoorsApart (car : CarState) : CarAction → Prop
  | .doorcontrol => car.doorcontrol = none →
      readSharedMemory car.data .getOpen = true → car.process.inMotion = false
  | .process => car.process.leaving = true → car.doorcontrol = none
  | _ => True

instance doorsApartDecidable (car : CarState) :
    (action : CarAction) → Decidable (DoorsApart car action)
  | .process => inferInstanceAs (Decidable (_ = true → _ = none))
  | .doorcontrol =>
      inferInstanceAs (Decidable (_ = none → _ = true → _ = false))
  | .floor _ => isTrue trivial
  | .external _ => isTrue trivial

/-- The invariant of a schedule that keeps them apart. -/
def MotionExclusive (car : CarState) : Prop :=
  car.process.inMotion = true →
    car.data.status = statusNames .Between ∧ car.doorcontrol = none

@[simp] theorem moveLoop_inMotion (floordiff : Int) (i : Nat) :
    (moveLoop floordiff i).inMotion = false := by
  unfold moveLoop
  split <;> rfl

/-- The process thread is in motion after a step only if it was leaving a floor
or was in motion before it. -/
theorem inMotion_of_processStep {car : CarState}
    (hmotion : (processStep car).process.inMotion = true) :
    car.process.leaving = true ∨ car.process.inMotion = true := by
  cases hpc : car.process with
  | setBetween floordiff i => exact Or.inl rfl
  | lowerFlag floordiff i | move floordiff i | setClosed floordiff i =>
      exact Or.inr rfl
  | arrived frame | serve frame =>
      cases hframe : (operateDoorStep car.data frame).2 <;>
        simp [processStep, hpc, hframe, ProcessPc.inMotion] at hmotion
  | checkSend atDestination floordiff =>
      simp only [processStep, hpc] at hmotion
      split_ifs at hmotion <;> simp [ProcessPc.inMotion] at hmotion
  | checkClosed floordiff =>
      simp only [processStep, hpc] at hmotion
      split at hmotion
      · simp at hmotion
      · simp [ProcessPc.inMotion] at hmotion
  | start | top | clearSend =>
      simp [processStep, hpc, ProcessPc.inMotion] at hmotion
  | raiseFlag floordiff i => simp [processStep, hpc] at hmotion

theorem motionExclusive_process {car : CarState} (hinv : MotionExclusive car)
    (happart : DoorsApart car .process) : MotionExclusive (processStep car) := by
  intro hmotion
  rcases inMotion_of_processStep hmotion with hleaving | hmoving
  · have hdoor := happart hleaving
    cases hpc : car.process with
    | setBetween floordiff i => simp [processStep, hpc, hdoor]
    | _ => simp [hpc, ProcessPc.leaving] at hleaving
  · obtain ⟨hstatus, hdoor⟩ := hinv hmoving
    cases hpc : car.process with
    | lowerFlag floordiff i => simp [processStep, hpc, hstatus, hdoor]
    | move floordiff i => simp [processStep, hpc, hstatus, hdoor]
    | setClosed floordiff i =>
        simp [processStep, hpc, ProcessPc.inMotion] at hmotion
    | _ => simp [hpc, ProcessPc.inMotion] at hmoving

theorem motionExclusive_doorcontrol {car : CarState}
    (hinv : MotionExclusive car) (happart : DoorsApart car .doorcontrol) :
    MotionExclusive (doorcontrolStep car) := by
  unfold doorcontrolStep
  cases hdoor : car.doorcontrol with
  | none =>
      simp only
      split
      · rename_i hopen
        intro hmotion
        exact absurd hmotion (by simp [happart hdoor hopen])
      · exact hinv
  | some frame =>
      intro hmotion
      have hnone := (hinv hmotion).2
      simp [hdoor] at hnone

theorem motionExclusive_step (car : CarState) (action : CarAction)
    (hinv : MotionExclusive car)
    (hguard : StatusLeftAlone action ∧ DoorsApart car action) :
    MotionExclusive (carStep car action) := by
  cases action with
  | process => exact motionExclusive_process hinv hguard.2
  | doorcontrol => exact motionExclusive_doorcontrol hinv hguard.2
  | floor label =>
      intro hmotion
      have hprocess := receiveFloor_process car label
      obtain ⟨hstatus, hdoor⟩ := hinv (hprocess ▸ hmotion)
      refine ⟨?_, ?_⟩
      · simpa [carStep, receiveFloor_data] using hstatus
      · simp only [carStep, receiveFloor]
        split <;> exact hdoor
  | external edit =>
      intro hmotion
      obtain ⟨hstatus, hdoor⟩ := hinv hmotion
      exact ⟨(hguard.1 car.data).trans hstatus, hdoor⟩

/-- The interlock holds in every state of a run whose schedule keeps the door
thread and the motor apart. -/
theorem interlocked_of_doorsApart (lowest highest : CString 4) (readFlag : Int)
    (actions : List CarAction)
    (hguard : Along carStep
      (fun car action => StatusLeftAlone action ∧ DoorsApart car action)
      (startCar lowest highest readFlag) actions) :
    Always carStep Interlocked (startCar lowest highest readFlag) actions := by
  apply always_of_invariant motionExclusive_step _ _ hguard
  · intro car hinv hmotion
    exact (hinv hmotion).1
  · intro hmotion
    simp [startCar, ProcessPc.inMotion] at hmotion

def pressOpen : CarAction :=
  .external fun shm => (editSharedMemory shm .setOpen 0 .Opening).1

/-- Ordered to floor 3, the car leaves floor 1. -/
def departure : List CarAction :=
  [.process, .floor (floorToString 3), .process, .process, .process, .process]

/-- A trip of two floors, during which the button is pressed and released by
the door cycle at its end. -/
theorem interlocked_trip :
    Always carStep Interlocked demoCar
      (departure ++ [pressOpen] ++ List.replicate 20 .process) :=
  interlocked_of_doorsApart _ _ _ _ <|
    (along_of_forall_mem (by simp [departure, pressOpen, StatusLeftAlone])).and
      (by decide)

/-- The same departure, with the button pressed on the way. -/
def openedInMotion : List CarAction :=
  departure ++ [pressOpen, .doorcontrol, .doorcontrol, .doorcontrol, .process]

/-- The door thread opens the doors of the moving car, and the process thread
is about to move it on with the status at `Opening`. -/
theorem doors_open_in_motion :
    Along carStep (fun _ action => StatusLeftAlone action) demoCar openedInMotion ∧
      (run carStep demoCar openedInMotion).process = .move 2 0 ∧
      (run carStep demoCar openedInMotion).data.status = statusNames .Opening ∧
      ¬ Always carStep Interlocked demoCar openedInMotion := by
  refine ⟨along_of_forall_mem (by
    simp [openedInMotion, departure, pressOpen, StatusLeftAlone]),
    by decide, by decide, ?_⟩
  intro halways
  exact absurd (halways.final (by decide)) (by decide)

end Elevator
