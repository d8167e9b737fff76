/-
The car program: the door cycle of `operate_door`, the thread that polls the
open button, the thread that drives the car, and the part of the TCP thread
that stores an order.  Every locked section and every access to `read_flag` or
`shm_send` is one step; other processes act between the steps.
-/
import Elevator.SharedMemory
import Elevator.Transition
import Mathlib.Tactic.SplitIfs

namespace Elevator

open CText

/-- Where `operate_door` stands: the shared access it performs next.
`undefined` is the thread after it has used -1 to index `status_names`. -/
inductive DoorPc where
  | checkStatus
  | writeStatus
  | readOpen
  | clearReopening
  | clearOpening
  | clearOpen
  | readClose
  | clearClose
  | report
  | undefined
deriving DecidableEq, Repr

structure DoorFrame where
  pc : DoorPc
  currentStatus : Status
  nextStatus : Status
deriving DecidableEq, Repr

/-- A call of `operate_door`.  The loop assigns `next_status` before it reads
it, so its first value does not matter. -/
def DoorFrame.enter : DoorFrame where
  pc := .checkStatus
  currentStatus := .Opening
  nextStatus := .Opening

/-- What the `switch` assigns to `next_status`; `Between` has no case. -/
def DoorFrame.following (frame : DoorFrame) : Status :=
  match frame.currentStatus with
  | .Opening => .Open
  | .Open => .Closing
  | .Closing => .Closed
  | .Closed => .Opening
  | .Between => frame.nextStatus

/-- One step of `operate_door`; no frame is left once the function returns. -/
def operateDoorStep (shm : CarSharedData) (frame : DoorFrame) :
    CarSharedData × Option DoorFrame :=
  match frame.pc with
  | .checkStatus =>
      match readCarStatus shm with
      | none => (shm, some { frame with pc := .undefined })
      | some status =>
          if statusNames status ≠ statusNames frame.currentStatus then
            (shm, some { frame with pc := .writeStatus })
          else (shm, some { frame with pc := .readOpen })
  | .writeStatus =>
      ((editSharedMemory shm .setStatus 0 frame.currentStatus).1,
        some { frame with pc := .readOpen })
  | .readOpen =>
      if readSharedMemory shm .getOpen then
        match frame.currentStatus with
        | .Closed | .Closing =>
            (shm, some { frame with
              pc := .clearReopening, currentStatus := .Opening })
        | .Opening | .Between =>
            (shm, some { frame with pc := .clearOpening })
        | .Open =>
            (shm, some { frame with
              pc := .clearOpen, currentStatus := .Closing })
      else (shm, some { frame with pc := .readClose })
  -- having just become `Opening`, the phase passes the next test as well
  | .clearReopening =>
      ((editSharedMemory shm .clearOpen 0 .Opening).1,
        some { frame with pc := .clearOpening })
  | .clearOpening =>
      ((editSharedMemory shm .clearOpen 0 .Opening).1,
        some { frame with pc := .readClose })
  | .clearOpen =>
      ((editSharedMemory shm .clearOpen 0 .Opening).1,
        some { frame with pc := .readClose })
  | .readClose =>
      if readSharedMemory shm .getClose ∧ frame.currentStatus = .Open then
        (shm, some { frame with pc := .clearClose, currentStatus := .Closing })
      else (shm, some { frame with pc := .report })
  | .clearClose =>
      ((editSharedMemory shm .clearClose 0 .Opening).1,
        some { frame with pc := .report })
  | .report =>
      let written :=
        if frame.currentStatus = .Between then shm
        else (editSharedMemory shm .setStatus 0 frame.currentStatus).1
      if frame.currentStatus = .Closed ∧ frame.following = .Opening then
        (written, none)
      else
        (written, some {
          pc := .checkStatus
          currentStatus := frame.following
          nextStatus := frame.following })
  | .undefined => (shm, some frame)

/-- Where the process thread stands, with the locals that are live there.
`atDestination` is the outcome of the string comparison at the top. -/
inductive ProcessPc where
  | start
  | top
  | checkSend (atDestination : Bool) (floordiff : Int)
  | arrived (frame : DoorFrame)
  | clearSend
  | checkClosed (floordiff : Int)
  | setBetween (floordiff : Int) (i : Nat)
  | lowerFlag (floordiff : Int) (i : Nat)
  | move (floordiff : Int) (i : Nat)
  | setClosed (floordiff : Int) (i : Nat)
  | raiseFlag (floordiff : Int) (i : Nat)
  | serve (frame : DoorFrame)
deriving DecidableEq, Repr

/-- A running car: the shared segment, the flags its threads exchange, the
range it was started with, and where its threads stand.  The thread that polls
the open button has a frame while it is inside `operate_door`. -/
structure CarState where
  data : CarSharedData
  shmSend : Int
  readFlag : Int
  lowestFloor : CString 4
  highestFloor : CString 4
  process : ProcessPc
  doorcontrol : Option DoorFrame
deriving DecidableEq, Repr

/-- The car after its start: `shm_send` is a zeroed global, `read_flag` an
uninitialised member of a local record. -/
def startCar (lowest highest : CString 4) (readFlag : Int) : CarState where
  data := initSharedData lowest
  shmSend := 0
  readFlag := readFlag
  lowestFloor := lowest
  highestFloor := highest
  process := .start
  doorcontrol := none

def demoCar : CarState :=
  startCar (floorToString 1) (floorToString 5) 0

/-- The two range checks at the top of the process thread's loop, which reset
the destination to the current floor. -/
def clampDestination (lowest highest : CString 4) (shm : CarSharedData) :
    CarSharedData :=
  let below :=
    if stringToFloor shm.destinationFloor > stringToFloor highest then
      { shm with destinationFloor := shm.currentFloor }
    else shm
  if stringToFloor below.destinationFloor < stringToFloor lowest then
    { below with destinationFloor := below.currentFloor }
  else below

/-- The head of the movement loop: another floor, or the doors. -/
def moveLoop (floordiff : Int) (i : Nat) : ProcessPc :=
  if i < floordiff.natAbs then .setBetween floordiff i
  else .serve DoorFrame.enter

def processStep (car : CarState) : CarState :=
  match car.process with
  | .start => { car with readFlag := 1, process := .top }
  | .top =>
      { car with
        data := clampDestination car.lowestFloor car.highestFloor car.data
        process := .checkSend
          (car.data.destinationFloor = car.data.currentFloor)
          (stringToFloor car.data.destinationFloor -
            stringToFloor car.data.currentFloor) }
  | .checkSend atDestination floordiff =>
      if car.shmSend = 1 ∧ atDestination then
        { car with process := .arrived DoorFrame.enter }
      else if atDestination then { car with process := .top }
      else { car with process := .checkClosed floordiff }
  | .arrived frame =>
      { car with
        data := (operateDoorStep car.data frame).1
        process := ((operateDoorStep car.data frame).2.map .arrived).getD .clearSend }
  | .clearSend => { car with shmSend := 0, process := .top }
  | .checkClosed floordiff =>
      if readCarStatus car.data = some .Closed then
        { car with process := moveLoop floordiff 0 }
      else { car with process := .top }
  | .setBetween floordiff i =>
      { car with
        data := (editSharedMemory car.data .setStatus 0 .Between).1
        process := .lowerFlag floordiff i }
  | .lowerFlag floordiff i =>
      { car with readFlag := 0, process := .move floordiff i }
  | .move floordiff i =>
      { car with
        data := (editSharedMemory car.data .moveCurrent
          (if 0 < floordiff then 1 else -1) .Opening).1
        process := .setClosed floordiff i }
  | .setClosed floordiff i =>
      { car with
        data := (editSharedMemory car.data .setStatus 0 .Closed).1
        process := .raiseFlag floordiff i }
  | .raiseFlag floordiff i =>
      { car with readFlag := 1, process := moveLoop floordiff (i + 1) }
  -- the second call of `operate_door`: nothing clears `shm_send` after it
  | .serve frame =>
      { car with
        data := (operateDoorStep car.data frame).1
        process := ((operateDoorStep car.data frame).2.map .serve).getD .top }

def doorcontrolStep (car : CarState) : CarState :=
  match car.doorcontrol with
  | none =>
      if readSharedMemory car.data .getOpen then
        { car with doorcontrol := some DoorFrame.enter }
      else car
  | some frame =>
      { car with
        data := (operateDoorStep car.data frame).1
        doorcontrol := (operateDoorStep car.data frame).2 }

/-- The TCP thread stores an order while it holds the mutex.  Of the process
thread only the accesses to the two flags can fall inside that section, and
each of them could as well have happened before or after it. -/
def receiveFloor (car : CarState) (label : CString 4) : CarState :=
  if car.readFlag = 1 then
    { car with
      data := { car.data with destinationFloor := label }
      shmSend := 1 }
  else { car with shmSend := 1 }

/-- Who takes the next step: a thread of the car, the controller with an order,
or another process with a locked edit of the segment. -/
inductive CarAction where
  | process
  | doorcontrol
  | floor (label : CString 4)
  | external (edit : CarSharedData → CarSharedData)

def carStep (car : CarState) : CarAction → CarState
  | .process => processStep car
  | .doorcontrol => doorcontrolStep car
  | .floor label => receiveFloor car label
  | .external edit => { car with data := edit car.data }

/-- A step together with the order it brought in, if any. -/
def carOrders (car : CarState) (action : CarAction) :
    CarState × List (CString 4) :=
  (carStep car action,
    match action with
    | .floor label => [label]
    | _ => [])

/-- The range checks write nothing but the destination. -/
theorem clampDestination_frame (lowest highest : CString 4) (shm : CarSharedData) :
    clampDestination lowest highest shm =
      { shm with
        destinationFloor :=
          (clampDestination lowest highest shm).destinationFloor } := by
  simp only [clampDestination]
  split_ifs <;> rfl

@[simp] theorem clampDestination_currentFloor (lowest highest : CString 4)
    (shm : CarSharedData) :
    (clampDestination lowest highest shm).currentFloor = shm.currentFloor := by
  rw [clampDestination_frame]

/-- The range a car serves is fixed when it starts. -/
theorem carStep_range (car : CarState) (action : CarAction) :
    (carStep car action).lowestFloor = car.lowestFloor ∧
      (carStep car action).highestFloor = car.highestFloor := by
  cases action with
  | process =>
      simp only [carStep, processStep]
      split
      case h_3 => split_ifs <;> exact ⟨rfl, rfl⟩
      case h_6 => split_ifs <;> exact ⟨rfl, rfl⟩
      all_goals exact ⟨rfl, rfl⟩
  | doorcontrol =>
      simp only [carStep, doorcontrolStep]
      split
      · split_ifs <;> exact ⟨rfl, rfl⟩
      · exact ⟨rfl, rfl⟩
  | floor label =>
      simp only [carStep, receiveFloor]
      split_ifs <;> exact ⟨rfl, rfl⟩
  | external edit => exact ⟨rfl, rfl⟩

/-- Two states of the segment that agree on all that `operate_door` does not
write: everything but the status and the two buttons. -/
structure SameButDoors (before after : CarSharedData) : Prop where
  currentFloor : after.currentFloor = before.currentFloor
  destinationFloor : after.destinationFloor = before.destinationFloor
  doorObstruction : after.doorObstruction = before.doorObstruction
  overload : after.overload = before.overload
  emergencyStop : after.emergencyStop = before.emergencyStop
  individualServiceMode :
    after.individualServiceMode = before.individualServiceMode
  emergencyMode : after.emergencyMode = before.emergencyMode

/-- All that an access of `operate_door` can do to the segment. -/
theorem operateDoorStep_data (shm : CarSharedData) (frame : DoorFrame) :
    (operateDoorStep shm frame).1 =
      match frame.pc with
      | .writeStatus => { shm with status := statusNames frame.currentStatus }
      | .clearReopening | .clearOpening | .clearOpen => { shm with openButton := 0 }
      | .clearClose => { shm with closeButton := 0 }
      | .report =>
          if frame.currentStatus = .Between then shm
          else { shm with status := statusNames frame.currentStatus }
      | _ => shm := by
  rcases frame with ⟨pc, current, next⟩
  cases pc with
  | checkStatus =>
      simp only [operateDoorStep]
      split
      · rfl
      · split <;> rfl
  | readOpen =>
      simp only [operateDoorStep]
      split
      · cases current <;> rfl
      · rfl
  | readClose =>
      simp only [operateDoorStep]
      split <;> rfl
  | report => cases current <;> rfl
  | writeStatus | clearReopening | clearOpening | clearOpen | clearClose => rfl
  | undefined => rfl

theorem operateDoorStep_sameButDoors (shm : CarSharedData) (frame : DoorFrame) :
    SameButDoors shm (operateDoorStep shm frame).1 := by
  rw [operateDoorStep_data]
  cases frame.pc with
  | report =>
      by_cases hbetween : frame.currentStatus = .Between
      · rw [if_pos hbetween]
        constructor <;> rfl
      · rw [if_neg hbetween]
        constructor <;> rfl
  | _ => constructor <;> rfl

theorem clampDestination_modes (lowest highest : CString 4)
    (shm : CarSharedData) :
    (clampDestination lowest highest shm).emergencyMode = shm.emergencyMode ∧
      (clampDestination lowest highest shm).individualServiceMode =
        shm.individualServiceMode := by
  rw [clampDestination_frame]
  exact ⟨rfl, rfl⟩

/-- What a step of the process thread writes into the segment. -/
theorem processStep_data (car : CarState) :
    (processStep car).data =
      match car.process with
      | .top => clampDestination car.lowestFloor car.highestFloor car.data
      | .arrived frame | .serve frame => (operateDoorStep car.data frame).1
      | .setBetween _ _ => { car.data with status := statusNames .Between }
      | .move floordiff _ =>
          { car.data with
            currentFloor := floorToString (movedFloor
              (stringToFloor car.data.currentFloor)
              (if 0 < floordiff then 1 else -1)) }
      | .setClosed _ _ => { car.data with status := statusNames .Closed }
      | _ => car.data := by
  unfold processStep
  cases car.process with
  | checkSend atDestination floordiff => simp only; split_ifs <;> rfl
  | checkClosed floordiff => simp only; split_ifs <;> rfl
  | _ => rfl

/-- The threads of the car leave both modes to other processes. -/
theorem processStep_modes (car : CarState) :
    (processStep car).data.emergencyMode = car.data.emergencyMode ∧
      (processStep car).data.individualServiceMode =
        car.data.individualServiceMode := by
  rw [processStep_data]
  cases car.process with
  | top => exact clampDestination_modes _ _ _
  | arrived frame | serve frame =>
      have hsame := operateDoorStep_sameButDoors car.data frame
      exact ⟨hsame.emergencyMode, hsame.individualServiceMode⟩
  | _ => exact ⟨rfl, rfl⟩

/-- Only the move itself changes the current floor. -/
theorem processStep_currentFloor {car : CarState}
    (hstays : ∀ floordiff i, car.process ≠ .move floordiff i) :
    (processStep car).data.currentFloor = car.data.currentFloor := by
  rw [processStep_data]
  cases hpc : car.process with
  | top => exact clampDestination_currentFloor _ _ _
  | arrived frame | serve frame =>
      exact (operateDoorStep_sameButDoors car.data frame).currentFloor
  | move floordiff i => exact absurd hpc (hstays floordiff i)
  | _ => rfl

/-- The destination is written at the top of the loop only. -/
theorem processStep_destinationFloor {car : CarState}
    (hpast : car.process ≠ .top) :
    (processStep car).data.destinationFloor = car.data.destinationFloor := by
  rw [processStep_data]
  cases hpc : car.process with
  | top => exact absurd hpc hpast
  | arrived frame | serve frame =>
      exact (operateDoorStep_sameButDoors car.data frame).destinationFloor
  | _ => rfl

theorem doorcontrolStep_sameButDoors (car : CarState) :
    SameButDoors car.data (doorcontrolStep car).data := by
  unfold doorcontrolStep
  split
  · split <;> constructor <;> rfl
  · exact operateDoorStep_sameButDoors car.data _

theorem doorcontrolStep_process (car : CarState) :
    (doorcontrolStep car).process = car.process := by
  unfold doorcontrolStep
  split
  · split <;> rfl
  · rfl

theorem receiveFloor_process (car : CarState) (label : CString 4) :
    (receiveFloor car label).process = car.process := by
  unfold receiveFloor
  split <;> rfl

/-- An order touches nothing in the segment but the destination. -/
theorem receiveFloor_data (car : CarState) (label : CString 4) :
    (receiveFloor car label).data =
      { car.data with
        destinationFloor :=
          if car.readFlag = 1 then label else car.data.destinationFloor } := by
  unfold receiveFloor
  split_ifs <;> rfl

end Elevator
