/-
The threads of the car with a status as they keep it: a number, taken from
`stringToStatus` and used as an index into `status_names` without a check.
Every step leaves on record the indices it evaluates.  The car with numbers
refines the car with statuses: no thread ever keeps another number.
-/
import Elevator.Car
import Elevator.Safety
import Elevator.LookupTable

namespace Elevator

open CText LookupTable Transition

def Status.number : Status → Int
  | .Opening => 0
  | .Open => 1
  | .Closing => 2
  | .Closed => 3
  | .Between => 4

namespace Numbered

def statusNames : List (CString 8) := Status.all.map Elevator.statusNames

/-- The loop returns -1 for an invalid string; an enumeration kept unsigned
makes it the last of its values, which is no index of the array either. -/
def stringToStatus (statusStr : CString 8) : Int :=
  search statusNames statusStr

def readCarStatus (shm : CarSharedData) : Int := stringToStatus shm.status

/-- A locked edit, with the indices into `status_names` it evaluates.  Nothing
is known of the segment once such an index was outside. -/
def editSharedMemory (shm : CarSharedData) (operation : CarOp)
    (floor status : Int) : Option CarSharedData × List Int :=
  match operation with
  | .setStatus =>
      ((entry statusNames status).map fun name => { shm with status := name },
        [status])
  | operation =>
      (some (Elevator.editSharedMemory shm operation floor .Opening).1, [])

/-- The locals of a running `operate_door`.  Until the loop assigns it,
`next_status` has no value. -/
structure DoorFrame where
  pc : DoorPc
  currentStatus : Int
  nextStatus : Option Int
deriving DecidableEq, Repr

def DoorFrame.enter : DoorFrame where
  pc := .checkStatus
  currentStatus := Status.Opening.number
  nextStatus := none

/-- `operate_door` after an edit: on to `next`, unless the edit used an index
outside. -/
def DoorFrame.afterEdit (shm : CarSharedData) (frame : DoorFrame) (next : DoorPc)
    (edited : Option CarSharedData × List Int) :
    CarSharedData × Option DoorFrame × List Int :=
  match edited.1 with
  | some after => (after, some { frame with pc := next }, edited.2)
  | none => (shm, some { frame with pc := .undefined }, edited.2)

/-- The edit that the `switch` makes; there are cases for four numbers. -/
def DoorFrame.report (shm : CarSharedData) (frame : DoorFrame) :
    Option CarSharedData × List Int :=
  if frame.currentStatus = Status.Opening.number then
    editSharedMemory shm .setStatus 0 Status.Opening.number
  else if frame.currentStatus = Status.Open.number then
    editSharedMemory shm .setStatus 0 Status.Open.number
  else if frame.currentStatus = Status.Closing.number then
    editSharedMemory shm .setStatus 0 Status.Closing.number
  else if frame.currentStatus = Status.Closed.number then
    editSharedMemory shm .setStatus 0 Status.Closed.number
  else (some shm, [])

/-- What the `switch` leaves in `next_status`. -/
def DoorFrame.following (frame : DoorFrame) : Option Int :=
  if frame.currentStatus = Status.Opening.number then some Status.Open.number
  else if frame.currentStatus = Status.Open.number then some Status.Closing.number
  else if frame.currentStatus = Status.Closing.number then
    some Status.Closed.number
  else if frame.currentStatus = Status.Closed.number then
    some Status.Opening.number
  else frame.nextStatus

/-- One step of `operate_door` and the indices it evaluates. -/
def operateDoorStep (shm : CarSharedData) (frame : DoorFrame) :
    CarSharedData × Option DoorFrame × List Int :=
  match frame.pc with
  -- the strings under the two numbers are compared, not the numbers
  | .checkStatus =>
      match entry statusNames (readCarStatus shm),
        entry statusNames frame.currentStatus with
      | some shown, some current =>
          (shm, some { frame with
              pc := if shown ≠ current then .writeStatus else .readOpen },
            [readCarStatus shm, frame.currentStatus])
      | _, _ =>
          (shm, some { frame with pc := .undefined },
            [readCarStatus shm, frame.currentStatus])
  | .writeStatus =>
      frame.afterEdit shm .readOpen
        (editSharedMemory shm .setStatus 0 frame.currentStatus)
  | .readOpen =>
      if readSharedMemory shm .getOpen then
        if frame.currentStatus = Status.Closed.number ∨
            frame.currentStatus = Status.Closing.number then
          (shm, some { frame with
            pc := .clearReopening, currentStatus := Status.Opening.number }, [])
        else if frame.currentStatus = Status.Opening.number ∨
            frame.currentStatus = Status.Between.number then
          (shm, some { frame with pc := .clearOpening }, [])
        else if frame.currentStatus = Status.Open.number then
          (shm, some { frame with
            pc := .clearOpen, currentStatus := Status.Closing.number }, [])
        else (shm, some { frame with pc := .readClose }, [])
      else (shm, some { frame with pc := .readClose }, [])
  -- having just become `Opening`, the phase passes the next test as well
  | .clearReopening =>
      frame.afterEdit shm .clearOpening (editSharedMemory shm .clearOpen 0 0)
  | .clearOpening =>
      frame.afterEdit shm .readClose (editSharedMemory shm .clearOpen 0 0)
  | .clearOpen =>
      frame.afterEdit shm .readClose (editSharedMemory shm .clearOpen 0 0)
  | .readClose =>
      if readSharedMemory shm .getClose ∧
          frame.currentStatus = Status.Open.number then
        (shm, some { frame with
          pc := .clearClose, currentStatus := Status.Closing.number }, [])
      else (shm, some { frame with pc := .report }, [])
  | .clearClose =>
      frame.afterEdit shm .report (editSharedMemory shm .clearClose 0 0)
  | .report =>
      match (frame.report shm).1, frame.following with
      | some after, some next =>
          if frame.currentStatus = Status.Closed.number ∧
              next = Status.Opening.number then
            (after, none, (frame.report shm).2)
          else
            (after, some {
                pc := .checkStatus
                currentStatus := next
                nextStatus := some next },
              (frame.report shm).2)
      | _, _ => (shm, some { frame with pc := .undefined }, (frame.report shm).2)
  | .undefined => (shm, some frame, [])

/-- Where the process thread stands.  `undefined` is the thread after an edit
that used an index outside. -/
inductive ProcessPc where
  | start
  | top
  | checkSend (atDestination : Bool) (floordiff : Int)
  | arrived (frame : DoorFrame)
  | clearSend
  | checkClosed (floordiff : Int)
  | setBetween (floordiff : Int) (i : Nat)
  | lowerFlag (floordiff : Int) (i : Nat)
  | move (floordiff : Int) (i : Nat)
  | setClosed (floordiff : Int) (i : Nat)
  | raiseFlag (floordiff : Int) (i : Nat)
  | serve (frame : DoorFrame)
  | undefined
deriving DecidableEq, Repr

structure CarState where
  data : CarSharedData
  shmSend : Int
  readFlag : Int
  lowestFloor : CString 4
  highestFloor : CString 4
  process : ProcessPc
  doorcontrol : Option DoorFrame
deriving DecidableEq, Repr

def startCar (lowest highest : CString 4) (readFlag : Int) : CarState where
  data := initSharedData lowest
  shmSend := 0
  readFlag := readFlag
  lowestFloor := lowest
  highestFloor := highest
  process := .start
  doorcontrol := none

def moveLoop (floordiff : Int) (i : Nat) : ProcessPc :=
  if i < floordiff.natAbs then .setBetween floordiff i
  else .serve DoorFrame.enter

def CarState.afterEdit (car : CarState) (next : ProcessPc)
    (edited : Option CarSharedData × List Int) : CarState × List Int :=
  match edited.1 with
  | some after => ({ car with data := after, process := next }, edited.2)
  | none => ({ car with process := .undefined }, edited.2)

/-- One step of the process thread and the indices it evaluates. -/
def processStep (car : CarState) : CarState × List Int :=
  match car.process with
  | .start => ({ car with readFlag := 1, process := .top }, [])
  | .top =>
      ({ car with
          data := clampDestination car.lowestFloor car.highestFloor car.data
          process := .checkSend
            (car.data.destinationFloor = car.data.currentFloor)
            (stringToFloor car.data.destinationFloor -
              stringToFloor car.data.currentFloor) },
        [])
  | .checkSend atDestination floordiff =>
      if car.shmSend = 1 ∧ atDestination then
        ({ car with process := .arrived DoorFrame.enter }, [])
      else if atDestination then ({ car with process := .top }, [])
      else ({ car with process := .checkClosed floordiff }, [])
  | .arrived frame =>
      let stepped := operateDoorStep car.data frame
      ({ car with
          data := stepped.1
          process := (stepped.2.1.map .arrived).getD .clearSend },
        stepped.2.2)
  | .clearSend => ({ car with shmSend := 0, process := .top }, [])
  | .checkClosed floordiff =>
      if readCarStatus car.data = Status.Closed.number then
        ({ car with process := moveLoop floordiff 0 }, [])
      else ({ car with process := .top }, [])
  | .setBetween floordiff i =>
      car.afterEdit (.lowerFlag floordiff i)
        (editSharedMemory car.data .setStatus 0 Status.Between.number)
  | .lowerFlag floordiff i =>
      ({ car with readFlag := 0, process := .move floordiff i }, [])
  | .move floordiff i =>
      car.afterEdit (.setClosed floordiff i)
        (editSharedMemory car.data .moveCurrent (if 0 < floordiff then 1 else -1) 0)
  | .setClosed floordiff i =>
      car.afterEdit (.raiseFlag floordiff i)
        (editSharedMemory car.data .setStatus 0 Status.Closed.number)
  | .raiseFlag floordiff i =>
      ({ car with readFlag := 1, process := moveLoop floordiff (i + 1) }, [])
  | .serve frame =>
      let stepped := operateDoorStep car.data frame
      ({ car with
          data := stepped.1
          process := (stepped.2.1.map .serve).getD .top },
        stepped.2.2)
  | .undefined => (car, [])

def doorcontrolStep (car : CarState) : CarState × List Int :=
  match car.doorcontrol with
  | none =>
      if readSharedMemory car.data .getOpen then
        ({ car with doorcontrol := some DoorFrame.enter }, [])
      else (car, [])
  | some frame =>
      let stepped := operateDoorStep car.data frame
      ({ car with data := stepped.1, doorcontrol := stepped.2.1 }, stepped.2.2)

/-- The TCP thread stores an order; it looks no status up. -/
def receiveFloor (car : CarState) (label : CString 4) : CarState :=
  if car.readFlag = 1 then
    { car with
      data := { car.data with destinationFloor := label }
      shmSend := 1 }
  else { car with shmSend := 1 }

def carStep (car : CarState) : CarAction → CarState × List Int
  | .process => processStep car
  | .doorcontrol => doorcontrolStep car
  | .floor label => (receiveFloor car label, [])
  | .external edit => ({ car with data := edit car.data }, [])

theorem entry_number (status : Status) :
    entry statusNames status.number = some (Elevator.statusNames status) := by
  cases status <;> rfl

theorem number_inTable (status : Status) : InTable statusNames status.number :=
  inTable_of_entry (entry_number status)

theorem number_injective {first second : Status}
    (heq : first.number = second.number) : first = second := by
  have hentry := entry_number first
  rw [heq, entry_number] at hentry
  exact statusNames_injective (Option.some.inj hentry).symm

theorem mem_statusNames_iff {text : CString 8} :
    text ∈ statusNames ↔ isValidStatus text = true := by
  simp only [statusNames, List.mem_map, isValidStatus, List.any_eq_true,
    decide_eq_true_eq]
  constructor
  · rintro ⟨status, hstatus, rfl⟩
    exact ⟨status, hstatus, rfl⟩
  · rintro ⟨status, hstatus, rfl⟩
    exact ⟨status, hstatus, rfl⟩

/-- The number is that of the status, or -1 if the string is none. -/
theorem stringToStatus_eq (text : CString 8) :
    stringToStatus text =
      match Elevator.stringToStatus text with
      | some status => status.number
      | none => -1 := by
  cases hfind : Elevator.stringToStatus text with
  | some status =>
      rw [stringToStatus_eq_some_iff.mp hfind]
      cases status <;> rfl
  | none =>
      refine search_of_notMem fun hmem => ?_
      rw [mem_statusNames_iff, isValidStatus_iff] at hmem
      obtain ⟨status, rfl⟩ := hmem
      rw [stringToStatus_statusNames] at hfind
      cases hfind

theorem entry_readCarStatus (shm : CarSharedData) :
    entry statusNames (readCarStatus shm) =
      (Elevator.readCarStatus shm).map Elevator.statusNames := by
  rw [readCarStatus, stringToStatus_eq, Elevator.readCarStatus]
  cases Elevator.stringToStatus shm.status with
  | some status => exact entry_number status
  | none => exact entry_neg (by decide)

theorem readCarStatus_eq_number_iff {shm : CarSharedData} {status : Status} :
    readCarStatus shm = status.number ↔
      Elevator.readCarStatus shm = some status := by
  rw [readCarStatus, stringToStatus_eq, Elevator.readCarStatus]
  cases Elevator.stringToStatus shm.status with
  | some shown =>
      rw [Option.some.injEq]
      exact ⟨number_injective, congrArg Status.number⟩
  | none => cases status <;> decide

theorem editSharedMemory_setStatus (shm : CarSharedData) (floor : Int)
    (status : Status) :
    editSharedMemory shm .setStatus floor status.number =
      (some (Elevator.editSharedMemory shm .setStatus floor status).1,
        [status.number]) := by
  rw [editSharedMemory, entry_number]
  rfl

/-- The frame holds the number of the frame's status.  `operate_door` never
takes the doors for a car between floors; what `next_status` holds is not
looked at, as the loop assigns it first. -/
structure DoorFrame.Represents (frame : DoorFrame) (door : Elevator.DoorFrame) :
    Prop where
  pc : frame.pc = door.pc
  currentStatus : frame.currentStatus = door.currentStatus.number
  atFloor : door.currentStatus ≠ .Between

theorem DoorFrame.represents_enter :
    DoorFrame.enter.Represents Elevator.DoorFrame.enter :=
  ⟨rfl, rfl, Status.noConfusion⟩

def DoorFrame.lookups (shm : CarSharedData) (frame : DoorFrame) : List Int :=
  match frame.pc with
  | .checkStatus => [readCarStatus shm, frame.currentStatus]
  | .writeStatus | .report => [frame.currentStatus]
  | _ => []

/-- A step of `operate_door` with numbers does what the step with statuses
does, and looks up what its place in the loop says. -/
theorem operateDoorStep_represents {frame : DoorFrame}
    {door : Elevator.DoorFrame} (hframe : frame.Represents door)
    (shm : CarSharedData) :
    (operateDoorStep shm frame).1 = (Elevator.operateDoorStep shm door).1 ∧
      Option.Rel DoorFrame.Represents (operateDoorStep shm frame).2.1
        (Elevator.operateDoorStep shm door).2 ∧
      (operateDoorStep shm frame).2.2 = frame.lookups shm := by
  obtain ⟨pc, current, next⟩ := frame
  obtain ⟨place, status, following⟩ := door
  obtain ⟨hpc, hcurrent, hfloor⟩ := hframe
  dsimp only at hpc hcurrent hfloor
  subst hpc hcurrent
  cases pc with
  | checkStatus =>
      simp only [operateDoorStep, Elevator.operateDoorStep, entry_readCarStatus,
        entry_number, DoorFrame.lookups]
      cases Elevator.readCarStatus shm with
      | none => exact ⟨rfl, .some ⟨rfl, rfl, hfloor⟩, rfl⟩
      | some shown =>
          dsimp only [Option.map_some]
          split
          · exact ⟨rfl, .some ⟨rfl, rfl, hfloor⟩, rfl⟩
          · exact ⟨rfl, .some ⟨rfl, rfl, hfloor⟩, rfl⟩
  | writeStatus =>
      simp only [operateDoorStep, editSharedMemory_setStatus]
      exact ⟨rfl, .some ⟨rfl, rfl, hfloor⟩, rfl⟩
  | readOpen =>
      simp only [operateDoorStep, Elevator.operateDoorStep]
      split
      · cases status with
        | Between => exact absurd rfl hfloor
        | _ => exact ⟨rfl, .some ⟨rfl, rfl, Status.noConfusion⟩, rfl⟩
      · exact ⟨rfl, .some ⟨rfl, rfl, hfloor⟩, rfl⟩
  | readClose =>
      have hopen : status.number = Status.Open.number ↔ status = .Open :=
        ⟨number_injective, congrArg Status.number⟩
      simp only [operateDoorStep, Elevator.operateDoorStep, hopen]
      split
      · exact ⟨rfl, .some ⟨rfl, rfl, Status.noConfusion⟩, rfl⟩
      · exact ⟨rfl, .some ⟨rfl, rfl, hfloor⟩, rfl⟩
  | report =>
      cases status with
      | Between => exact absurd rfl hfloor
      | Closed => exact ⟨rfl, .none, rfl⟩
      | _ => exact ⟨rfl, .some ⟨rfl, rfl, Status.noConfusion⟩, rfl⟩
  | clearReopening | clearOpening | clearOpen | clearClose | undefined =>
      exact ⟨rfl, .some ⟨rfl, rfl, hfloor⟩, rfl⟩

/-- The process thread stands where the model's stands; it never comes to
stand behind an edit with an index outside. -/
inductive ProcessPc.Represents : ProcessPc → Elevator.ProcessPc → Prop where
  | start : Represents .start .start
  | top : Represents .top .top
  | checkSend (atDestination : Bool) (floordiff : Int) :
      Represents (.checkSend atDestination floordiff)
        (.checkSend atDestination floordiff)
  | arrived {frame : DoorFrame} {door : Elevator.DoorFrame}
      (hframe : frame.Represents door) : Represents (.arrived frame) (.arrived door)
  | clearSend : Represents .clearSend .clearSend
  | checkClosed (floordiff : Int) :
      Represents (.checkClosed floordiff) (.checkClosed floordiff)
  | setBetween (floordiff : Int) (i : Nat) :
      Represents (.setBetween floordiff i) (.setBetween floordiff i)
  | lowerFlag (floordiff : Int) (i : Nat) :
      Represents (.lowerFlag floordiff i) (.lowerFlag floordiff i)
  | move (floordiff : Int) (i : Nat) :
      Represents (.move floordiff i) (.move floordiff i)
  | setClosed (floordiff : Int) (i : Nat) :
      Represents (.setClosed floordiff i) (.setClosed floordiff i)
  | raiseFlag (floordiff : Int) (i : Nat) :
      Represents (.raiseFlag floordiff i) (.raiseFlag floordiff i)
  | serve {frame : DoorFrame} {door : Elevator.DoorFrame}
      (hframe : frame.Represents door) : Represents (.serve frame) (.serve door)

/-- The car with numbers is in a state of the car with statuses. -/
structure CarState.Represents (car : CarState) (model : Elevator.CarState) :
    Prop where
  data : car.data = model.data
  shmSend : car.shmSend = model.shmSend
  readFlag : car.readFlag = model.readFlag
  lowestFloor : car.lowestFloor = model.lowestFloor
  highestFloor : car.highestFloor = model.highestFloor
  process : car.process.Represents model.process
  doorcontrol : Option.Rel DoorFrame.Represents car.doorcontrol model.doorcontrol

theorem represents_startCar (lowest highest : CString 4) (readFlag : Int) :
    (startCar lowest highest readFlag).Represents
      (Elevator.startCar lowest highest readFlag) :=
  ⟨rfl, rfl, rfl, rfl, rfl, .start, .none⟩

theorem represents_moveLoop (floordiff : Int) (i : Nat) :
    (moveLoop floordiff i).Represents (Elevator.moveLoop floordiff i) := by
  unfold moveLoop Elevator.moveLoop
  split
  · exact .setBetween floordiff i
  · exact .serve DoorFrame.represents_enter

/-- Where the process thread stands after a step of `operate_door`: in it, or
where the call returns to. -/
theorem ProcessPc.represents_return {next : Option DoorFrame}
    {door : Option Elevator.DoorFrame} {inside : DoorFrame → ProcessPc}
    {inside' : Elevator.DoorFrame → Elevator.ProcessPc} {behind : ProcessPc}
    {behind' : Elevator.ProcessPc}
    (hinside : ∀ {frame : DoorFrame} {door : Elevator.DoorFrame},
      frame.Represents door → (inside frame).Represents (inside' door))
    (hbehind : behind.Represents behind')
    (hnext : Option.Rel DoorFrame.Represents next door) :
    ((next.map inside).getD behind).Represents
      ((door.map inside').getD behind') := by
  cases hnext with
  | none => exact hbehind
  | some hframe => exact hinside hframe

/-- The indices that a step evaluates: those of `operate_door`, and the numbers
the movement loop writes. -/
def CarState.lookups (car : CarState) : CarAction → List Int
  | .process =>
      match car.process with
      | .arrived frame | .serve frame => frame.lookups car.data
      | .setBetween _ _ => [Status.Between.number]
      | .setClosed _ _ => [Status.Closed.number]
      | _ => []
  | .doorcontrol =>
      match car.doorcontrol with
      | some frame => frame.lookups car.data
      | none => []
  | _ => []

variable {car : CarState} {model : Elevator.CarState}

theorem processStep_represents (hcar : car.Represents model) :
    (processStep car).1.Represents (Elevator.processStep model) ∧
      (processStep car).2 = car.lookups .process := by
  obtain ⟨data, shmSend, readFlag, lowest, highest, process, doorcontrol⟩ := car
  obtain ⟨data', shmSend', readFlag', lowest', highest', process', doorcontrol'⟩ :=
    model
  obtain ⟨hdata, hsend, hflag, hlowest, hhighest, hprocess, hdoor⟩ := hcar
  dsimp only at hdata hsend hflag hlowest hhighest hprocess hdoor
  subst hdata hsend hflag hlowest hhighest
  cases hprocess with
  | start => exact ⟨⟨rfl, rfl, rfl, rfl, rfl, .top, hdoor⟩, rfl⟩
  | top => exact ⟨⟨rfl, rfl, rfl, rfl, rfl, .checkSend _ _, hdoor⟩, rfl⟩
  | checkSend atDestination floordiff =>
      simp only [processStep, Elevator.processStep]
      split
      · exact ⟨⟨rfl, rfl, rfl, rfl, rfl, .arrived DoorFrame.represents_enter,
          hdoor⟩, rfl⟩
      · split
        · exact ⟨⟨rfl, rfl, rfl, rfl, rfl, .top, hdoor⟩, rfl⟩
        · exact ⟨⟨rfl, rfl, rfl, rfl, rfl, .checkClosed _, hdoor⟩, rfl⟩
  | arrived hframe =>
      obtain ⟨hdata, hnext, hlookups⟩ := operateDoorStep_represents hframe data
      exact ⟨⟨hdata, rfl, rfl, rfl, rfl,
        ProcessPc.represents_return .arrived .clearSend hnext, hdoor⟩, hlookups⟩
  | clearSend => exact ⟨⟨rfl, rfl, rfl, rfl, rfl, .top, hdoor⟩, rfl⟩
  | checkClosed floordiff =>
      simp only [processStep, Elevator.processStep, readCarStatus_eq_number_iff]
      split
      · exact ⟨⟨rfl, rfl, rfl, rfl, rfl, represents_moveLoop floordiff 0,
          hdoor⟩, rfl⟩
      · exact ⟨⟨rfl, rfl, rfl, rfl, rfl, .top, hdoor⟩, rfl⟩
  | setBetween floordiff i =>
      exact ⟨⟨rfl, rfl, rfl, rfl, rfl, .lowerFlag floordiff i, hdoor⟩, rfl⟩
  | lowerFlag floordiff i =>
      exact ⟨⟨rfl, rfl, rfl, rfl, rfl, .move floordiff i, hdoor⟩, rfl⟩
  | move floordiff i =>
      exact ⟨⟨rfl, rfl, rfl, rfl, rfl, .setClosed floordiff i, hdoor⟩, rfl⟩
  | setClosed floordiff i =>
      exact ⟨⟨rfl, rfl, rfl, rfl, rfl, .raiseFlag floordiff i, hdoor⟩, rfl⟩
  | raiseFlag floordiff i =>
      exact ⟨⟨rfl, rfl, rfl, rfl, rfl, represents_moveLoop floordiff (i + 1),
        hdoor⟩, rfl⟩
  | serve hframe =>
      obtain ⟨hdata, hnext, hlookups⟩ := operateDoorStep_represents hframe data
      exact ⟨⟨hdata, rfl, rfl, rfl, rfl,
        ProcessPc.represents_return .serve .top hnext, hdoor⟩, hlookups⟩

theorem doorcontrolStep_represents (hcar : car.Represents model) :
    (doorcontrolStep car).1.Represents (Elevator.doorcontrolStep model) ∧
      (doorcontrolStep car).2 = car.lookups .doorcontrol := by
  obtain ⟨data, shmSend, readFlag, lowest, highest, process, doorcontrol⟩ := car
  obtain ⟨data', shmSend', readFlag', lowest', highest', process', doorcontrol'⟩ :=
    model
  obtain ⟨hdata, hsend, hflag, hlowest, hhighest, hprocess, hdoor⟩ := hcar
  dsimp only at hdata hsend hflag hlowest hhighest hprocess hdoor
  subst hdata hsend hflag hlowest hhighest
  cases hdoor with
  | none =>
      simp only [doorcontrolStep, Elevator.doorcontrolStep]
      split
      · exact ⟨⟨rfl, rfl, rfl, rfl, rfl, hprocess,
          .some DoorFrame.represents_enter⟩, rfl⟩
      · exact ⟨⟨rfl, rfl, rfl, rfl, rfl, hprocess, .none⟩, rfl⟩
  | some hframe =>
      obtain ⟨hdata, hnext, hlookups⟩ := operateDoorStep_represents hframe data
      exact ⟨⟨hdata, rfl, rfl, rfl, rfl, hprocess, hnext⟩, hlookups⟩

theorem receiveFloor_represents (hcar : car.Represents model)
    (label : CString 4) :
    (receiveFloor car label).Represents (Elevator.receiveFloor model label) := by
  obtain ⟨hdata, hsend, hflag, hlowest, hhighest, hprocess, hdoor⟩ := hcar
  unfold receiveFloor Elevator.receiveFloor
  rw [hflag, hdata]
  split
  · exact ⟨rfl, rfl, rfl, hlowest, hhighest, hprocess, hdoor⟩
  · exact ⟨rfl, rfl, rfl, hlowest, hhighest, hprocess, hdoor⟩

/-- The step lemma of the refinement, with the indices the step evaluates. -/
theorem carStep_represents (hcar : car.Represents model) (action : CarAction) :
    (carStep car action).1.Represents (Elevator.carStep model action) ∧
      (carStep car action).2 = car.lookups action := by
  cases action with
  | process => exact processStep_represents hcar
  | doorcontrol => exact doorcontrolStep_represents hcar
  | floor label => exact ⟨receiveFloor_represents hcar label, rfl⟩
  | external edit =>
      obtain ⟨hdata, hsend, hflag, hlowest, hhighest, hprocess, hdoor⟩ := hcar
      exact ⟨⟨congrArg edit hdata, hsend, hflag, hlowest, hhighest, hprocess,
        hdoor⟩, rfl⟩

/-- Whatever other processes write, the car with numbers runs as the car with
statuses. -/
theorem represents_run (lowest highest : CString 4) (readFlag : Int)
    (actions : List CarAction) :
    (run (fun car action => (carStep car action).1)
        (startCar lowest highest readFlag) actions).Represents
      (run Elevator.carStep (Elevator.startCar lowest highest readFlag)
        actions) :=
  run_of_related (R := CarState.Represents)
    (fun _ _ action hcar => (carStep_represents hcar action).1)
    (represents_startCar lowest highest readFlag) actions

end Numbered

end Elevator
