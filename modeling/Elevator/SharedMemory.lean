/-
The segment a car shares with its internal controls and its safety system, the
floor and status codecs, and the operations every component performs on the
segment under its mutex.
-/
import Elevator.CString

namespace Elevator

open CText

inductive Status where
  | Opening
  | Open
  | Closing
  | Closed
  | Between
deriving DecidableEq, Repr

def statusNames : Status → CString 8
  | .Opening => .store 8 "Opening".toList
  | .Open => .store 8 "Open".toList
  | .Closing => .store 8 "Closing".toList
  | .Closed => .store 8 "Closed".toList
  | .Between => .store 8 "Between".toList

def Status.all : List Status := [.Opening, .Open, .Closing, .Closed, .Between]

/-- The first status with this name.  `none` is the value -1 that the function
returns for an invalid string. -/
def stringToStatus (statusStr : CString 8) : Option Status :=
  Status.all.find? fun status => statusStr = statusNames status

@[simp] theorem stringToStatus_statusNames (status : Status) :
    stringToStatus (statusNames status) = some status := by
  cases status <;> rfl

theorem statusNames_injective {first second : Status}
    (heq : statusNames first = statusNames second) : first = second := by
  have hsome := congrArg stringToStatus heq
  simpa using hsome

@[simp] theorem statusNames_inj (first second : Status) :
    statusNames first = statusNames second ↔ first = second :=
  ⟨statusNames_injective, congrArg statusNames⟩

theorem stringToStatus_eq_some_iff {text : CString 8} {status : Status} :
    stringToStatus text = some status ↔ text = statusNames status := by
  constructor
  · intro hfind
    simpa using List.find?_some hfind
  · rintro rfl
    exact stringToStatus_statusNames status

/-- The label of a floor: basement levels get a `B`, and floor 0, which does
not exist, is labelled like floor 1. -/
def floorToString (floor : Int) : CString 4 :=
  if floor < 0 then .store 4 ('B' :: printInt floor.natAbs)
  else if floor = 0 then .store 4 (printInt 1)
  else .store 4 (printInt floor)

/-- The header redefines `INT_MIN`, the error value of `stringToFloor`. -/
def intMin : Int := 999

/-- The number of the floor a label names.  A `B` that no number follows
leaves the error value in place; it is not negated. -/
def stringToFloor {size : Nat} (floorlabel : CString size) : Int :=
  match floorlabel.chars with
  | 'B' :: rest =>
      match scanInt rest with
      | some floor => -floor
      | none => intMin
  | text =>
      match scanInt text with
      | some floor => floor
      | none => intMin

/-- The shared data block, without its mutex and condition variable. -/
structure CarSharedData where
  currentFloor : CString 4
  destinationFloor : CString 4
  status : CString 8
  openButton : UInt8
  closeButton : UInt8
  doorObstruction : UInt8
  overload : UInt8
  emergencyStop : UInt8
  individualServiceMode : UInt8
  emergencyMode : UInt8
deriving DecidableEq, Repr

inductive CarOp where
  | nop
  | setFloor
  | moveCurrent
  | moveDestination
  | setDestination
  | setStatus
  | setOpen
  | clearOpen
  | setClose
  | clearClose
  | setDoorObstruction
  | clearDoorObstruction
  | setOverload
  | clearOverload
  | setEmergency
  | clearEmergency
  | setService
  | clearService
  | setEmergencyStop
  | clearEmergencyStop
  | getFloor
  | getDestination
  | getStatus
  | getOpen
  | getClose
  | getOverload
  | getDoorObstruction
  | getEmergency
  | getService
  | getEmergencyStop
deriving DecidableEq, Repr

/-- The arithmetic shared by `OP_MOVE_CURRENT` and `OP_MOVE_DESTINATION`.  A
move that reaches or passes floor 0 is carried one floor further. -/
def movedFloor (fromFloor floor : Int) : Int :=
  if (0 ≤ fromFloor + floor ∧ fromFloor < 0) ∨
      (fromFloor + floor ≤ 0 ∧ 0 < fromFloor) then
    if fromFloor < 0 then fromFloor + floor + 1
    else if 0 < fromFloor then fromFloor + floor - 1
    else fromFloor
  else fromFloor + floor

/-- One locked edit of the segment, with the value the function returns: the
reading operations are invalid here and change nothing. -/
def editSharedMemory (shm : CarSharedData) (operation : CarOp) (floor : Int)
    (status : Status) : CarSharedData × Bool :=
  match operation with
  | .nop => (shm, true)
  | .setOpen => ({ shm with openButton := 1 }, true)
  | .clearOpen => ({ shm with openButton := 0 }, true)
  | .setClose => ({ shm with closeButton := 1 }, true)
  | .clearClose => ({ shm with closeButton := 0 }, true)
  | .setOverload => ({ shm with overload := 1 }, true)
  | .clearOverload => ({ shm with overload := 0 }, true)
  | .setDoorObstruction => ({ shm with doorObstruction := 1 }, true)
  | .clearDoorObstruction => ({ shm with doorObstruction := 0 }, true)
  | .setEmergency => ({ shm with emergencyMode := 1 }, true)
  | .clearEmergency => ({ shm with emergencyMode := 0 }, true)
  | .setService => ({ shm with individualServiceMode := 1 }, true)
  | .clearService => ({ shm with individualServiceMode := 0 }, true)
  | .setEmergencyStop => ({ shm with emergencyStop := 1 }, true)
  | .clearEmergencyStop => ({ shm with emergencyStop := 0 }, true)
  | .moveCurrent =>
      ({ shm with currentFloor :=
          floorToString (movedFloor (stringToFloor shm.currentFloor) floor) }, true)
  | .moveDestination =>
      ({ shm with destinationFloor :=
          floorToString (movedFloor (stringToFloor shm.destinationFloor) floor) }, true)
  | .setFloor => ({ shm with currentFloor := floorToString floor }, true)
  | .setDestination => ({ shm with destinationFloor := floorToString floor }, true)
  | .setStatus => ({ shm with status := statusNames status }, true)
  | .getFloor | .getDestination | .getStatus | .getOpen | .getClose
  | .getOverload | .getDoorObstruction | .getEmergency | .getService
  | .getEmergencyStop => (shm, false)

/-- One locked read of a flag.  The case of `OP_GET_EMERGENCY` has no `break`
and goes on into the obstruction case. -/
def readSharedMemory (shm : CarSharedData) (operation : CarOp) : Bool :=
  match operation with
  | .getOpen => shm.openButton = 1
  | .getClose => shm.closeButton = 1
  | .getOverload => shm.overload = 1
  | .getEmergency => shm.emergencyStop = 1 || shm.doorObstruction = 1
  | .getDoorObstruction => shm.doorObstruction = 1
  | .getService => shm.individualServiceMode = 1
  | .getEmergencyStop => shm.emergencyMode = 1
  | _ => false

def readCarStatus (shm : CarSharedData) : Option Status :=
  stringToStatus shm.status

def initSharedData (lowest : CString 4) : CarSharedData where
  currentFloor := lowest
  destinationFloor := lowest
  status := statusNames .Closed
  openButton := 0
  closeButton := 0
  doorObstruction := 0
  overload := 0
  emergencyStop := 0
  individualServiceMode := 0
  emergencyMode := 0

section Edits

variable (shm : CarSharedData) (floor : Int) (status : Status)

@[simp] theorem edit_setStatus :
    (editSharedMemory shm .setStatus floor status).1 =
      { shm with status := statusNames status } := rfl

@[simp] theorem edit_moveCurrent :
    (editSharedMemory shm .moveCurrent floor status).1 =
      { shm with currentFloor :=
          floorToString (movedFloor (stringToFloor shm.currentFloor) floor) } := rfl

@[simp] theorem edit_setOpen :
    (editSharedMemory shm .setOpen floor status).1 =
      { shm with openButton := 1 } := rfl

end Edits

end Elevator
