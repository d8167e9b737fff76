/-
The internal controls: one run of the command is a short program over the shared
segment, and every read or edit it makes is a locked section of its own, between
any two of which the other processes act.
-/
import Elevator.Safety

namespace Elevator

open CText

inductive Input where
  | opendoor
  | closedoor
  | stop
  | serviceon
  | serviceoff
  | up
  | down
deriving DecidableEq, Repr

/-- `none` is the exit with `Invalid operation.` -/
def getOperation (operation : List Char) : Option Input :=
  if operation = "open".toList then some .opendoor
  else if operation = "close".toList then some .closedoor
  else if operation = "stop".toList then some .stop
  else if operation = "service_on".toList then some .serviceon
  else if operation = "service_off".toList then some .serviceoff
  else if operation = "up".toList then some .up
  else if operation = "down".toList then some .down
  else none

/-- Why a run of the command ends with a failure. -/
inductive InternalError where
  | operationTooLong
  | invalidOperation
  | moving
  | notInService
  | doorsOpen
deriving DecidableEq, Repr

def InternalError.text : InternalError → String
  | .operationTooLong => "Error: Invalid operation\n"
  | .invalidOperation => "Invalid operation.\n"
  | .moving => "Operation not allowed while elevator is moving.\n"
  | .notInService => "Operation only allowed in service mode.\n"
  | .doorsOpen => "Operation only allowed when doors are open.\n"

/-- Where a run of the command stands: the access it makes next.  The checks
and the edit of `up` and `down` carry the distance, 1 or -1. -/
inductive InternalPc where
  | checkMoving
  | setOpen
  | setClose
  | setEmergencyStop
  | setService
  | clearEmergency
  | clearEmergencyStop
  | clearOverload
  | clearDoorObstruction
  | clearService
  | checkService (floor : Int)
  | checkOpen (floor : Int)
  | checkBetween (floor : Int)
  | moveDestination (floor : Int)
  | finished
  | failed (error : InternalError)
deriving DecidableEq, Repr

/-- The first access of each case of the `switch`. -/
def Input.start : Input → InternalPc
  | .opendoor => .checkMoving
  | .closedoor => .setClose
  | .stop => .setEmergencyStop
  | .serviceon => .setService
  | .serviceoff => .clearService
  | .up => .checkService 1
  | .down => .checkService (-1)

/-- The command line up to the first access. -/
def internalMain (operation : List Char) : InternalPc :=
  if 12 ≤ operation.length then .failed .operationTooLong
  else
    match getOperation operation with
    | none => .failed .invalidOperation
    | some opp => opp.start

def internalStep (shm : CarSharedData) : InternalPc → CarSharedData × InternalPc
  | .checkMoving =>
      (shm, if readCarStatus shm = some .Between then .failed .moving
        else .setOpen)
  | .setOpen => ((editSharedMemory shm .setOpen 0 .Opening).1, .finished)
  | .setClose => ((editSharedMemory shm .setClose 0 .Opening).1, .finished)
  | .setEmergencyStop =>
      ((editSharedMemory shm .setEmergencyStop 0 .Opening).1, .finished)
  | .setService =>
      ((editSharedMemory shm .setService 0 .Opening).1, .clearEmergency)
  | .clearEmergency =>
      ((editSharedMemory shm .clearEmergency 0 .Opening).1, .clearEmergencyStop)
  | .clearEmergencyStop =>
      ((editSharedMemory shm .clearEmergencyStop 0 .Opening).1, .clearOverload)
  | .clearOverload =>
      ((editSharedMemory shm .clearOverload 0 .Opening).1, .clearDoorObstruction)
  | .clearDoorObstruction =>
      ((editSharedMemory shm .clearDoorObstruction 0 .Opening).1, .finished)
  | .clearService =>
      ((editSharedMemory shm .clearService 0 .Opening).1, .finished)
  | .checkService floor =>
      (shm, if readSharedMemory shm .getService then .checkOpen floor
        else .failed .notInService)
  | .checkOpen floor =>
      (shm, if readCarStatus shm = some .Open then .failed .doorsOpen
        else .checkBetween floor)
  | .checkBetween floor =>
      (shm, if readCarStatus shm = some .Between then .failed .moving
        else .moveDestination floor)
  | .moveDestination floor =>
      ((editSharedMemory shm .moveDestination floor .Opening).1, .finished)
  | .finished => (shm, .finished)
  | .failed error => (shm, .failed error)

/-- The emergency mode is written by one access only, which ends it. -/
theorem internalStep_emergencyMode (shm : CarSharedData) (pc : InternalPc) :
    (internalStep shm pc).1.emergencyMode =
      if pc = .clearEmergency then 0 else shm.emergencyMode := by
  cases pc <;> rfl

/-- The service mode is written by two. -/
theorem internalStep_individualServiceMode (shm : CarSharedData)
    (pc : InternalPc) :
    (internalStep shm pc).1.individualServiceMode =
      if pc = .setService then 1
      else if pc = .clearService then 0
      else shm.individualServiceMode := by
  cases pc <;> rfl

theorem internalStep_status (shm : CarSharedData) (pc : InternalPc) :
    (internalStep shm pc).1.status = shm.status := by
  cases pc <;> rfl

/-- Only the first edit of `service_on` leads to its second. -/
theorem internalStep_clearEmergency {shm : CarSharedData} {pc : InternalPc}
    (hnext : (internalStep shm pc).2 = .clearEmergency) : pc = .setService := by
  cases pc with
  | setService => rfl
  | checkMoving | checkService floor | checkOpen floor | checkBetween floor =>
      simp only [internalStep] at hnext
      split at hnext <;> cases hnext
  | _ => cases hnext

theorem internalMain_ne_clearEmergency (operation : List Char) :
    internalMain operation ≠ .clearEmergency := by
  unfold internalMain
  split
  · exact InternalPc.noConfusion
  · cases getOperation operation with
    | none => exact InternalPc.noConfusion
    | some opp => cases opp <;> exact InternalPc.noConfusion

end Elevator
