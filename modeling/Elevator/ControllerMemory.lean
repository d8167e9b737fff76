/-
The controller's records: a car as it is registered, the queue of stops that
hangs off it, and the lookups and updates by name and by socket.  A queue is
the list of the nodes that can be reached from `queue_head`.
-/
import Elevator.SharedMemory

namespace Elevator

open CText

inductive Direction where
  | up
  | down
  | idle
deriving DecidableEq, Repr

structure QueueNode where
  floor : Int
  direction : Direction
deriving DecidableEq, Repr

/-- A registered car.  `elevatorStatus` is `none` where the member holds none of
the five statuses. -/
structure ConnectedCar where
  name : CString 50
  highestFloor : CString 4
  lowestFloor : CString 4
  status : CString 8
  previousStatus : CString 8
  currentfloor : CString 4
  destinationfloor : CString 4
  connectionsocket : Int
  queue : List QueueNode
  currentDirection : Direction
  elevatorStatus : Option Status
deriving DecidableEq, Repr

def canServiceRequest (car : ConnectedCar) (sourceFloor destFloor : Int) :
    Bool :=
  stringToFloor car.lowestFloor ≤ sourceFloor &&
    sourceFloor ≤ stringToFloor car.highestFloor &&
    stringToFloor car.lowestFloor ≤ destFloor &&
    destFloor ≤ stringToFloor car.highestFloor

def requestDirection (sourceFloor destFloor : Int) : Direction :=
  if sourceFloor < destFloor then .up else .down

/-- The special case of a car that stands on the source floor. -/
def insertsAtCurrentFloor (car : ConnectedCar) (sourceFloor : Int)
    (direction : Direction) : Bool :=
  stringToFloor car.currentfloor = sourceFloor &&
    car.elevatorStatus ≠ some .Closing &&
    (car.currentDirection = direction || car.currentDirection = .idle)

/-- The search for a direction block: how many nodes stand before the place of
insertion, with `block` the direction of the block at the head of the list. -/
def findBlock (direction : Direction) (sourceFloor : Int) :
    Direction → List QueueNode → Option Nat
  | _, [] => none
  | block, current :: rest =>
      if block = direction ∧
          (direction = .up ∧ current.floor ≤ sourceFloor ∨
            direction = .down ∧ sourceFloor ≤ current.floor) then some 1
      else
        let block := match rest with
          | next :: _ =>
              if current.direction ≠ next.direction then next.direction else block
          | [] => block
        (findBlock direction sourceFloor block rest).map (· + 1)

/-- A request enters the queue, unless there is no memory for its two nodes.
The two paths that splice link the source node only: `dest_node->next` is set,
and nothing is set to point at `dest_node`. -/
def addToCarQueue (allocated : Bool) (car : ConnectedCar)
    (sourceFloor destFloor : Int) : ConnectedCar × Bool :=
  let direction := requestDirection sourceFloor destFloor
  let sourceNode : QueueNode := ⟨sourceFloor, direction⟩
  let destNode : QueueNode := ⟨destFloor, direction⟩
  if !allocated then (car, false)
  else if car.queue = [] then
    ({ car with queue := [sourceNode, destNode] }, true)
  else if insertsAtCurrentFloor car sourceFloor direction then
    ({ car with queue := sourceNode :: car.queue }, true)
  else
    match findBlock direction sourceFloor car.currentDirection car.queue with
    | some position =>
        ({ car with queue := car.queue.insertIdx position sourceNode }, true)
    | none => ({ car with queue := car.queue ++ [sourceNode, destNode] }, true)

/-- The floor at the head of the queue, and -1 for an empty one. -/
def getNextDestination (car : ConnectedCar) : Int :=
  match car.queue with
  | [] => -1
  | head :: _ => head.floor

/-- The head leaves the queue and is freed. -/
def removeFromCarQueue (car : ConnectedCar) :
    ConnectedCar × Option QueueNode :=
  match car.queue with
  | [] => (car, none)
  | head :: rest => ({ car with queue := rest }, some head)

def controllerPush (cars : List ConnectedCar) (newCar : ConnectedCar) :
    List ConnectedCar :=
  cars ++ [newCar]

def controllerGetNameBySocket (cars : List ConnectedCar)
    (connectionSocket : Int) : Option (CString 50) :=
  (cars.find? fun car => car.connectionsocket = connectionSocket).map (·.name)

/-- The socket of the first car with this name, and -1 if there is none. -/
def controllerGetSocketByName (cars : List ConnectedCar) (name : CString 50) :
    Int :=
  ((cars.find? fun car => car.name = name).map (·.connectionsocket)).getD (-1)

def controllerRemoveByName (cars : List ConnectedCar) (name : CString 50) :
    List ConnectedCar :=
  cars.eraseP fun car => car.name = name

/-- The assignment that an operation code of `controller_set` stands for. -/
def setField (opCode : Nat) (newValue : List Char) (car : ConnectedCar) :
    ConnectedCar :=
  match opCode with
  | 1 => { car with highestFloor := .store 4 newValue }
  | 2 => { car with lowestFloor := .store 4 newValue }
  | 3 => { car with status := .store 8 newValue }
  | 7 => { car with previousStatus := .store 8 newValue }
  | 4 => { car with currentfloor := .store 4 newValue }
  | 5 => { car with destinationfloor := .store 4 newValue }
  | 6 => { car with connectionsocket := (scanInt newValue).getD 0 }
  | _ => car

/-- `controller_set` writes the first record with the name. -/
def controllerSet (cars : List ConnectedCar) (name : CString 50) (opCode : Nat)
    (newValue : List Char) : List ConnectedCar :=
  match cars with
  | [] => []
  | car :: rest =>
      if car.name = name then setField opCode newValue car :: rest
      else car :: controllerSet rest name opCode newValue

/-- The update of the list, by the index of the record. -/
theorem controllerSet_eq_modify (cars : List ConnectedCar) (name : CString 50)
    (opCode : Nat) (newValue : List Char) :
    controllerSet cars name opCode newValue =
      match cars.findIdx? fun car => car.name = name with
      | some i => cars.modify i (setField opCode newValue)
      | none => cars := by
  induction cars with
  | nil => rfl
  | cons head rest ih =>
      rw [controllerSet, List.findIdx?_cons]
      by_cases hhead : head.name = name
      · simp [hhead]
      · simp only [hhead, if_false, decide_false, Bool.false_eq_true, ih]
        cases rest.findIdx? fun car => car.name = name <;> rfl

end Elevator
