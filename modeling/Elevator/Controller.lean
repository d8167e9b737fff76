/-
The controller: the choice of a car for a call, the handling of a status
report, and the other events of the loop around `select`.  What the rest of the
system sees of a step is recorded in the order in which it happens.
-/
import Elevator.ControllerMemory
import Elevator.Transition

namespace Elevator

open CText Transition

/-- What the controller sends: orders to cars, and replies to call pads. -/
inductive ControllerMessage where
  | floor (label : CString 4)
  | car (selectedCar : CString 50)
  | unavailable
deriving DecidableEq, Repr

/-- The text of a message, as `snprintf` and `strncpy` put it into the buffer. -/
def ControllerMessage.text : ControllerMessage → List Char
  | .floor label => "FLOOR ".toList ++ label.chars
  | .car selectedCar => "CAR ".toList ++ selectedCar.chars
  | .unavailable => "UNAVAILABLE".toList

/-- What a step leaves on record.  Records are named by their place in the
registry; `reported` is the current floor of the status message at hand. -/
inductive ControllerEvent where
  | assigned (record : Nat) (sourceFloor destFloor : Int)
  | removed (record : Nat) (stop : QueueNode) (reported : CString 4)
  | sent (socket : Int) (message : ControllerMessage)
deriving DecidableEq, Repr

/-- The registry, and the client sockets that are open and in `master_set`:
closing a socket and clearing it there always go together. -/
structure ControllerState where
  cars : List ConnectedCar
  masterSet : List Int
deriving DecidableEq, Repr

/-- `close` and `FD_CLR`. -/
def ControllerState.drop (state : ControllerState) (socket : Int) :
    ControllerState :=
  { state with masterSet := state.masterSet.filter (· ≠ socket) }

/-- The distance score of a car: a bonus for one that moves in the direction of
the request, a malus for each node in its queue. -/
def distanceScore (car : ConnectedCar) (sourceFloor destFloor : Int) : Int :=
  ((stringToFloor car.currentfloor - sourceFloor).natAbs : Int) -
    (if car.currentDirection = requestDirection sourceFloor destFloor then 5
      else 0) +
    2 * car.queue.length

/-- The scan for the best car: the first record with the least score below
`minDistance`, or else the best one so far. -/
def scanCars (sourceFloor destFloor : Int) :
    List ConnectedCar → Nat → Int → Option (Nat × ConnectedCar) →
      Option (Nat × ConnectedCar)
  | [], _, _, best => best
  | car :: rest, i, minDistance, best =>
      if canServiceRequest car sourceFloor destFloor &&
          distanceScore car sourceFloor destFloor < minDistance then
        scanCars sourceFloor destFloor rest (i + 1)
          (distanceScore car sourceFloor destFloor) (some (i, car))
      else scanCars sourceFloor destFloor rest (i + 1) minDistance best

def bestCar (cars : List ConnectedCar) (sourceFloor destFloor : Int) :
    Option (Nat × ConnectedCar) :=
  scanCars sourceFloor destFloor cars 0 100 none

/-- Outcomes of the calls a request makes: whether there is memory for the two
nodes, and whether the order and the reply can be sent. -/
structure CallOutcome where
  allocated : Bool
  orderSent : Bool
  replySent : Bool
deriving DecidableEq, Repr

/-- The car of a request is told where to go if its destination is the floor it
is on.  The destination is stored in decimal, also for a basement.  The result
says whether the function goes on to return `true`. -/
def sendNextDestination (state : ControllerState) (record : Nat)
    (car : ConnectedCar) (orderSent : Bool) :
    ControllerState × Bool × List ControllerEvent :=
  if car.destinationfloor = car.currentfloor ∧ getNextDestination car ≠ -1 then
    let ordered := { car with
      destinationfloor := .store 4 (printInt (getNextDestination car)) }
    let state := { state with cars := state.cars.set record ordered }
    let carSocket := controllerGetSocketByName state.cars car.name
    if carSocket = -1 then (state, false, [])
    else if orderSent then
      (state, true,
        [.sent carSocket (.floor (floorToString (getNextDestination car)))])
    else (state.drop carSocket, true, [])
  else ({ state with cars := state.cars.set record car }, true, [])

/-- The handling of a request, with the name of the car that got it. -/
def handleElevatorCall (state : ControllerState) (sourceFloor destFloor : Int)
    (outcome : CallOutcome) :
    ControllerState × Option (CString 50) × List ControllerEvent :=
  match bestCar state.cars sourceFloor destFloor with
  | none => (state, none, [])
  | some (record, car) =>
      let (queued, added) :=
        addToCarQueue outcome.allocated car sourceFloor destFloor
      if added then
        let (after, selected, events) :=
          sendNextDestination state record queued outcome.orderSent
        if selected then
          (after, some car.name,
            .assigned record sourceFloor destFloor :: events)
        else (after, none, events)
      else (state, none, [])

/-- A `CALL` on a socket: the request is handled and answered. -/
def callStep (state : ControllerState) (socket : Int)
    (source destination : CString 4) (outcome : CallOutcome) :
    ControllerState × List ControllerEvent :=
  let (after, selected, events) := handleElevatorCall state
    (stringToFloor source) (stringToFloor destination) outcome
  let reply := match selected with
    | some selectedCar => .car selectedCar
    | none => .unavailable
  if outcome.replySent then (after, events ++ [.sent socket reply])
  else (after.drop socket, events)

def doorsClosed (car : ConnectedCar) : Bool :=
  car.previousStatus = statusNames .Closing && car.status = statusNames .Closed

/-- The loop over the records that bear the sender's name.  It ends with the
first of them, unless its order cannot be sent: that `continue` belongs to this
loop, and takes it on to the next one.  The result says whether the socket is
still open. -/
def statusLoop (socket : Int) (name : CString 50) (reported : CString 4) :
    List ConnectedCar → Nat → Bool →
      List ConnectedCar × Bool × List ControllerEvent
  | [], _, _ => ([], true, [])
  | car :: rest, j, sends =>
      if car.name = name then
        if doorsClosed car then
          let (after, freed) := removeFromCarQueue car
          let removal := freed.toList.map fun stop =>
            ControllerEvent.removed j stop reported
          if getNextDestination after ≠ -1 then
            if sends then
              (after :: rest, true, removal ++ [.sent socket
                (.floor (floorToString (getNextDestination after)))])
            else
              let (others, _, events) :=
                statusLoop socket name reported rest (j + 1) false
              (after :: others, false, removal ++ events)
          else (after :: rest, true, removal)
        else (car :: rest, true, [])
      else
        let (others, isOpen, events) :=
          statusLoop socket name reported rest (j + 1) sends
        (car :: others, isOpen, events)

def statusStep (state : ControllerState) (socket : Int) (statusStr : CString 8)
    (currentFloor destinationFloor : CString 4) (sends : Bool) :
    ControllerState × List ControllerEvent :=
  match controllerGetNameBySocket state.cars socket with
  | none => (state, [])
  | some name =>
      let cars := controllerSet state.cars name 3 statusStr.chars
      let cars := controllerSet cars name 4 currentFloor.chars
      let cars := controllerSet cars name 5 destinationFloor.chars
      let (cars, isOpen, events) :=
        statusLoop socket name currentFloor cars 0 sends
      let cars := controllerSet cars name 7 statusStr.chars
      let after := { state with cars := cars }
      (if isOpen then after else after.drop socket, events)

/-- What happens at the controller's sockets.  A registration is filled into a
local record whose other members hold whatever was there. -/
inductive ControllerInput where
  | connection (socket : Int)
  | call (socket : Int) (source destination : CString 4) (outcome : CallOutcome)
  | car (socket : Int) (name : CString 50) (lowestFloor highestFloor : CString 4)
      (fresh : ConnectedCar)
  | status (socket : Int) (statusStr : CString 8)
      (currentFloor destinationFloor : CString 4) (sends : Bool)
  | hangUp (socket : Int)

def registeredCar (socket : Int) (name : CString 50)
    (lowestFloor highestFloor : CString 4) (fresh : ConnectedCar) :
    ConnectedCar :=
  { fresh with
    name := name
    lowestFloor := lowestFloor
    highestFloor := highestFloor
    previousStatus := .store 8 "IDLE".toList
    connectionsocket := socket }

/-- A connection ends: the first car with the name of the socket's car goes. -/
def hangUpStep (state : ControllerState) (socket : Int) : ControllerState :=
  let cars := match controllerGetNameBySocket state.cars socket with
    | some name => controllerRemoveByName state.cars name
    | none => state.cars
  { state with cars := cars }.drop socket

def controllerStep (state : ControllerState) :
    ControllerInput → ControllerState × List ControllerEvent
  | .connection socket =>
      ({ state with masterSet := state.masterSet ++ [socket] }, [])
  | .call socket source destination outcome =>
      callStep state socket source destination outcome
  | .car socket name lowestFloor highestFloor fresh =>
      let newCar := registeredCar socket name lowestFloor highestFloor fresh
      ({ state with cars := controllerPush state.cars newCar }, [])
  | .status socket statusStr currentFloor destinationFloor sends =>
      statusStep state socket statusStr currentFloor destinationFloor sends
  | .hangUp socket => (hangUpStep state socket, [])

/-- A car called Alpha, idle on floor 1 of a shaft of ten, on socket 4. -/
def idleCar : ConnectedCar where
  name := .store 50 "Alpha".toList
  highestFloor := floorToString 10
  lowestFloor := floorToString 1
  status := statusNames .Closed
  previousStatus := .store 8 "IDLE".toList
  currentfloor := floorToString 1
  destinationfloor := floorToString 1
  connectionsocket := 4
  queue := []
  currentDirection := .idle
  elevatorStatus := some .Closed

def idleRegistry : ControllerState where
  cars := [idleCar]
  masterSet := [4, 5]

/-- A call from the pad on socket 5, with every system call successful. -/
def callFrom (source destination : Int) : ControllerInput :=
  .call 5 (floorToString source) (floorToString destination) ⟨true, true, true⟩

def reportAt (status : Status) (current destination : Int) : ControllerInput :=
  .status 4 (statusNames status) (floorToString current)
    (floorToString destination) true

end Elevator
