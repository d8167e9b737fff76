/-
The controller's loop around `select`, down to the bytes.  Frames are read into
one buffer for all clients, in which what was there before stays behind what has
been received; the command is then read off the buffer.
-/
import Elevator.Controller
import Elevator.Framing
import Elevator.Scan
import Mathlib.Tactic.SplitIfs

namespace Elevator

open CText Framing Transition

/-- The local arrays of the handler, and its local record, as they lie on the
stack when a frame is handled. -/
structure Locals where
  source : CString 4
  destination : CString 4
  name : CString 50
  lowestFloor : CString 4
  highestFloor : CString 4
  status : CString 8
  currentFloor : CString 4
  destinationFloor : CString 4
  fresh : ConnectedCar
deriving DecidableEq, Repr

inductive Command where
  | call (source destination : CString 4)
  | car (name : CString 50) (lowestFloor highestFloor : CString 4)
  | status (statusStr : CString 8) (currentFloor destinationFloor : CString 4)
deriving DecidableEq, Repr

/-- The array that `sscanf` assigns a word to, if there is one.  A word that is
too long is cut off at the end of the array; what it overwrites there is not
followed. -/
def assigned {size : Nat} (words : List (List Char)) (i : Nat)
    (stale : CString size) : CString size :=
  (words[i]?.map (.store size)).getD stale

/-- The command in the buffer: its first four characters decide, and `sscanf`
reads the operands.  The first character of an announcement of the modes has no
case of its own. -/
def parseCommand (buffer : List Char) (stale : Locals) : Option Command :=
  let command := buffer.take 4
  if command = "CALL".toList then
    let words := scanAfter "CALL".toList [none, none] buffer
    some (.call (assigned words 0 stale.source)
      (assigned words 1 stale.destination))
  else if command = "CAR ".toList then
    let words := scanAfter "CAR".toList [none, none, none] buffer
    some (.car (assigned words 0 stale.name) (assigned words 1 stale.lowestFloor)
      (assigned words 2 stale.highestFloor))
  else if command = "STAT".toList then
    let words := scanAfter "STATUS".toList [some 7, some 3, some 3] buffer
    some (.status (assigned words 0 stale.status)
      (assigned words 1 stale.currentFloor)
      (assigned words 2 stale.destinationFloor))
  else none

/-- What the reads from a readable socket bring: nothing after all, the end of
the connection, an error, or a length with as much of the body as there is. -/
inductive Arrival where
  | again
  | hangUp
  | failed
  | frame (length : Nat) (body : List UInt8)
deriving DecidableEq, Repr

/-- `select` returns: somebody connects, or a client's socket is readable.  The
outcomes are those of the `send` calls a command leads to. -/
inductive SocketEvent where
  | accepted (socket : Int)
  | readable (socket : Int) (arrival : Arrival) (stale : Locals)
      (outcome : CallOutcome)
deriving DecidableEq, Repr

structure LoopState where
  registry : ControllerState
  buffer : Block 1024
deriving DecidableEq, Repr

/-- No car, no client, and the buffer of a zeroed global. -/
def startController : LoopState where
  registry := ⟨[], []⟩
  buffer := .zero 1024

/-- The order that a call brings about, in the buffer on its way out. -/
def callOrder (cars : List ConnectedCar) (sourceFloor destFloor : Int)
    (allocated : Bool) : Option (CString 4) :=
  match bestCar cars sourceFloor destFloor with
  | none => none
  | some (_, car) =>
      let (queued, added) := addToCarQueue allocated car sourceFloor destFloor
      if added ∧ queued.destinationfloor = queued.currentfloor ∧
          getNextDestination queued ≠ -1 then
        some (floorToString (getNextDestination queued))
      else none

def orderSocket (cars : List ConnectedCar) (sourceFloor destFloor : Int) : Int :=
  match bestCar cars sourceFloor destFloor with
  | none => -1
  | some (_, car) => controllerGetSocketByName cars car.name

/-- Nothing can be sent on a socket that has been closed. -/
def sendable (state : ControllerState) (socket : Int)
    (source destination : CString 4) (outcome : CallOutcome) : CallOutcome :=
  let ordered := outcome.orderSent && decide (orderSocket state.cars
    (stringToFloor source) (stringToFloor destination) ∈ state.masterSet)
  let handled := (callStep state socket source destination
    ⟨outcome.allocated, ordered, true⟩).1
  ⟨outcome.allocated, ordered,
    outcome.replySent && decide (socket ∈ handled.masterSet)⟩

/-- The orders that the loop over the sender's name puts into the buffer. -/
def statusOrders (name : CString 50) :
    List ConnectedCar → Bool → List (CString 4)
  | [], _ => []
  | car :: rest, sends =>
      if car.name = name then
        if doorsClosed car then
          let after := (removeFromCarQueue car).1
          if getNextDestination after ≠ -1 then
            floorToString (getNextDestination after) ::
              (if sends then [] else statusOrders name rest false)
          else []
        else []
      else statusOrders name rest sends

/-- The buffer after an input has been handled: what is sent is put together in
it. -/
def bufferAfter (state : LoopState) : ControllerInput → Block 1024
  | .call _ source destination outcome =>
      let sourceFloor := stringToFloor source
      let destFloor := stringToFloor destination
      let ordered :=
        match callOrder state.registry.cars sourceFloor destFloor
          outcome.allocated with
        | some label => state.buffer.print (ControllerMessage.floor label).text
        | none => state.buffer
      match (handleElevatorCall state.registry sourceFloor destFloor
        outcome).2.1 with
      | some selectedCar => ordered.print (ControllerMessage.car selectedCar).text
      -- `strncpy` fills the rest of the buffer with zeros
      | none => (Block.zero 1024).print ControllerMessage.unavailable.text
  | .status socket statusStr currentFloor destinationFloor sends =>
      match controllerGetNameBySocket state.registry.cars socket with
      | none => state.buffer
      | some name =>
          let cars := controllerSet state.registry.cars name 3 statusStr.chars
          let cars := controllerSet cars name 4 currentFloor.chars
          let cars := controllerSet cars name 5 destinationFloor.chars
          (statusOrders name cars sends).foldl
            (fun buffer label =>
              buffer.print (ControllerMessage.floor label).text)
            state.buffer
  | _ => state.buffer

def Command.input (state : ControllerState) (socket : Int) (stale : Locals)
    (outcome : CallOutcome) : Command → ControllerInput
  | .call source destination =>
      .call socket source destination
        (sendable state socket source destination outcome)
  | .car name lowestFloor highestFloor =>
      .car socket name lowestFloor highestFloor stale.fresh
  | .status statusStr currentFloor destinationFloor =>
      .status socket statusStr currentFloor destinationFloor
        (outcome.orderSent && decide (socket ∈ state.masterSet))

def execute (state : LoopState) (socket : Int) (stale : Locals)
    (outcome : CallOutcome) (command : Command) :
    LoopState × List ControllerEvent :=
  let input := command.input state.registry socket stale outcome
  ({ registry := (controllerStep state.registry input).1
     buffer := bufferAfter state input },
    (controllerStep state.registry input).2)

/-- A frame is read.  Neither an empty frame nor a body that cannot be read ends
the handling: the socket is closed, and the buffer is looked at all the same. -/
def receive (state : LoopState) (socket : Int) (length : Nat)
    (body : List UInt8) : LoopState :=
  let registry := if length = 0 then state.registry.drop socket
    else state.registry
  let registry := if body.take length = [] then registry.drop socket
    else registry
  { registry := registry
    buffer := state.buffer.readBody length body }

def handleFrame (state : LoopState) (socket : Int) (length : Nat)
    (body : List UInt8) (stale : Locals) (outcome : CallOutcome) :
    LoopState × List ControllerEvent :=
  let received := receive state socket length body
  match parseCommand received.buffer.text stale with
  | none => (received, [])
  | some command => execute received socket stale outcome command

/-- One event.  A descriptor that `accept` returns is not in use, and a socket
that has been closed brings nothing more. -/
def loopStep (state : LoopState) : SocketEvent → LoopState × List ControllerEvent
  | .accepted socket =>
      if socket < 0 ∨ socket ∈ state.registry.masterSet then (state, [])
      else
        ({ state with
          registry := (controllerStep state.registry (.connection socket)).1 }, [])
  | .readable socket arrival stale outcome =>
      if socket ∉ state.registry.masterSet then (state, [])
      else
        match arrival with
        | .again => (state, [])
        | .hangUp =>
            ({ state with
              registry := (controllerStep state.registry (.hangUp socket)).1 }, [])
        | .failed => ({ state with registry := state.registry.drop socket }, [])
        | .frame length body =>
            handleFrame state socket length body stale outcome

def loopNext (state : LoopState) (event : SocketEvent) : LoopState :=
  (loopStep state event).1

@[simp] theorem receive_cars (state : LoopState) (socket : Int) (length : Nat)
    (body : List UInt8) :
    (receive state socket length body).registry.cars = state.registry.cars := by
  simp only [receive]
  split_ifs <;> rfl

theorem receive_registry (state : LoopState) (socket : Int) (length : Nat)
    (body : List UInt8) :
    (receive state socket length body).registry =
      if body.take length = [] then state.registry.drop socket
      else state.registry := by
  simp only [receive]
  by_cases hlength : length = 0
  · simp [hlength, ControllerState.drop]
  · simp only [if_neg hlength]

/-- A frame of which something has come is handled as the command in it. -/
theorem loopStep_command {state : LoopState} {socket : Int} {length : Nat}
    {body : List UInt8} {stale : Locals} {command : Command}
    (hopen : socket ∈ state.registry.masterSet) (hread : body.take length ≠ [])
    (hcommand : parseCommand (state.buffer.readBody length body).text stale =
      some command) (outcome : CallOutcome) :
    (loopStep state (.readable socket (.frame length body) stale outcome)).1.registry =
      (controllerStep state.registry
        (command.input state.registry socket stale outcome)).1 ∧
    (loopStep state (.readable socket (.frame length body) stale outcome)).2 =
      (controllerStep state.registry
        (command.input state.registry socket stale outcome)).2 := by
  have hregistry := receive_registry state socket length body
  rw [if_neg hread] at hregistry
  have hparsed : parseCommand (receive state socket length body).buffer.text stale =
      some command := hcommand
  simp only [loopStep, if_neg (not_not.mpr hopen), handleFrame, hparsed, execute,
    hregistry, and_self]

/-- What every input leaves alone about the records, every event does. -/
theorem loopNext_cars {P : List ConnectedCar → Prop}
    (hstep : ∀ registry input, P registry.cars →
      P (controllerStep registry input).1.cars)
    (state : LoopState) (event : SocketEvent) (hcars : P state.registry.cars) :
    P (loopNext state event).registry.cars := by
  cases event with
  | accepted socket =>
      simp only [loopNext, loopStep]
      split
      · exact hcars
      · exact hstep _ _ hcars
  | readable socket arrival stale outcome =>
      simp only [loopNext, loopStep]
      split
      · exact hcars
      · cases arrival with
        | again => exact hcars
        | hangUp => exact hstep _ _ hcars
        | failed => exact hcars
        | frame length body =>
            have hreceived : P (receive state socket length body).registry.cars :=
              (receive_cars state socket length body).symm ▸ hcars
            simp only [handleFrame]
            split
            · exact hreceived
            · exact hstep _ _ hreceived

def blankLocals : Locals where
  source := .store 4 []
  destination := .store 4 []
  name := .store 50 []
  lowestFloor := .store 4 []
  highestFloor := .store 4 []
  status := .store 8 []
  currentFloor := .store 4 []
  destinationFloor := .store 4 []
  fresh := idleCar

/-- A frame with this text on a socket, and nothing that goes wrong. -/
def textFrame (socket : Int) (text : String) : SocketEvent :=
  .readable socket (.frame text.length (bytesOf text.toList)) blankLocals
    ⟨true, true, true⟩

/-- The controller after Alpha has registered on socket 4, with a call pad
connected on socket 5. -/
def registeredAlpha : LoopState :=
  run loopNext startController
    [.accepted 4, .accepted 5, textFrame 4 "CAR Alpha 1 10 \n"]

end Elevator
