/-
The car's TCP thread: it connects, registers, announces the modes, reports the
status and takes orders.  A step is what the thread does between two points
where other processes can get at the shared segment; it records its locking,
its accesses to the segment and the messages that go out.
-/
import Elevator.Car

namespace Elevator

open CText Transition

inductive CarMessage where
  | car (carname : CString 256) (lowestFloor highestFloor : CString 4)
  | status (statusStr : CString 8) (currentFloor destinationFloor : CString 4)
  | emergency
  | individualService
deriving DecidableEq, Repr

/-- The text of a message, as `snprintf` puts it together. -/
def CarMessage.text : CarMessage → List Char
  | .car carname lowestFloor highestFloor =>
      "CAR ".toList ++ carname.chars ++ " ".toList ++ lowestFloor.chars ++
        " ".toList ++ highestFloor.chars ++ " \n".toList
  | .status statusStr currentFloor destinationFloor =>
      "STATUS ".toList ++ statusStr.chars ++ " ".toList ++ currentFloor.chars ++
        " ".toList ++ destinationFloor.chars ++ " \n".toList
  | .emergency => "EMERGENCY".toList
  | .individualService => "INDIVIDUAL SERVICE".toList

/-- Where the thread stands.  `report` is the status report without the mutex,
which follows a `pthread_cond_timedwait` that failed. -/
inductive TcpPc where
  | connect
  | register
  | poll
  | wait
  | report
deriving DecidableEq, Repr

/-- The car with its TCP thread: the thread's position, its flag `connected`,
and whether `clientsockfd` is an open socket. -/
structure TcpState where
  car : CarState
  carname : CString 256
  pc : TcpPc
  connected : Bool
  socketOpen : Bool
deriving DecidableEq, Repr

/-- How `pthread_cond_timedwait` returns. -/
inductive Wake where
  | signalled
  | timedOut
  | failed
deriving DecidableEq, Repr

/-- What the two `recv` calls find: nothing yet, a connection that cannot be
used any more, or a text, with its operand if it is a `FLOOR` message. -/
inductive Reception where
  | nothing
  | broken
  | text (floor : Option (CString 4))
deriving DecidableEq, Repr

/-- The outcomes of the system calls in one step: whether both `send` calls of
a message succeed, how the wait ends, whether both `fcntl` calls succeed, and
what is received. -/
structure TcpOutcome where
  sends : CarMessage → Bool
  wake : Wake
  nonblocking : Bool
  reception : Reception

/-- What a step leaves on record.  `changed` shows the two modes as another
process has left them. -/
inductive TcpEvent where
  | lock
  | unlock
  | access
  | sent (message : CarMessage)
  | closed
  | changed (emergencyMode individualServiceMode : UInt8)
deriving DecidableEq, Repr

/-- A message goes out over an open socket if its `send` calls succeed. -/
def TcpState.transmits (state : TcpState) (outcome : TcpOutcome)
    (message : CarMessage) : Bool :=
  state.socketOpen && outcome.sends message

def TcpState.carMessage (state : TcpState) : CarMessage :=
  .car state.carname state.car.lowestFloor state.car.highestFloor

def TcpState.statusMessage (state : TcpState) : CarMessage :=
  .status state.car.data.status state.car.data.currentFloor
    state.car.data.destinationFloor

/-- `connected = 0`, and the socket is closed. -/
def TcpState.hangUp (state : TcpState) : TcpState :=
  { state with connected := false, socketOpen := false, pc := .connect }

def TcpState.again (state : TcpState) : TcpState :=
  { state with pc := if state.connected then .poll else .connect }

/-- The locked section after `connect_to_server`.  A car registers unless both
modes are 1. -/
def registerStep (state : TcpState) (outcome : TcpOutcome) :
    TcpState × List TcpEvent :=
  if state.car.data.emergencyMode ≠ 1 ∨
      state.car.data.individualServiceMode ≠ 1 then
    if state.transmits outcome state.carMessage then
      if state.transmits outcome state.statusMessage then
        ({ state with connected := true, pc := .poll },
          [.lock, .access, .sent state.carMessage, .access,
            .sent state.statusMessage, .unlock])
      else
        (state.hangUp,
          [.lock, .access, .sent state.carMessage, .access, .unlock, .closed])
    else (state.hangUp, [.lock, .access, .unlock, .closed])
  else (state.again, [.lock, .access, .unlock])

/-- An order, or another text, has been received. -/
def takeOrder (car : CarState) : Option (CString 4) → CarState
  | some label => receiveFloor car label
  | none => { car with shmSend := 1 }

/-- The rest of the inner loop, from the status report on. -/
def reportStatus (state : TcpState) (outcome : TcpOutcome) :
    TcpState × List TcpEvent :=
  if state.transmits outcome state.statusMessage then
    if outcome.nonblocking then
      match outcome.reception with
      | .nothing =>
          (state.again, [.access, .sent state.statusMessage, .unlock])
      | .broken =>
          (state.hangUp,
            [.access, .sent state.statusMessage, .unlock, .closed])
      | .text floor =>
          ({ state with car := takeOrder state.car floor }.again,
            [.access, .sent state.statusMessage, .access, .unlock])
    else
      (state.hangUp, [.access, .sent state.statusMessage, .unlock, .closed])
  else (state.hangUp, [.access, .unlock, .closed])

/-- The wait for `shm_send`, entered with the mutex held. -/
def waitForSend (state : TcpState) (outcome : TcpOutcome) :
    TcpState × List TcpEvent :=
  if state.car.shmSend ≠ 1 then ({ state with pc := .wait }, [.unlock])
  else reportStatus state outcome

/-- A mode is announced and the socket closed; the loop body goes on. -/
def announce (state : TcpState) (outcome : TcpOutcome) (message : CarMessage)
    (next : TcpState → TcpState × List TcpEvent) :
    TcpState × List TcpEvent :=
  if state.transmits outcome message then
    let after := next { state with connected := false, socketOpen := false }
    (after.1, .access :: .sent message :: .closed :: after.2)
  else (state.hangUp, [.access, .unlock, .closed])

/-- The check for `individual_service_mode`, and what follows it. -/
def checkService (state : TcpState) (outcome : TcpOutcome) :
    TcpState × List TcpEvent :=
  if state.car.data.individualServiceMode = 1 then
    announce state outcome .individualService (waitForSend · outcome)
  else (waitForSend state outcome).map id (.access :: ·)

/-- The head of the inner loop's body: both modes are checked in turn, also
when the first one has already closed the socket. -/
def pollStep (state : TcpState) (outcome : TcpOutcome) :
    TcpState × List TcpEvent :=
  if state.car.data.emergencyMode = 1 then
    (announce state outcome .emergency (checkService · outcome)).map id (.lock :: ·)
  else (checkService state outcome).map id ([.lock, .access] ++ ·)

/-- `pthread_cond_timedwait` returns. -/
def waitStep (state : TcpState) (outcome : TcpOutcome) :
    TcpState × List TcpEvent :=
  match outcome.wake with
  | .signalled => (waitForSend state outcome).map id (.lock :: ·)
  | .timedOut => (reportStatus state outcome).map id (.lock :: ·)
  | .failed => ({ state with pc := .report }, [.lock, .unlock])

def tcpStep (state : TcpState) (outcome : TcpOutcome) :
    TcpState × List TcpEvent :=
  match state.pc with
  | .connect => ({ state with socketOpen := true, pc := .register }, [])
  | .register => registerStep state outcome
  | .poll => pollStep state outcome
  | .wait => waitStep state outcome
  | .report => reportStatus state outcome

inductive TcpAction where
  | tcp (outcome : TcpOutcome)
  | process
  | doorcontrol
  | external (edit : CarSharedData → CarSharedData)

/-- One step of the car with its TCP thread, and what it leaves on record. -/
def tcpCarStep (state : TcpState) :
    TcpAction → TcpState × List TcpEvent
  | .tcp outcome => tcpStep state outcome
  | .process => ({ state with car := processStep state.car }, [])
  | .doorcontrol => ({ state with car := doorcontrolStep state.car }, [])
  | .external edit =>
      ({ state with car := { state.car with data := edit state.car.data } },
        [.changed (edit state.car.data).emergencyMode
          (edit state.car.data).individualServiceMode])

def startTcp (carname : CString 256) (lowest highest : CString 4)
    (readFlag : Int) : TcpState where
  car := startCar lowest highest readFlag
  carname := carname
  pc := .connect
  connected := false
  socketOpen := false

end Elevator
