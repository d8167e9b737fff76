/-
Where a status report ends up.  The handler finds its sender by socket and
updates by name; whether that is the same record depends on all that has ever
been registered.
-/
import Elevator.DoorCount
import Elevator.StatusWire

namespace Elevator

open CText Framing Transition

theorem doorsClosed_registeredCar (socket : Int) (name : CString 50)
    (lowestFloor highestFloor : CString 4) (fresh : ConnectedCar) :
    doorsClosed (registeredCar socket name lowestFloor highestFloor fresh) =
      false := by
  rw [Bool.eq_false_iff]
  intro hclosed
  simp only [doorsClosed, Bool.and_eq_true, decide_eq_true_eq] at hclosed
  have hidle : CString.store 8 "IDLE".toList = statusNames .Closing := hclosed.1
  exact absurd hidle (by decide)

/-- No input leaves a record behind whose doors have just closed. -/
theorem NoneClosed.step (registry : ControllerState) (input : ControllerInput)
    (hnone : NoneClosed registry.cars) :
    NoneClosed (controllerStep registry input).1.cars := by
  cases input with
  | connection socket => exact hnone
  | call socket source destination outcome =>
      have hiff (cars : List ConnectedCar) : NoneClosed cars ↔
          ∀ closed ∈ cars.map doorsClosed, closed = false := by
        simp [NoneClosed]
      simp only [controllerStep]
      rw [hiff, callStep_map _ _ _ _ _ doorsClosed fun _ _ _ => rfl, ← hiff]
      exact hnone
  | car socket name lowestFloor highestFloor fresh =>
      intro car hcar
      rcases List.mem_append.mp hcar with h | h
      · exact hnone car h
      · rw [List.mem_singleton.mp h]
        exact doorsClosed_registeredCar _ _ _ _ _
  | status socket statusStr currentFloor destinationFloor sends =>
      cases hname : controllerGetNameBySocket registry.cars socket with
      | none =>
          simp only [controllerStep]
          rw [statusStep_none hname]
          exact hnone
      | some name =>
          simp only [controllerStep]
          rw [statusStep_cars_eq _ _ _ _ hnone hname]
          intro car hcar
          rcases mem_updateNamed hcar with h | ⟨before, -, rfl⟩
          · exact hnone car h
          · exact (recordAfter_upToDate statusStr currentFloor destinationFloor
              before).doorsClosed
  | hangUp socket =>
      intro car hcar
      simp only [controllerStep, hangUpStep, ControllerState.drop] at hcar
      split at hcar
      · exact hnone car (List.mem_of_mem_eraseP hcar)
      · exact hnone car hcar

def controllerAfter (events : List SocketEvent) : LoopState :=
  run loopNext startController events

theorem noneClosed_controllerAfter (events : List SocketEvent) :
    NoneClosed (controllerAfter events).registry.cars := by
  have hstart : NoneClosed startController.registry.cars := by
    intro car hcar
    cases hcar
  exact run_of_invariant (fun state : LoopState => NoneClosed state.registry.cars)
    (loopNext_cars NoneClosed.step) hstart events

/-- The record shows the three values of a report. -/
def Shows (statusStr : CString 8) (currentFloor destinationFloor : CString 4)
    (car : ConnectedCar) : Prop :=
  car.status = statusStr ∧ car.currentfloor = currentFloor ∧
    car.destinationfloor = destinationFloor

instance (statusStr : CString 8) (currentFloor destinationFloor : CString 4)
    (car : ConnectedCar) :
    Decidable (Shows statusStr currentFloor destinationFloor car) :=
  inferInstanceAs (Decidable (_ ∧ _ ∧ _))

/-- A report on a socket has been routed to its sender: a record that has
changed is of this socket and shows the report, and if a car is registered on
the socket, a record of the socket shows it. -/
structure Routed (socket : Int) (statusStr : CString 8)
    (currentFloor destinationFloor : CString 4)
    (before after : List ConnectedCar) : Prop where
  only : ∀ (j : Nat) (old new : ConnectedCar), before[j]? = some old →
    after[j]? = some new → new ≠ old →
      old.connectionsocket = socket ∧
        Shows statusStr currentFloor destinationFloor new
  shown : (∃ car ∈ before, car.connectionsocket = socket) →
    ∃ car ∈ after, car.connectionsocket = socket ∧
      Shows statusStr currentFloor destinationFloor car

/-- The first record with the sender's name is one of the sender's socket, or
the report is old news both to it and to a record of the socket. -/
def SenderFirst (socket : Int) (statusStr : CString 8)
    (currentFloor destinationFloor : CString 4) (cars : List ConnectedCar) :
    Prop :=
  ∀ name ∈ controllerGetNameBySocket cars socket,
    ∀ first ∈ firstNamed cars name,
      first.connectionsocket = socket ∨
        UpToDate statusStr currentFloor destinationFloor first ∧
          ∃ car ∈ cars, car.connectionsocket = socket ∧
            Shows statusStr currentFloor destinationFloor car

instance (socket : Int) (statusStr : CString 8)
    (currentFloor destinationFloor : CString 4) (cars : List ConnectedCar) :
    Decidable (SenderFirst socket statusStr currentFloor destinationFloor cars) :=
  inferInstanceAs (Decidable (∀ name ∈ controllerGetNameBySocket cars socket,
    ∀ first ∈ firstNamed cars name, _ ∨ _))

section Report

variable {registry : ControllerState} {socket : Int} {statusStr : CString 8}
  {currentFloor destinationFloor : CString 4} {sends : Bool}

theorem routed_of_senderFirst (hnone : NoneClosed registry.cars)
    (hsender : SenderFirst socket statusStr currentFloor destinationFloor
      registry.cars) :
    Routed socket statusStr currentFloor destinationFloor registry.cars
      (statusStep registry socket statusStr currentFloor destinationFloor
        sends).1.cars := by
  cases hname : controllerGetNameBySocket registry.cars socket with
  | none =>
      rw [statusStep_none hname]
      constructor
      · intro j old new hold hnew hne
        exact absurd (Option.some.inj (hnew.symm.trans hold)) hne
      · rintro ⟨car, hcar, hsocket⟩
        exact absurd hsocket (controllerGetNameBySocket_eq_none hname car hcar)
  | some name =>
      obtain ⟨sender, hsender', hsocket, hsenderName⟩ :=
        controllerGetNameBySocket_eq_some hname
      obtain ⟨first, hfirst⟩ := exists_firstNamed hsender' hsenderName
      rcases hsender name hname first hfirst with hown | ⟨hsame, car, hcar, hshows⟩
      · rw [statusStep_cars_eq _ _ _ _ hnone hname]
        constructor
        · intro j old new hold hnew hne
          obtain ⟨hold', hnew'⟩ :=
            (getElem?_updateNamed hold hnew).resolve_left hne
          obtain rfl : first = old := Option.some.inj (hfirst.symm.trans hold')
          have hdate := recordAfter_upToDate statusStr currentFloor
            destinationFloor first
          rw [hnew']
          exact ⟨hown, hdate.1, hdate.2.1, hdate.2.2.1⟩
        · intro _
          obtain ⟨j, -, hafter⟩ := exists_updateNamed hfirst
            (recordAfter · statusStr currentFloor destinationFloor)
          have hdate := recordAfter_upToDate statusStr currentFloor
            destinationFloor first
          refine ⟨_, List.mem_of_getElem? hafter, ?_, hdate.1, hdate.2.1,
            hdate.2.2.1⟩
          exact (recordAfter_frame first statusStr currentFloor
            destinationFloor).1.trans hown
      · rw [statusStep_eq_self _ _ _ _ hname (by
          intro other hother
          obtain rfl : first = other := Option.some.inj (hfirst.symm.trans hother)
          exact hsame)]
        constructor
        · intro j old new hold hnew hne
          exact absurd (Option.some.inj (hnew.symm.trans hold)) hne
        · exact fun _ => ⟨car, hcar, hshows⟩

theorem senderFirst_of_routed (hnone : NoneClosed registry.cars)
    (hrouted : Routed socket statusStr currentFloor destinationFloor
      registry.cars (statusStep registry socket statusStr currentFloor
        destinationFloor sends).1.cars) :
    SenderFirst socket statusStr currentFloor destinationFloor
      registry.cars := by
  intro name hname first hfirst
  by_cases hown : first.connectionsocket = socket
  · exact Or.inl hown
  · right
    obtain ⟨sender, hsender, hsocket, -⟩ := controllerGetNameBySocket_eq_some hname
    have hcars := statusStep_cars_eq statusStr currentFloor destinationFloor
      sends hnone hname
    obtain ⟨j, hbefore, hafter⟩ := exists_updateNamed hfirst
      (recordAfter · statusStr currentFloor destinationFloor)
    have hsame : recordAfter first statusStr currentFloor destinationFloor =
        first := by
      by_contra hne
      rw [← hcars] at hafter
      exact hown (hrouted.only j _ _ hbefore hafter hne).1
    have hdate : UpToDate statusStr currentFloor destinationFloor first :=
      hsame ▸ recordAfter_upToDate statusStr currentFloor destinationFloor first
    obtain ⟨car, hcar, hshows⟩ := hrouted.shown ⟨sender, hsender, hsocket⟩
    rw [statusStep_eq_self _ _ _ _ hname (by
      intro other hother
      obtain rfl : first = other := Option.some.inj (hfirst.symm.trans hother)
      exact hdate)] at hcar
    exact ⟨hdate, car, hcar, hshows⟩

end Report

/-- The controller after a complete report has come in on a socket. -/
def afterReport (state : LoopState) (socket : Int) (statusStr : CString 8)
    (currentFloor destinationFloor : CString 4) (stale : Locals)
    (outcome : CallOutcome) : LoopState :=
  let text := (CarMessage.status statusStr currentFloor destinationFloor).text
  (handleFrame state socket text.length (bytesOf text) stale outcome).1

theorem receive_report (state : LoopState) (socket : Int)
    (statusStr : CString 8) (currentFloor destinationFloor : CString 4) :
    let text := (CarMessage.status statusStr currentFloor destinationFloor).text
    (receive state socket text.length (bytesOf text)).registry =
      state.registry := by
  intro text
  have hpos : 0 < text.length :=
    (length_status_text statusStr currentFloor destinationFloor).1
  have hbody := take_bytesOf_ne_nil hpos
  rw [receive_registry, if_neg hbody]

theorem afterReport_registry (state : LoopState) (socket : Int)
    {statusStr : CString 8} {currentFloor destinationFloor : CString 4}
    (hstatus : IsOperand statusStr.chars)
    (hcurrent : IsOperand currentFloor.chars)
    (hdestination : IsOperand destinationFloor.chars) (stale : Locals)
    (outcome : CallOutcome) :
    (afterReport state socket statusStr currentFloor destinationFloor stale
        outcome).registry =
      (statusStep state.registry socket statusStr currentFloor destinationFloor
        (outcome.orderSent &&
          decide (socket ∈ state.registry.masterSet))).1 := by
  have hreceived := receive_report state socket statusStr currentFloor
    destinationFloor
  have hcommand : parseCommand (receive state socket _ _).buffer.text stale =
      some (.status statusStr currentFloor destinationFloor) :=
    parseCommand_readBody_status hstatus hcurrent hdestination state.buffer stale
  simp only [afterReport, handleFrame, hcommand, execute, Command.input,
    controllerStep, hreceived]

/-- In every state the controller can reach, a report is routed to its sender
exactly when the first record with the sender's name is one of the sender's
socket, unless it is old news to both. -/
theorem routed_iff_senderFirst (events : List SocketEvent) (socket : Int)
    {statusStr : CString 8} {currentFloor destinationFloor : CString 4}
    (hstatus : IsOperand statusStr.chars)
    (hcurrent : IsOperand currentFloor.chars)
    (hdestination : IsOperand destinationFloor.chars) (stale : Locals)
    (outcome : CallOutcome) :
    Routed socket statusStr currentFloor destinationFloor
        (controllerAfter events).registry.cars
        (afterReport (controllerAfter events) socket statusStr currentFloor
          destinationFloor stale outcome).registry.cars ↔
      SenderFirst socket statusStr currentFloor destinationFloor
        (controllerAfter events).registry.cars := by
  have hnone := noneClosed_controllerAfter events
  rw [afterReport_registry (controllerAfter events) socket hstatus hcurrent
    hdestination]
  exact ⟨senderFirst_of_routed hnone, routed_of_senderFirst hnone⟩

def alphaRegisters : List SocketEvent :=
  [.accepted 4, textFrame 4 "CAR Alpha 1 10 \n"]

theorem routed_first_report :
    Routed 4 (statusNames .Open) (floorToString 3) (floorToString (-12))
      (controllerAfter alphaRegisters).registry.cars
      (afterReport (controllerAfter alphaRegisters) 4 (statusNames .Open)
        (floorToString 3) (floorToString (-12)) blankLocals
        ⟨true, true, true⟩).registry.cars :=
  (routed_iff_senderFirst alphaRegisters 4 (statusNames_isOperand .Open)
    (isLabel_floorToString (by decide)).isOperand
    (isLabel_floorToString (by decide)).isOperand blankLocals
    ⟨true, true, true⟩).mpr (by decide)

/-- Its connection breaks with an error, which leaves the record, and it
registers again on socket 5. -/
def alphaRegistersAgain : List SocketEvent :=
  alphaRegisters ++ [.readable 4 .failed blankLocals ⟨true, true, true⟩,
    .accepted 5, textFrame 5 "CAR Alpha 1 10 \n"]

/-- The report on socket 5 goes into the record of socket 4. -/
theorem report_reaches_stale_record :
    ¬ Routed 5 (statusNames .Open) (floorToString 3) (floorToString 6)
      (controllerAfter alphaRegistersAgain).registry.cars
      (afterReport (controllerAfter alphaRegistersAgain) 5 (statusNames .Open)
        (floorToString 3) (floorToString 6) blankLocals
        ⟨true, true, true⟩).registry.cars := by
  intro hrouted
  obtain ⟨hsocket, -⟩ := hrouted.only 0 _ _ rfl rfl (by decide)
  exact absurd hsocket (by decide)

end Elevator
