/-
What is left of the handler's local record.  A registration fills in some of its
members and copies all of them into the registry; the others are read later, when
the scan compares cars and a request enters a queue.
-/
import Elevator.NamedRecord
import Elevator.Selection

namespace Elevator

open CText Transition

/-- The leftover has no stops and no direction. -/
structure Cleared (fresh : ConnectedCar) : Prop where
  queue : fresh.queue = []
  direction : fresh.currentDirection = .idle

/-- The registration has appended a record that starts empty, with the name and
the floors that were announced. -/
def StartsEmpty (before after : List ConnectedCar) (name : CString 50)
    (lowestFloor highestFloor : CString 4) : Prop :=
  ∃ car, after = before ++ [car] ∧ car.queue = [] ∧
    car.currentDirection = .idle ∧ car.name = name ∧
    car.lowestFloor = lowestFloor ∧ car.highestFloor = highestFloor

def IsTraffic : ControllerInput → Prop
  | .call .. => True
  | .status .. => True
  | _ => False

/-- The message does not concern a car that has registered on this socket for
these floors: a call outside the floors or without memory, or another sender's
report. -/
def PassesBy (carSocket : Int) (lowestFloor highestFloor : CString 4) :
    ControllerInput → Prop
  | .call _ source destination outcome =>
      outcome.allocated = false ∨
        ∃ floor ∈ [stringToFloor source, stringToFloor destination],
          ¬ (stringToFloor lowestFloor ≤ floor ∧
            floor ≤ stringToFloor highestFloor)
  | .status sender _ _ _ _ => sender ≠ carSocket
  | _ => False

instance : (input : ControllerInput) → Decidable (IsTraffic input)
  | .call .. => isTrue trivial
  | .status .. => isTrue trivial
  | .connection _ => isFalse id
  | .car .. => isFalse id
  | .hangUp _ => isFalse id

instance (carSocket : Int) (lowestFloor highestFloor : CString 4) :
    (input : ControllerInput) →
      Decidable (PassesBy carSocket lowestFloor highestFloor input)
  | .call .. => inferInstanceAs (Decidable (_ ∨ ∃ floor ∈ _, _))
  | .status sender _ _ _ _ => inferInstanceAs (Decidable (sender ≠ carSocket))
  | .connection _ => isFalse id
  | .car .. => isFalse id
  | .hangUp _ => isFalse id

/-- The handlers compare `elevator_status` with `Closing` and do nothing else
with it. -/
def ConnectedCar.seen (car : ConnectedCar) : ConnectedCar :=
  { car with elevatorStatus := car.elevatorStatus.filter (· = .Closing) }

def ControllerState.seen (state : ControllerState) : ControllerState :=
  { state with cars := state.cars.map ConnectedCar.seen }

section Seen

theorem map_seen_identity (cars : List ConnectedCar) :
    (cars.map ConnectedCar.seen).map ConnectedCar.identity =
      cars.map ConnectedCar.identity := by
  rw [List.map_map]
  rfl

theorem seen_closing (car : ConnectedCar) :
    car.seen.elevatorStatus = some .Closing ↔
      car.elevatorStatus = some .Closing := by
  simp [ConnectedCar.seen]

theorem insertsAtCurrentFloor_seen (car : ConnectedCar) (sourceFloor : Int)
    (direction : Direction) :
    insertsAtCurrentFloor car.seen sourceFloor direction =
      insertsAtCurrentFloor car sourceFloor direction := by
  have hclosing := seen_closing car
  simp only [insertsAtCurrentFloor, ne_eq, hclosing]
  rfl

theorem addToCarQueue_seen (allocated : Bool) (car : ConnectedCar)
    (sourceFloor destFloor : Int) :
    addToCarQueue allocated car.seen sourceFloor destFloor =
      ((addToCarQueue allocated car sourceFloor destFloor).1.seen,
        (addToCarQueue allocated car sourceFloor destFloor).2) := by
  have hqueue : car.seen.queue = car.queue := rfl
  have hdirection : car.seen.currentDirection = car.currentDirection := rfl
  simp only [addToCarQueue, insertsAtCurrentFloor_seen, hqueue, hdirection]
  split
  · rfl
  · split
    · rfl
    · split
      · rfl
      · split <;> rfl

theorem setField_seen (opCode : Nat) (newValue : List Char) (car : ConnectedCar) :
    setField opCode newValue car.seen = (setField opCode newValue car).seen := by
  unfold setField
  split <;> rfl

theorem controllerSet_seen (cars : List ConnectedCar) (name : CString 50)
    (opCode : Nat) (newValue : List Char) :
    controllerSet (cars.map ConnectedCar.seen) name opCode newValue =
      (controllerSet cars name opCode newValue).map ConnectedCar.seen := by
  induction cars with
  | nil => rfl
  | cons car rest ih =>
      have hname : car.seen.name = car.name := rfl
      simp only [List.map_cons, controllerSet, hname, ih, setField_seen]
      split <;> rfl

theorem removeFromCarQueue_seen (car : ConnectedCar) :
    removeFromCarQueue car.seen =
      ((removeFromCarQueue car).1.seen, (removeFromCarQueue car).2) := by
  have hqueue : car.seen.queue = car.queue := rfl
  simp only [removeFromCarQueue, hqueue]
  split <;> rfl

theorem statusLoop_seen (socket : Int) (name : CString 50) (reported : CString 4)
    (cars : List ConnectedCar) (j : Nat) (sends : Bool) :
    statusLoop socket name reported (cars.map ConnectedCar.seen) j sends =
      ((statusLoop socket name reported cars j sends).1.map ConnectedCar.seen,
        (statusLoop socket name reported cars j sends).2) := by
  induction cars generalizing j sends with
  | nil => rfl
  | cons car rest ih =>
      have hname : car.seen.name = car.name := rfl
      have hclosed : doorsClosed car.seen = doorsClosed car := rfl
      have hnext (other : ConnectedCar) :
          getNextDestination other.seen = getNextDestination other := rfl
      simp only [List.map_cons, statusLoop, hname, hclosed,
        removeFromCarQueue_seen, hnext, ih]
      split_ifs <;> rfl

theorem scanCars_seen (sourceFloor destFloor : Int) (cars : List ConnectedCar)
    (i : Nat) (minDistance : Int) (best : Option (Nat × ConnectedCar)) :
    scanCars sourceFloor destFloor (cars.map ConnectedCar.seen) i minDistance
        (best.map (Prod.map id ConnectedCar.seen)) =
      (scanCars sourceFloor destFloor cars i minDistance best).map
        (Prod.map id ConnectedCar.seen) := by
  induction cars generalizing i minDistance best with
  | nil => rfl
  | cons car rest ih =>
      have hserves : canServiceRequest car.seen sourceFloor destFloor =
          canServiceRequest car sourceFloor destFloor := rfl
      have hscore : distanceScore car.seen sourceFloor destFloor =
          distanceScore car sourceFloor destFloor := rfl
      simp only [List.map_cons, scanCars, hserves, hscore]
      split
      · exact ih (i + 1) _ (some (i, car))
      · exact ih (i + 1) _ best

theorem bestCar_seen (cars : List ConnectedCar) (sourceFloor destFloor : Int) :
    bestCar (cars.map ConnectedCar.seen) sourceFloor destFloor =
      (bestCar cars sourceFloor destFloor).map (Prod.map id ConnectedCar.seen) :=
  scanCars_seen sourceFloor destFloor cars 0 100 none

theorem controllerGetSocketByName_seen (cars : List ConnectedCar)
    (name : CString 50) :
    controllerGetSocketByName (cars.map ConnectedCar.seen) name =
      controllerGetSocketByName cars name := by
  rw [controllerGetSocketByName_eq, controllerGetSocketByName_eq,
    map_seen_identity]

theorem set_seen (state : ControllerState) (record : Nat) (car : ConnectedCar) :
    state.seen.cars.set record car.seen =
      (state.cars.set record car).map ConnectedCar.seen :=
  List.map_set.symm

theorem sendNextDestination_seen (state : ControllerState) (record : Nat)
    (car : ConnectedCar) (orderSent : Bool) :
    sendNextDestination state.seen record car.seen orderSent =
      ((sendNextDestination state record car orderSent).1.seen,
        (sendNextDestination state record car orderSent).2) := by
  have hset (destination : CString 4) :
      state.seen.cars.set record { car.seen with destinationfloor := destination } =
        (state.cars.set record { car with destinationfloor := destination }).map
          ConnectedCar.seen :=
    set_seen state record { car with destinationfloor := destination }
  by_cases hdue : car.destinationfloor = car.currentfloor ∧
      getNextDestination car ≠ -1
  · have hseen : car.seen.destinationfloor = car.seen.currentfloor ∧
        getNextDestination car.seen ≠ -1 := hdue
    have hnext : getNextDestination car.seen = getNextDestination car := rfl
    have hname : car.seen.name = car.name := rfl
    rw [sendNextDestination, if_pos hseen, sendNextDestination, if_pos hdue]
    simp only [hset, hnext, controllerGetSocketByName_seen]
    simp only [hname]
    split_ifs <;> rfl
  · have hseen : ¬ (car.seen.destinationfloor = car.seen.currentfloor ∧
        getNextDestination car.seen ≠ -1) := hdue
    simp only [sendNextDestination, if_neg hdue, if_neg hseen, set_seen]
    rfl

theorem handleElevatorCall_seen (state : ControllerState)
    (sourceFloor destFloor : Int) (outcome : CallOutcome) :
    handleElevatorCall state.seen sourceFloor destFloor outcome =
      ((handleElevatorCall state sourceFloor destFloor outcome).1.seen,
        (handleElevatorCall state sourceFloor destFloor outcome).2) := by
  have hbest := bestCar_seen state.cars sourceFloor destFloor
  have hcars : state.seen.cars = state.cars.map ConnectedCar.seen := rfl
  simp only [handleElevatorCall, hcars, hbest]
  cases bestCar state.cars sourceFloor destFloor with
  | none => rfl
  | some found =>
      obtain ⟨record, car⟩ := found
      simp only [Option.map_some, Prod.map, id, addToCarQueue_seen,
        sendNextDestination_seen]
      split_ifs <;> rfl

/-- On calls and reports the handlers see no more of a record than that. -/
theorem controllerStep_seen (state : ControllerState) {input : ControllerInput}
    (htraffic : IsTraffic input) :
    controllerStep state.seen input =
      ((controllerStep state input).1.seen, (controllerStep state input).2) := by
  cases input with
  | connection socket => exact htraffic.elim
  | car socket name lowestFloor highestFloor fresh => exact htraffic.elim
  | hangUp socket => exact htraffic.elim
  | call socket source destination outcome =>
      simp only [controllerStep, callStep, handleElevatorCall_seen]
      split_ifs <;> rfl
  | status socket statusStr currentFloor destinationFloor sends =>
      have hname : controllerGetNameBySocket state.seen.cars socket =
          controllerGetNameBySocket state.cars socket :=
        controllerGetNameBySocket_of_identity (map_seen_identity state.cars) socket
      have hcars : state.seen.cars = state.cars.map ConnectedCar.seen := rfl
      simp only [controllerStep, statusStep, hname]
      cases controllerGetNameBySocket state.cars socket with
      | none => rfl
      | some name =>
          simp only [hcars, controllerSet_seen, statusLoop_seen]
          split_ifs <;> rfl

end Seen

def ControllerState.push (state : ControllerState) (newCar : ConnectedCar) :
    ControllerState :=
  { state with cars := controllerPush state.cars newCar }

def Unclaimed (cars : List ConnectedCar) (car : ConnectedCar) : Prop :=
  ∀ other ∈ cars, other.name ≠ car.name ∧
    other.connectionsocket ≠ car.connectionsocket

theorem Unclaimed.of_identity {before after : List ConnectedCar}
    {car : ConnectedCar} (hfree : Unclaimed before car)
    (hmap : after.map ConnectedCar.identity = before.map ConnectedCar.identity) :
    Unclaimed after car := by
  intro other hother
  have hmem : other.identity ∈ before.map ConnectedCar.identity :=
    hmap ▸ List.mem_map_of_mem hother
  obtain ⟨old, hold, hsame⟩ := List.mem_map.mp hmem
  have hname : old.name = other.name := congrArg Prod.fst hsame
  have hsocket : old.connectionsocket = other.connectionsocket :=
    congrArg Prod.snd hsame
  rw [← hname, ← hsocket]
  exact hfree old hold

section Behind

variable {cars : List ConnectedCar} {car : ConnectedCar}

theorem controllerGetNameBySocket_push {socket : Int}
    (hsocket : socket ≠ car.connectionsocket) :
    controllerGetNameBySocket (controllerPush cars car) socket =
      controllerGetNameBySocket cars socket := by
  have hlast : [car].find? (fun other => other.connectionsocket = socket) = none := by
    simp [hsocket.symm]
  rw [controllerGetNameBySocket, controllerPush, List.find?_append, hlast,
    Option.or_none, controllerGetNameBySocket]

theorem controllerGetNameBySocket_push_self (hfree : Unclaimed cars car) :
    controllerGetNameBySocket (controllerPush cars car) car.connectionsocket =
      some car.name := by
  have hnone : cars.find? (fun other =>
      other.connectionsocket = car.connectionsocket) = none := by
    rw [List.find?_eq_none]
    intro other hother
    simpa using (hfree other hother).2
  rw [controllerGetNameBySocket, controllerPush, List.find?_append, hnone]
  simp

theorem controllerGetSocketByName_push {name : CString 50} (hname : name ≠ car.name) :
    controllerGetSocketByName (controllerPush cars car) name =
      controllerGetSocketByName cars name := by
  have hlast : [car].find? (fun other => other.name = name) = none := by
    simp [hname.symm]
  rw [controllerGetSocketByName, controllerPush, List.find?_append, hlast,
    Option.or_none, controllerGetSocketByName]

theorem controllerSet_push {name : CString 50} (hname : name ≠ car.name)
    (opCode : Nat) (newValue : List Char) :
    controllerSet (controllerPush cars car) name opCode newValue =
      controllerPush (controllerSet cars name opCode newValue) car := by
  simp only [controllerPush]
  induction cars with
  | nil => simp [controllerSet, hname.symm]
  | cons head rest ih =>
      simp only [List.cons_append, controllerSet, ih]
      split <;> rfl

theorem controllerSet_push_self {name : CString 50} (hname : car.name = name)
    (hfree : ∀ other ∈ cars, other.name ≠ name) (opCode : Nat)
    (newValue : List Char) :
    controllerSet (controllerPush cars car) name opCode newValue =
      controllerPush cars (setField opCode newValue car) := by
  simp only [controllerPush]
  induction cars with
  | nil => simp [controllerSet, hname]
  | cons head rest ih =>
      obtain ⟨hhead, hrest⟩ := List.forall_mem_cons.mp hfree
      simp only [List.cons_append, controllerSet, if_neg hhead, ih hrest]

theorem statusLoop_push {name : CString 50} (hname : name ≠ car.name)
    (socket : Int) (reported : CString 4) (j : Nat) (sends : Bool) :
    statusLoop socket name reported (controllerPush cars car) j sends =
      (controllerPush (statusLoop socket name reported cars j sends).1 car,
        (statusLoop socket name reported cars j sends).2) := by
  simp only [controllerPush]
  induction cars generalizing j sends with
  | nil => simp [statusLoop, hname.symm]
  | cons head rest ih =>
      simp only [List.cons_append, statusLoop, ih]
      split_ifs <;> rfl

/-- A car that does not serve the floors is passed over by the scan. -/
theorem scanCars_push {sourceFloor destFloor : Int}
    (hserves : canServiceRequest car sourceFloor destFloor = false) (i : Nat)
    (minDistance : Int) (best : Option (Nat × ConnectedCar)) :
    scanCars sourceFloor destFloor (controllerPush cars car) i minDistance best =
      scanCars sourceFloor destFloor cars i minDistance best := by
  simp only [controllerPush]
  induction cars generalizing i minDistance best with
  | nil => simp [scanCars, hserves]
  | cons head rest ih => simp only [List.cons_append, scanCars, ih]

variable {state : ControllerState}

theorem sendNextDestination_push {record : Nat} (hrecord : record < state.cars.length)
    {chosen : ConnectedCar} (hname : chosen.name ≠ car.name) (orderSent : Bool) :
    sendNextDestination (state.push car) record chosen orderSent =
      ((sendNextDestination state record chosen orderSent).1.push car,
        (sendNextDestination state record chosen orderSent).2) := by
  have hset (other : ConnectedCar) : (state.push car).cars.set record other =
      controllerPush (state.cars.set record other) car :=
    List.set_append_left _ _ hrecord
  simp only [sendNextDestination, hset, controllerGetSocketByName_push hname]
  split_ifs <;> rfl

theorem handleElevatorCall_push (hfree : Unclaimed state.cars car)
    {sourceFloor destFloor : Int} {outcome : CallOutcome}
    (hpasses : outcome.allocated = false ∨
      canServiceRequest car sourceFloor destFloor = false) :
    handleElevatorCall (state.push car) sourceFloor destFloor outcome =
      ((handleElevatorCall state sourceFloor destFloor outcome).1.push car,
        (handleElevatorCall state sourceFloor destFloor outcome).2) := by
  rcases hpasses with hallocated | hserves
  · rw [handleElevatorCall_refused (Or.inr hallocated),
      handleElevatorCall_refused (Or.inr hallocated)]
  have hbest : bestCar (state.push car).cars sourceFloor destFloor =
      bestCar state.cars sourceFloor destFloor := scanCars_push hserves 0 100 none
  simp only [handleElevatorCall, hbest]
  cases hchosen : bestCar state.cars sourceFloor destFloor with
  | none => rfl
  | some found =>
      obtain ⟨record, chosen⟩ := found
      have hget := getElem?_of_bestCar hchosen
      obtain ⟨hlt, -⟩ := List.getElem?_eq_some_iff.mp hget
      have hname : (addToCarQueue outcome.allocated chosen sourceFloor
          destFloor).1.name ≠ car.name := by
        rw [addToCarQueue_frame]
        exact (hfree chosen (List.mem_of_getElem? hget)).1
      simp only [sendNextDestination_push hlt hname]
      split_ifs <;> rfl

/-- A message that does not concern the last car is handled as without it. -/
theorem controllerStep_push (hfree : Unclaimed state.cars car)
    {input : ControllerInput}
    (hpasses : PassesBy car.connectionsocket car.lowestFloor car.highestFloor
      input) :
    controllerStep (state.push car) input =
        ((controllerStep state input).1.push car, (controllerStep state input).2) ∧
      Unclaimed (controllerStep state input).1.cars car := by
  cases input with
  | connection socket => exact hpasses.elim
  | car socket name lowestFloor highestFloor fresh => exact hpasses.elim
  | hangUp socket => exact hpasses.elim
  | call socket source destination outcome =>
      have hpassed : outcome.allocated = false ∨
          canServiceRequest car (stringToFloor source)
            (stringToFloor destination) = false := by
        apply hpasses.imp_right
        rintro ⟨floor, hfloor, hout⟩
        rw [Bool.eq_false_iff, Ne, canServiceRequest_iff]
        exact fun hserves => hout (hserves floor hfloor)
      refine ⟨?_, hfree.of_identity (callStep_identity _ _ _ _ _)⟩
      simp only [controllerStep, callStep, handleElevatorCall_push hfree hpassed]
      split_ifs <;> rfl
  | status sender statusStr currentFloor destinationFloor sends =>
      refine ⟨?_, hfree.of_identity (statusStep_identity _ _ _ _ _ _)⟩
      have hname : controllerGetNameBySocket (state.push car).cars sender =
          controllerGetNameBySocket state.cars sender :=
        controllerGetNameBySocket_push hpasses
      simp only [controllerStep, statusStep, hname]
      cases hsender : controllerGetNameBySocket state.cars sender with
      | none => rfl
      | some name =>
          obtain ⟨other, hother, -, rfl⟩ := controllerGetNameBySocket_eq_some hsender
          have hne := (hfree other hother).1
          simp only [ControllerState.push, controllerSet_push hne,
            statusLoop_push hne]
          split_ifs <;> rfl

/-- The car's own first report fills in its record; there is nothing to order
yet. -/
theorem statusStep_push_self (hfree : Unclaimed state.cars car)
    (hprevious : car.previousStatus ≠ statusNames .Closing) (statusStr : CString 8)
    (currentFloor destinationFloor : CString 4) (sends : Bool) :
    statusStep (state.push car) car.connectionsocket statusStr currentFloor
        destinationFloor sends =
      (state.push { reportedCar car statusStr currentFloor destinationFloor with
        previousStatus := statusStr }, []) := by
  have hnames : ∀ other ∈ state.cars, other.name ≠ car.name :=
    fun other hother => (hfree other hother).1
  have hname : controllerGetNameBySocket (controllerPush state.cars car)
      car.connectionsocket = some car.name :=
    controllerGetNameBySocket_push_self hfree
  have hopen : doorsClosed (reportedCar car statusStr currentFloor
      destinationFloor) = false := by
    rw [Bool.eq_false_iff, Ne, doorsClosed_reportedCar]
    exact fun hclosed => hprevious hclosed.1
  have hreported : setField 5 destinationFloor.chars
      (setField 4 currentFloor.chars (setField 3 statusStr.chars car)) =
        reportedCar car statusStr currentFloor destinationFloor := by
    simp [setField, reportedCar]
  have hloop : statusLoop car.connectionsocket car.name currentFloor
      (controllerPush state.cars
        (reportedCar car statusStr currentFloor destinationFloor)) 0 sends =
      (controllerPush state.cars
        (reportedCar car statusStr currentFloor destinationFloor), true, []) := by
    have hrecord : (reportedCar car statusStr currentFloor destinationFloor).name =
        car.name := rfl
    rw [controllerPush, statusLoop_append _ _ _ hnames]
    simp [statusLoop, hrecord, hopen]
  have hset (opCode : Nat) (newValue : List Char) {record : ConnectedCar}
      (hrecord : record.name = car.name) :=
    controllerSet_push_self hrecord hnames opCode newValue
  have hcars : controllerSet (controllerSet (controllerSet
      (controllerPush state.cars car) car.name 3 statusStr.chars) car.name 4
        currentFloor.chars) car.name 5 destinationFloor.chars =
      controllerPush state.cars
        (reportedCar car statusStr currentFloor destinationFloor) := by
    rw [hset 3 _ rfl, hset 4 _ (setField_name _ _ _),
      hset 5 _ ((setField_name _ _ _).trans (setField_name _ _ _)), hreported]
  have hrecorded := @hset 7 statusStr.chars
    (reportedCar car statusStr currentFloor destinationFloor) rfl
  simp only [statusStep, ControllerState.push, hname, hcars, hloop, hrecorded,
    if_true]
  simp [setField]

end Behind

theorem startsEmpty_iff (state : ControllerState) (socket : Int)
    (name : CString 50) (lowestFloor highestFloor : CString 4)
    (fresh : ConnectedCar) :
    StartsEmpty state.cars
        (controllerStep state (.car socket name lowestFloor highestFloor
          fresh)).1.cars name lowestFloor highestFloor ↔ Cleared fresh := by
  constructor
  · rintro ⟨car, hafter, hqueue, hdirection, -⟩
    obtain rfl : registeredCar socket name lowestFloor highestFloor fresh = car := by
      simpa [controllerStep, controllerPush] using hafter
    exact ⟨hqueue, hdirection⟩
  · rintro ⟨hqueue, hdirection⟩
    exact ⟨registeredCar socket name lowestFloor highestFloor fresh, rfl, hqueue,
      hdirection, rfl, rfl, rfl⟩

section TwoRuns

variable {state : ControllerState} {first second : ConnectedCar}

/-- Messages that do not concern the last car do not show which record it is. -/
theorem logged_push (hfree : Unclaimed state.cars first)
    (hname : second.name = first.name)
    (hsocket : second.connectionsocket = first.connectionsocket)
    (hlowest : second.lowestFloor = first.lowestFloor)
    (hhighest : second.highestFloor = first.highestFloor)
    {before : List ControllerInput}
    (hbefore : ∀ input ∈ before,
      PassesBy first.connectionsocket first.lowestFloor first.highestFloor input) :
    ∃ (base : ControllerState) (log : List ControllerEvent),
      Unclaimed base.cars first ∧
      run (logged controllerStep) (state.push first, []) before =
        (base.push first, log) ∧
      run (logged controllerStep) (state.push second, []) before =
        (base.push second, log) := by
  have hother {base : ControllerState} (hbase : Unclaimed base.cars first) :
      Unclaimed base.cars second := by
    intro car hcar
    rw [hname, hsocket]
    exact hbase car hcar
  have hstep (s t : ControllerState) (input : ControllerInput)
      (hboth : ∃ base : ControllerState, Unclaimed base.cars first ∧
        s = base.push first ∧ t = base.push second)
      (hpasses : PassesBy first.connectionsocket first.lowestFloor
        first.highestFloor input) :
      (controllerStep s input).2 = (controllerStep t input).2 ∧
        ∃ base : ControllerState, Unclaimed base.cars first ∧
          (controllerStep s input).1 = base.push first ∧
          (controllerStep t input).1 = base.push second := by
    obtain ⟨base, hbase, rfl, rfl⟩ := hboth
    obtain ⟨hone, hafter⟩ := controllerStep_push hbase hpasses
    rw [← hsocket, ← hlowest, ← hhighest] at hpasses
    obtain ⟨htwo, -⟩ := controllerStep_push (hother hbase) hpasses
    rw [hone, htwo]
    exact ⟨rfl, _, hafter, rfl, rfl⟩
  obtain ⟨hlog, base, hbase, hfirst, hsecond⟩ := logged_eq_of_related hstep
    ⟨state, hfree, rfl, rfl⟩ hbefore []
  exact ⟨base, _, hbase, Prod.ext hfirst rfl, Prod.ext hsecond hlog.symm⟩

/-- From records that look the same on, the logs are the same. -/
theorem logged_seen {one two : ControllerState} (hseen : one.seen = two.seen)
    {after : List ControllerInput} (hafter : ∀ input ∈ after, IsTraffic input)
    (log : List ControllerEvent) :
    (run (logged controllerStep) (one, log) after).2 =
      (run (logged controllerStep) (two, log) after).2 := by
  have hstep (s t : ControllerState) (input : ControllerInput)
      (hsame : s.seen = t.seen) (htraffic : IsTraffic input) :
      (controllerStep s input).2 = (controllerStep t input).2 ∧
        (controllerStep s input).1.seen = (controllerStep t input).1.seen := by
    have hone := controllerStep_seen s htraffic
    rw [hsame, controllerStep_seen t htraffic, Prod.mk.injEq] at hone
    exact ⟨hone.2.symm, hone.1.symm⟩
  exact (logged_eq_of_related hstep hseen hafter log).1

theorem push_seen (state : ControllerState) (newCar : ConnectedCar) :
    (state.push newCar).seen = state.seen.push newCar.seen := by
  simp [ControllerState.push, ControllerState.seen, controllerPush]

/-- What a leftover has become when the car has reported for the first time. -/
def settled (socket : Int) (name : CString 50) (lowestFloor highestFloor : CString 4)
    (statusStr : CString 8) (currentFloor destinationFloor : CString 4)
    (fresh : ConnectedCar) : ConnectedCar :=
  { reportedCar (registeredCar socket name lowestFloor highestFloor fresh) statusStr
      currentFloor destinationFloor with previousStatus := statusStr }

/-- Of two leftovers that start empty, and are not taken for `Closing`, the
handlers see the same from then on. -/
theorem settled_seen {first second : ConnectedCar} (hfirst : Cleared first)
    (hsecond : Cleared second) (hone : first.elevatorStatus ≠ some .Closing)
    (htwo : second.elevatorStatus ≠ some .Closing) (socket : Int)
    (name : CString 50) (lowestFloor highestFloor : CString 4)
    (statusStr : CString 8) (currentFloor destinationFloor : CString 4) :
    (settled socket name lowestFloor highestFloor statusStr currentFloor
        destinationFloor first).seen =
      (settled socket name lowestFloor highestFloor statusStr currentFloor
        destinationFloor second).seen := by
  have hnone {fresh : ConnectedCar} (hstatus : fresh.elevatorStatus ≠ some .Closing) :
      fresh.elevatorStatus.filter (· = .Closing) = none := by
    rw [Option.filter_eq_none_iff]
    rintro status hmem
    simp only [decide_eq_true_eq]
    rintro rfl
    exact hstatus hmem
  simp only [ConnectedCar.seen, settled, reportedCar, registeredCar, hnone hone,
    hnone htwo, hfirst.queue, hsecond.queue, hfirst.direction, hsecond.direction]

/-- The first report of a car that has registered, with the run before it. -/
theorem logged_first_report {state base : ControllerState} {socket : Int}
    {name : CString 50} {lowestFloor highestFloor : CString 4}
    {fresh : ConnectedCar} {before : List ControllerInput}
    {log : List ControllerEvent}
    (hfree : Unclaimed base.cars
      (registeredCar socket name lowestFloor highestFloor fresh))
    (hrun : run (logged controllerStep) (state.push (registeredCar socket name
        lowestFloor highestFloor fresh), []) before =
      (base.push (registeredCar socket name lowestFloor highestFloor fresh), log))
    (statusStr : CString 8) (currentFloor destinationFloor : CString 4)
    (sends : Bool) (after : List ControllerInput) :
    run (logged controllerStep) (state.push (registeredCar socket name lowestFloor
        highestFloor fresh), []) (before ++
          .status socket statusStr currentFloor destinationFloor sends :: after) =
      run (logged controllerStep) (base.push (settled socket name lowestFloor
        highestFloor statusStr currentFloor destinationFloor fresh), log) after := by
  have hidle : (registeredCar socket name lowestFloor highestFloor
      fresh).previousStatus ≠ statusNames .Closing := by
    have hdiffers : CString.store 8 "IDLE".toList ≠ statusNames .Closing := by decide
    exact hdiffers
  have hstep := statusStep_push_self hfree hidle statusStr currentFloor
    destinationFloor sends
  have hlogged : logged controllerStep (base.push (registeredCar socket name
      lowestFloor highestFloor fresh), log)
        (.status socket statusStr currentFloor destinationFloor sends) =
      (base.push (settled socket name lowestFloor highestFloor statusStr
        currentFloor destinationFloor fresh), log ++ []) :=
    congrArg (fun result => (result.1, log ++ result.2)) hstep
  rw [run_append, hrun, run_cons, hlogged, List.append_nil]

end TwoRuns

/-- The record that is appended starts empty exactly when the leftover does.  If
nothing of the leftover is taken for `Closing` either, and the name and the
socket are new, then it does not show in anything that is sent or recorded: no
call that the car could serve may come before its first report, and calls and
reports of any kind may follow it. -/
theorem registered_car_starts_empty (state : ControllerState) (socket : Int)
    (name : CString 50) (lowestFloor highestFloor : CString 4) :
    (∀ fresh, StartsEmpty state.cars
        (controllerStep state (.car socket name lowestFloor highestFloor
          fresh)).1.cars name lowestFloor highestFloor ↔ Cleared fresh) ∧
    ∀ first second, Cleared first → Cleared second →
      first.elevatorStatus ≠ some .Closing → second.elevatorStatus ≠ some .Closing →
      (∀ car ∈ state.cars, car.name ≠ name ∧ car.connectionsocket ≠ socket) →
      ∀ before after statusStr currentFloor destinationFloor sends,
        (∀ input ∈ before, PassesBy socket lowestFloor highestFloor input) →
        (∀ input ∈ after, IsTraffic input) →
        let messages := before ++
          .status socket statusStr currentFloor destinationFloor sends :: after
        let logFrom (fresh : ConnectedCar) :=
          (run (logged controllerStep) ((controllerStep state
            (.car socket name lowestFloor highestFloor fresh)).1, []) messages).2
        logFrom first = logFrom second := by
  refine ⟨startsEmpty_iff state socket name lowestFloor highestFloor, ?_⟩
  intro first second hfirst hsecond hone htwo hfree before after statusStr
    currentFloor destinationFloor sends hbefore hafter messages logFrom
  obtain ⟨base, log, hbase, hrunFirst, hrunSecond⟩ := @logged_push state
    (registeredCar socket name lowestFloor highestFloor first)
    (registeredCar socket name lowestFloor highestFloor second)
    hfree rfl rfl rfl rfl before hbefore
  have hbaseSecond : Unclaimed base.cars
      (registeredCar socket name lowestFloor highestFloor second) := hbase
  have hlogFirst := logged_first_report hbase hrunFirst statusStr currentFloor
    destinationFloor sends after
  have hlogSecond := logged_first_report hbaseSecond hrunSecond statusStr currentFloor
    destinationFloor sends after
  calc logFrom first
      = (run (logged controllerStep) (base.push (settled socket name lowestFloor
          highestFloor statusStr currentFloor destinationFloor first), log)
            after).2 := congrArg Prod.snd hlogFirst
    _ = (run (logged controllerStep) (base.push (settled socket name lowestFloor
          highestFloor statusStr currentFloor destinationFloor second), log)
            after).2 := by
        apply logged_seen _ hafter
        rw [push_seen, push_seen, settled_seen hfirst hsecond hone htwo]
    _ = logFrom second := (congrArg Prod.snd hlogSecond).symm

/-- Beta registers beside Alpha, for floors 1 to 3: what floor the leftover was on
does not matter. -/
theorem registered_car_starts_empty_beta :
    let messages := [callFrom 5 8,
      .status 6 (statusNames .Closed) (floorToString 1) (floorToString 1) true,
      callFrom 1 3]
    let logFrom (fresh : ConnectedCar) :=
      (run (logged controllerStep) ((controllerStep idleRegistry
        (.car 6 (.store 50 "Beta".toList) (floorToString 1) (floorToString 3)
          fresh)).1, []) messages).2
    logFrom idleCar = logFrom { idleCar with currentfloor := floorToString 9 } :=
  (registered_car_starts_empty idleRegistry 6 (.store 50 "Beta".toList)
    (floorToString 1) (floorToString 3)).2 idleCar
      { idleCar with currentfloor := floorToString 9 } ⟨rfl, rfl⟩ ⟨rfl, rfl⟩
      (by decide) (by decide) (by decide) [callFrom 5 8] [callFrom 1 3]
      (statusNames .Closed) (floorToString 1) (floorToString 1) true (by decide)
      (by decide)

/-- A stop that is left over from before is Beta's first: it is sent to floor 9 on
a call from floor 1, which is outside its floors. -/
theorem leftover_stop_is_ordered :
    let fresh := { idleCar with queue := [⟨9, .up⟩] }
    let registered := (controllerStep ⟨[], [5, 6]⟩ (.car 6
      (.store 50 "Beta".toList) (floorToString 1) (floorToString 3) fresh)).1
    ¬ StartsEmpty [] registered.cars (.store 50 "Beta".toList) (floorToString 1)
        (floorToString 3) ∧
      .sent 6 (.floor (floorToString 9)) ∈ (run (logged controllerStep)
        (registered, []) [
          .status 6 (statusNames .Closed) (floorToString 1) (floorToString 1) true,
          callFrom 2 3]).2 := by
  intro fresh registered
  refine ⟨fun hempty => ?_, by decide⟩
  have hcleared := (startsEmpty_iff ⟨[], [5, 6]⟩ 6 _ _ _ fresh).mp hempty
  exact absurd hcleared.queue (by decide)

end Elevator
