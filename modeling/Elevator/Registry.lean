/-
What the handlers of the controller leave alone.  A call changes one record and
a status report changes the records of one name; neither touches the names and
sockets by which records are found.
-/
import Elevator.Controller

namespace Elevator

open CText

def queueAt (cars : List ConnectedCar) (j : Nat) : List QueueNode :=
  ((cars.map (·.queue))[j]?).getD []

/-- By what a record is found. -/
def ConnectedCar.identity (car : ConnectedCar) : CString 50 × Int :=
  (car.name, car.connectionsocket)

def removedFrom (j : Nat) (log : List ControllerEvent) : List QueueNode :=
  log.filterMap fun
    | .removed record stop _ => if record = j then some stop else none
    | _ => none

/-- The requests that have been assigned to a record, in order. -/
def requestsOf (j : Nat) (log : List ControllerEvent) : List (Int × Int) :=
  log.filterMap fun
    | .assigned record sourceFloor destFloor =>
        if record = j then some (sourceFloor, destFloor) else none
    | _ => none

@[simp] theorem removedFrom_nil (j : Nat) : removedFrom j [] = [] := rfl

@[simp] theorem requestsOf_nil (j : Nat) : requestsOf j [] = [] := rfl

@[simp] theorem removedFrom_append (j : Nat) (first second : List ControllerEvent) :
    removedFrom j (first ++ second) = removedFrom j first ++ removedFrom j second :=
  List.filterMap_append

@[simp] theorem requestsOf_append (j : Nat) (first second : List ControllerEvent) :
    requestsOf j (first ++ second) = requestsOf j first ++ requestsOf j second :=
  List.filterMap_append

@[simp] theorem removedFrom_sent (j : Nat) (socket : Int)
    (message : ControllerMessage) :
    removedFrom j [.sent socket message] = [] := rfl

@[simp] theorem requestsOf_sent (j : Nat) (socket : Int)
    (message : ControllerMessage) :
    requestsOf j [.sent socket message] = [] := rfl

@[simp] theorem removedFrom_assigned (j record : Nat)
    (sourceFloor destFloor : Int) (log : List ControllerEvent) :
    removedFrom j (.assigned record sourceFloor destFloor :: log) =
      removedFrom j log := rfl

@[simp] theorem requestsOf_assigned (j record : Nat)
    (sourceFloor destFloor : Int) (log : List ControllerEvent) :
    requestsOf j (.assigned record sourceFloor destFloor :: log) =
      (if record = j then [(sourceFloor, destFloor)] else []) ++
        requestsOf j log := by
  by_cases heq : record = j <;> simp [requestsOf, heq]

@[simp] theorem queueAt_cons_zero (car : ConnectedCar) (rest : List ConnectedCar) :
    queueAt (car :: rest) 0 = car.queue := rfl

@[simp] theorem queueAt_cons_succ (car : ConnectedCar) (rest : List ConnectedCar)
    (i : Nat) : queueAt (car :: rest) (i + 1) = queueAt rest i := rfl

theorem queueAt_eq_of_map {first second : List ConnectedCar}
    (hmap : first.map (·.queue) = second.map (·.queue)) (j : Nat) :
    queueAt first j = queueAt second j := by
  rw [queueAt, queueAt, hmap]

theorem queueAt_of_getElem? {cars : List ConnectedCar} {j : Nat}
    {car : ConnectedCar} (hcar : cars[j]? = some car) :
    queueAt cars j = car.queue := by
  simp [queueAt, hcar]

theorem queueAt_set {cars : List ConnectedCar} {i : Nat} {old : ConnectedCar}
    (hold : cars[i]? = some old) (new : ConnectedCar) (j : Nat) :
    queueAt (cars.set i new) j = if i = j then new.queue else queueAt cars j := by
  obtain ⟨hlt, -⟩ := List.getElem?_eq_some_iff.mp hold
  by_cases heq : i = j
  · subst heq
    simp [queueAt, hlt]
  · simp [queueAt, heq]

/-- Replacing a record by one that agrees with it in `field` shows nowhere. -/
theorem map_set_of_same {α : Type} {cars : List ConnectedCar} {i : Nat}
    {old new : ConnectedCar} (hold : cars[i]? = some old)
    (field : ConnectedCar → α) (hsame : field new = field old) :
    (cars.set i new).map field = cars.map field := by
  obtain ⟨hlt, hget⟩ := List.getElem?_eq_some_iff.mp hold
  rw [List.map_set]
  apply List.ext_getElem?
  intro j
  by_cases heq : i = j
  · subst heq
    simp [hlt, hget, hsame]
  · rw [List.getElem?_set_ne heq]

section Lookups

variable {cars : List ConnectedCar}

theorem controllerGetSocketByName_eq (cars : List ConnectedCar)
    (name : CString 50) :
    controllerGetSocketByName cars name =
      (((cars.map ConnectedCar.identity).find? fun entry => entry.1 = name).map
        (·.2)).getD (-1) := by
  rw [controllerGetSocketByName, List.find?_map, Option.map_map]
  rfl

/-- Lookups do not see a change that keeps names and sockets. -/
theorem controllerGetSocketByName_set {i : Nat} {old new : ConnectedCar}
    (hold : cars[i]? = some old) (hsame : new.identity = old.identity)
    (name : CString 50) :
    controllerGetSocketByName (cars.set i new) name =
      controllerGetSocketByName cars name := by
  rw [controllerGetSocketByName_eq, controllerGetSocketByName_eq,
    map_set_of_same hold ConnectedCar.identity hsame]

/-- `accept` returns no negative descriptor, so a registered name is found. -/
theorem controllerGetSocketByName_nonneg
    (hsockets : ∀ car ∈ cars, 0 ≤ car.connectionsocket) {name : CString 50}
    (hname : ∃ car ∈ cars, car.name = name) :
    0 ≤ controllerGetSocketByName cars name := by
  obtain ⟨car, hcar, rfl⟩ := hname
  rw [controllerGetSocketByName]
  cases hfind : cars.find? fun other => other.name = car.name with
  | none =>
      have hnone := List.find?_eq_none.mp hfind car hcar
      simp at hnone
  | some found => exact hsockets found (List.mem_of_find?_eq_some hfind)

end Lookups

/-- Writing one field of the first record with a name shows in no other. -/
theorem controllerSet_map {α : Type} (cars : List ConnectedCar)
    (name : CString 50) {opCode : Nat} {newValue : List Char}
    (field : ConnectedCar → α)
    (hsame : ∀ car, field (setField opCode newValue car) = field car) :
    (controllerSet cars name opCode newValue).map field = cars.map field := by
  induction cars with
  | nil => rfl
  | cons car rest ih =>
      simp only [controllerSet]
      split
      · simp [hsame]
      · simp [ih]

/-- The records before the loop over them: three fields are written. -/
def reportedCars (cars : List ConnectedCar) (name : CString 50)
    (statusStr : CString 8) (currentFloor destinationFloor : CString 4) :
    List ConnectedCar :=
  controllerSet
    (controllerSet (controllerSet cars name 3 statusStr.chars) name 4
      currentFloor.chars)
    name 5 destinationFloor.chars

theorem reportedCars_map {α : Type} (cars : List ConnectedCar)
    (name : CString 50) (statusStr : CString 8)
    (currentFloor destinationFloor : CString 4) (field : ConnectedCar → α)
    (hstatus : ∀ car value, field (setField 3 value car) = field car)
    (hcurrent : ∀ car value, field (setField 4 value car) = field car)
    (hdestination : ∀ car value, field (setField 5 value car) = field car) :
    (reportedCars cars name statusStr currentFloor destinationFloor).map field =
      cars.map field := by
  rw [reportedCars, controllerSet_map _ _ _ fun car => hdestination car _,
    controllerSet_map _ _ _ fun car => hcurrent car _,
    controllerSet_map _ _ _ fun car => hstatus car _]

section StatusLoop

variable (socket : Int) (name : CString 50) (reported : CString 4)

theorem statusLoop_identity (cars : List ConnectedCar) (j : Nat) (sends : Bool) :
    (statusLoop socket name reported cars j sends).1.map ConnectedCar.identity =
      cars.map ConnectedCar.identity := by
  induction cars generalizing j sends with
  | nil => rfl
  | cons car rest ih =>
      have hremove : (removeFromCarQueue car).1.identity = car.identity := by
        unfold removeFromCarQueue
        split <;> rfl
      simp only [statusLoop]
      split_ifs <;> simp [ih, hremove]

/-- Records of other names are passed over. -/
theorem statusLoop_append {before : List ConnectedCar}
    (hothers : ∀ car ∈ before, car.name ≠ name) (rest : List ConnectedCar)
    (j : Nat) (sends : Bool) :
    statusLoop socket name reported (before ++ rest) j sends =
      (before ++
          (statusLoop socket name reported rest (j + before.length) sends).1,
        (statusLoop socket name reported rest (j + before.length) sends).2) := by
  induction before generalizing j with
  | nil => rfl
  | cons head before ih =>
      obtain ⟨hhead, hbefore⟩ := List.forall_mem_cons.mp hothers
      have hplace : j + (before.length + 1) = j + 1 + before.length := by omega
      simp only [List.cons_append, statusLoop, if_neg hhead, List.length_cons,
        hplace, ih hbefore]

@[simp] theorem requestsOf_statusLoop (cars : List ConnectedCar) (j i : Nat)
    (sends : Bool) :
    requestsOf i (statusLoop socket name reported cars j sends).2.2 = [] := by
  induction cars generalizing j sends with
  | nil => rfl
  | cons car rest ih =>
      have hremoval (stops : List QueueNode) :
          requestsOf i (stops.map fun stop => .removed j stop reported) = [] := by
        rw [requestsOf, List.filterMap_map]
        exact List.filterMap_eq_nil_iff.mpr fun _ _ => rfl
      simp only [statusLoop]
      split_ifs <;> simp [ih, hremoval]

/-- The loop only loses stops of the records it has still before it. -/
theorem removedFrom_statusLoop_lt (cars : List ConnectedCar) {j i : Nat}
    (hlt : i < j) (sends : Bool) :
    removedFrom i (statusLoop socket name reported cars j sends).2.2 = [] := by
  induction cars generalizing j sends with
  | nil => rfl
  | cons car rest ih =>
      have hremoval (stops : List QueueNode) :
          removedFrom i (stops.map fun stop => .removed j stop reported) = [] := by
        rw [removedFrom, List.filterMap_map]
        exact List.filterMap_eq_nil_iff.mpr fun _ _ => if_neg (Nat.ne_of_gt hlt)
      simp only [statusLoop]
      split_ifs <;> simp [ih (Nat.lt_succ_of_lt hlt), hremoval]

theorem removedFrom_freed (j i : Nat) (car : ConnectedCar) :
    removedFrom i ((removeFromCarQueue car).2.toList.map
        fun stop => .removed j stop reported) =
      if j = i then (removeFromCarQueue car).2.toList else [] := by
  cases (removeFromCarQueue car).2 with
  | none => simp
  | some stop => by_cases heq : j = i <;> simp [removedFrom, heq]

theorem removeFromCarQueue_car (car : ConnectedCar) :
    (removeFromCarQueue car).1 = { car with queue := car.queue.tail } := by
  rcases car with ⟨_, _, _, _, _, _, _, _, queue, _, _⟩
  cases queue <;> rfl

theorem removeFromCarQueue_conserves (car : ConnectedCar) :
    (removeFromCarQueue car).2.toList ++ (removeFromCarQueue car).1.queue =
      car.queue := by
  unfold removeFromCarQueue
  cases hqueue : car.queue <;> simp [hqueue]

/-- What a record loses in the loop is what stood at the head of its queue. -/
theorem statusLoop_conserves (cars : List ConnectedCar) (j i : Nat)
    (sends : Bool) :
    removedFrom (j + i) (statusLoop socket name reported cars j sends).2.2 ++
        queueAt (statusLoop socket name reported cars j sends).1 i =
      queueAt cars i := by
  induction cars generalizing j i sends with
  | nil => rfl
  | cons car rest ih =>
      have hfreed := removeFromCarQueue_conserves car
      have hlater (sends : Bool) :=
        removedFrom_statusLoop_lt socket name reported rest (Nat.lt_succ_self j) sends
      cases i with
      | zero =>
          simp only [statusLoop, Nat.add_zero]
          split_ifs <;> simp [removedFrom_freed, hlater, hfreed]
      | succ i =>
          have hrest (sends : Bool) := ih (j + 1) i sends
          rw [show j + 1 + i = j + (i + 1) by omega] at hrest
          simp only [statusLoop]
          split_ifs <;> simp [removedFrom_freed, hrest]

end StatusLoop

section StatusStep

variable {state : ControllerState} {socket : Int} {statusStr : CString 8}
  {currentFloor destinationFloor : CString 4} {sends : Bool}

theorem statusStep_none
    (hname : controllerGetNameBySocket state.cars socket = none) :
    statusStep state socket statusStr currentFloor destinationFloor sends =
      (state, []) := by
  simp [statusStep, hname]

theorem statusStep_cars {name : CString 50}
    (hname : controllerGetNameBySocket state.cars socket = some name) :
    (statusStep state socket statusStr currentFloor destinationFloor sends).1.cars =
      controllerSet
        (statusLoop socket name currentFloor
          (reportedCars state.cars name statusStr currentFloor destinationFloor)
          0 sends).1
        name 7 statusStr.chars := by
  simp only [statusStep, hname, reportedCars]
  split <;> rfl

theorem statusStep_events {name : CString 50}
    (hname : controllerGetNameBySocket state.cars socket = some name) :
    (statusStep state socket statusStr currentFloor destinationFloor sends).2 =
      (statusLoop socket name currentFloor
        (reportedCars state.cars name statusStr currentFloor destinationFloor)
        0 sends).2.2 := by
  simp only [statusStep, hname, reportedCars]

theorem statusStep_identity (state : ControllerState) (socket : Int)
    (statusStr : CString 8) (currentFloor destinationFloor : CString 4)
    (sends : Bool) :
    (statusStep state socket statusStr currentFloor destinationFloor
        sends).1.cars.map ConnectedCar.identity =
      state.cars.map ConnectedCar.identity := by
  cases hname : controllerGetNameBySocket state.cars socket with
  | none => rw [statusStep_none hname]
  | some name =>
      rw [statusStep_cars hname, controllerSet_map _ _ _ fun _ => rfl,
        statusLoop_identity,
        reportedCars_map _ _ _ _ _ _ (fun _ _ => rfl) (fun _ _ => rfl)
          fun _ _ => rfl]

/-- A status report assigns nothing, and a queue loses its head at most. -/
theorem statusStep_conserves (state : ControllerState) (socket : Int)
    (statusStr : CString 8) (currentFloor destinationFloor : CString 4)
    (sends : Bool) (j : Nat) :
    requestsOf j (statusStep state socket statusStr currentFloor
        destinationFloor sends).2 = [] ∧
      removedFrom j (statusStep state socket statusStr currentFloor
          destinationFloor sends).2 ++
        queueAt (statusStep state socket statusStr currentFloor
          destinationFloor sends).1.cars j =
      queueAt state.cars j := by
  cases hname : controllerGetNameBySocket state.cars socket with
  | none =>
      rw [statusStep_none hname]
      exact ⟨rfl, rfl⟩
  | some name =>
      rw [statusStep_cars hname, statusStep_events hname]
      refine ⟨requestsOf_statusLoop _ _ _ _ _ _ _, ?_⟩
      have hloop := statusLoop_conserves socket name currentFloor
        (reportedCars state.cars name statusStr currentFloor destinationFloor) 0 j
        sends
      rw [Nat.zero_add] at hloop
      rw [queueAt_eq_of_map (controllerSet_map _ _ _ fun _ => rfl), hloop]
      exact queueAt_eq_of_map
        (reportedCars_map _ _ _ _ _ _ (fun _ _ => rfl) (fun _ _ => rfl)
          fun _ _ => rfl) j

end StatusStep

section CallStep

/-- The scan returns a record together with its place. -/
theorem getElem?_of_scanCars {sourceFloor destFloor : Int}
    {cars : List ConnectedCar} {i : Nat} {minDistance : Int}
    {best : Option (Nat × ConnectedCar)} {record : Nat} {car : ConnectedCar}
    (hscan : scanCars sourceFloor destFloor cars i minDistance best =
      some (record, car)) :
    best = some (record, car) ∨ i ≤ record ∧ cars[record - i]? = some car := by
  induction cars generalizing i minDistance best with
  | nil => exact Or.inl hscan
  | cons head rest ih =>
      have hlater : i + 1 ≤ record ∧ rest[record - (i + 1)]? = some car →
          i ≤ record ∧ (head :: rest)[record - i]? = some car := by
        rintro ⟨hle, hget⟩
        refine ⟨by omega, ?_⟩
        rw [show record - i = record - (i + 1) + 1 by omega]
        simpa using hget
      simp only [scanCars] at hscan
      split at hscan
      · rcases ih hscan with hhead | hrest
        · obtain ⟨rfl, rfl⟩ := Prod.mk.inj (Option.some.inj hhead)
          exact Or.inr ⟨Nat.le_refl i, by simp⟩
        · exact Or.inr (hlater hrest)
      · rcases ih hscan with hbest | hrest
        · exact Or.inl hbest
        · exact Or.inr (hlater hrest)

theorem getElem?_of_bestCar {cars : List ConnectedCar}
    {sourceFloor destFloor : Int} {record : Nat} {car : ConnectedCar}
    (hbest : bestCar cars sourceFloor destFloor = some (record, car)) :
    cars[record]? = some car := by
  rcases getElem?_of_scanCars hbest with hnone | ⟨-, hget⟩
  · exact absurd hnone (by simp)
  · simpa using hget

/-- A request changes nothing of a record but its queue. -/
theorem addToCarQueue_frame (allocated : Bool) (car : ConnectedCar)
    (sourceFloor destFloor : Int) :
    (addToCarQueue allocated car sourceFloor destFloor).1 =
      { car with
        queue := (addToCarQueue allocated car sourceFloor destFloor).1.queue } := by
  simp only [addToCarQueue]
  split
  · rfl
  · split
    · rfl
    · split
      · rfl
      · split <;> rfl

@[simp] theorem addToCarQueue_allocated (car : ConnectedCar)
    (sourceFloor destFloor : Int) :
    (addToCarQueue true car sourceFloor destFloor).2 = true := by
  simp only [addToCarQueue, Bool.not_true, Bool.false_eq_true, if_false]
  split
  · rfl
  · split
    · rfl
    · split <;> rfl

theorem addToCarQueue_identity (allocated : Bool) (car : ConnectedCar)
    (sourceFloor destFloor : Int) :
    (addToCarQueue allocated car sourceFloor destFloor).1.identity =
      car.identity := by
  rw [addToCarQueue_frame]
  rfl

theorem addToCarQueue_refused (car : ConnectedCar)
    (sourceFloor destFloor : Int) :
    addToCarQueue false car sourceFloor destFloor = (car, false) := rfl

variable {state : ControllerState} {record : Nat} {car : ConnectedCar}

/-- Sending the car off changes its destination and nothing else. -/
theorem sendNextDestination_cars (state : ControllerState) (record : Nat)
    (car : ConnectedCar) (orderSent : Bool) :
    ∃ destination,
      (sendNextDestination state record car orderSent).1.cars =
        state.cars.set record { car with destinationfloor := destination } := by
  simp only [sendNextDestination]
  split
  · split
    · exact ⟨_, rfl⟩
    · split <;> exact ⟨_, rfl⟩
  · exact ⟨car.destinationfloor, rfl⟩

theorem sendNextDestination_events (state : ControllerState) (record : Nat)
    (car : ConnectedCar) (orderSent : Bool) (j : Nat) :
    requestsOf j (sendNextDestination state record car orderSent).2.2 = [] ∧
      removedFrom j (sendNextDestination state record car orderSent).2.2 = [] := by
  simp only [sendNextDestination]
  split
  · split
    · exact ⟨rfl, rfl⟩
    · split <;> exact ⟨rfl, rfl⟩
  · exact ⟨rfl, rfl⟩

/-- An order for a car is sent where the records said before. -/
theorem controllerGetSocketByName_ordered {old : ConnectedCar}
    (hold : state.cars[record]? = some old)
    (hidentity : car.identity = old.identity) (destination : CString 4) :
    controllerGetSocketByName
        (state.cars.set record { car with destinationfloor := destination })
          car.name =
      controllerGetSocketByName state.cars old.name := by
  have hsame : ConnectedCar.identity
      { car with destinationfloor := destination } = old.identity := hidentity
  rw [controllerGetSocketByName_set hold hsame]
  exact congrArg (controllerGetSocketByName state.cars)
    (congrArg Prod.fst hidentity)

/-- An order is due to the car of a request: it has arrived, and its next stop
is not taken for the end of the queue. -/
def CallOrderDue (car : ConnectedCar) : Prop :=
  car.destinationfloor = car.currentfloor ∧ getNextDestination car ≠ -1

instance (car : ConnectedCar) : Decidable (CallOrderDue car) :=
  inferInstanceAs (Decidable (_ ∧ _))

/-- Only an order that is due needs the socket. -/
theorem sendNextDestination_selected_iff {old : ConnectedCar}
    (hold : state.cars[record]? = some old)
    (hidentity : car.identity = old.identity) (orderSent : Bool) :
    (sendNextDestination state record car orderSent).2.1 = true ↔
      (CallOrderDue car →
        controllerGetSocketByName state.cars old.name ≠ -1) := by
  have hsocket := controllerGetSocketByName_ordered hold hidentity
  simp only [sendNextDestination, hsocket]
  by_cases hdue : car.destinationfloor = car.currentfloor ∧
      getNextDestination car ≠ -1
  · rw [if_pos hdue]
    split_ifs <;> simp_all [CallOrderDue]
  · rw [if_neg hdue]
    simp [CallOrderDue, hdue]

theorem mem_sendNextDestination_iff {old : ConnectedCar}
    (hold : state.cars[record]? = some old)
    (hidentity : car.identity = old.identity) (orderSent : Bool)
    (event : ControllerEvent) :
    event ∈ (sendNextDestination state record car orderSent).2.2 ↔
      CallOrderDue car ∧ controllerGetSocketByName state.cars old.name ≠ -1 ∧
        orderSent = true ∧
        event = .sent (controllerGetSocketByName state.cars old.name)
          (.floor (floorToString (getNextDestination car))) := by
  have hsocket := controllerGetSocketByName_ordered hold hidentity
  simp only [sendNextDestination, hsocket]
  by_cases hdue : car.destinationfloor = car.currentfloor ∧
      getNextDestination car ≠ -1
  · rw [if_pos hdue]
    split_ifs <;> simp_all [CallOrderDue]
  · rw [if_neg hdue]
    simp [CallOrderDue, hdue]

/-- The car's socket is found, so the call is answered with its name. -/
theorem sendNextDestination_selected
    (hsockets : ∀ car ∈ state.cars, 0 ≤ car.connectionsocket)
    {old : ConnectedCar} (hold : state.cars[record]? = some old)
    (hidentity : car.identity = old.identity) (orderSent : Bool) :
    (sendNextDestination state record car orderSent).2.1 = true := by
  have hnonneg := controllerGetSocketByName_nonneg hsockets
    ⟨old, List.mem_of_getElem? hold, rfl⟩
  rw [sendNextDestination_selected_iff hold hidentity]
  intro _
  omega

variable {socket : Int} {source destination : CString 4} {outcome : CallOutcome}

/-- A request that no car can take, or that there is no memory for, is turned
down, and nothing is done about it. -/
theorem handleElevatorCall_refused {sourceFloor destFloor : Int}
    (hrefused : bestCar state.cars sourceFloor destFloor = none ∨
      outcome.allocated = false) :
    handleElevatorCall state sourceFloor destFloor outcome = (state, none, []) := by
  rcases hrefused with hbest | hallocated
  · simp [handleElevatorCall, hbest]
  · cases hbest : bestCar state.cars sourceFloor destFloor <;>
      simp [handleElevatorCall, hbest, hallocated, addToCarQueue_refused]

theorem callStep_refused (socket : Int) (outcome : CallOutcome)
    (hrefused : bestCar state.cars (stringToFloor source)
      (stringToFloor destination) = none ∨ outcome.allocated = false) :
    (callStep state socket source destination outcome).1.cars = state.cars ∧
      (callStep state socket source destination outcome).2 =
        if outcome.replySent then [.sent socket .unavailable] else [] := by
  simp only [callStep, handleElevatorCall_refused hrefused]
  split <;> exact ⟨rfl, rfl⟩

/-- A request that a car takes goes through `sendNextDestination`. -/
theorem callStep_cars (hallocated : outcome.allocated = true)
    (hbest : bestCar state.cars (stringToFloor source)
      (stringToFloor destination) = some (record, car)) :
    (callStep state socket source destination outcome).1.cars =
      (sendNextDestination state record
        (addToCarQueue true car (stringToFloor source)
          (stringToFloor destination)).1 outcome.orderSent).1.cars := by
  simp only [callStep, handleElevatorCall, hbest, hallocated,
    addToCarQueue_allocated, if_true]
  split <;> split <;> rfl

/-- A request that is accepted shows in the queue of the chosen record, and is
put on record as assigned to it. -/
theorem callStep_some (socket : Int)
    (hsockets : ∀ car ∈ state.cars, 0 ≤ car.connectionsocket)
    (hallocated : outcome.allocated = true)
    (hbest : bestCar state.cars (stringToFloor source)
      (stringToFloor destination) = some (record, car)) (j : Nat) :
    queueAt (callStep state socket source destination outcome).1.cars j =
        (if record = j then
          (addToCarQueue true car (stringToFloor source)
            (stringToFloor destination)).1.queue
        else queueAt state.cars j) ∧
      requestsOf j (callStep state socket source destination outcome).2 =
        (if record = j then
          [(stringToFloor source, stringToFloor destination)] else []) ∧
      removedFrom j (callStep state socket source destination outcome).2 = [] := by
  have hold := getElem?_of_bestCar hbest
  have hidentity := addToCarQueue_identity true car (stringToFloor source)
    (stringToFloor destination)
  have hselected := sendNextDestination_selected hsockets hold hidentity
    outcome.orderSent
  obtain ⟨destination', hcars⟩ := sendNextDestination_cars state record
    (addToCarQueue true car (stringToFloor source) (stringToFloor destination)).1
    outcome.orderSent
  obtain ⟨hrequests, hremoved⟩ := sendNextDestination_events state record
    (addToCarQueue true car (stringToFloor source) (stringToFloor destination)).1
    outcome.orderSent j
  refine ⟨?_, ?_, ?_⟩
  · rw [callStep_cars hallocated hbest, hcars, queueAt_set hold]
  · simp only [callStep, handleElevatorCall, hbest, hallocated,
      addToCarQueue_allocated, if_true, hselected]
    split <;> simp [hrequests]
  · simp only [callStep, handleElevatorCall, hbest, hallocated,
      addToCarQueue_allocated, if_true, hselected]
    split <;> simp [hremoved]

/-- A call changes the queue and the destination of a record, and nothing
else. -/
theorem callStep_map {α : Type} (state : ControllerState) (socket : Int)
    (source destination : CString 4) (outcome : CallOutcome)
    (field : ConnectedCar → α)
    (hfield : ∀ car queue destination, field { car with
      queue := queue, destinationfloor := destination } = field car) :
    (callStep state socket source destination outcome).1.cars.map field =
      state.cars.map field := by
  cases hbest : bestCar state.cars (stringToFloor source)
      (stringToFloor destination) with
  | none => rw [(callStep_refused _ _ (.inl hbest)).1]
  | some found =>
      obtain ⟨record, car⟩ := found
      cases hallocated : outcome.allocated with
      | false => rw [(callStep_refused _ _ (.inr hallocated)).1]
      | true =>
          obtain ⟨destination', hcars⟩ := sendNextDestination_cars state record
            (addToCarQueue true car (stringToFloor source)
              (stringToFloor destination)).1 outcome.orderSent
          rw [callStep_cars hallocated hbest, hcars]
          apply map_set_of_same (getElem?_of_bestCar hbest)
          rw [addToCarQueue_frame]
          exact hfield car _ _

theorem callStep_identity (state : ControllerState) (socket : Int)
    (source destination : CString 4) (outcome : CallOutcome) :
    (callStep state socket source destination outcome).1.cars.map
        ConnectedCar.identity =
      state.cars.map ConnectedCar.identity :=
  callStep_map _ _ _ _ _ _ fun _ _ _ => rfl

end CallStep

theorem map_connectionsocket_of_identity {first second : List ConnectedCar}
    (hmap : first.map ConnectedCar.identity = second.map ConnectedCar.identity) :
    first.map (·.connectionsocket) = second.map (·.connectionsocket) := by
  have hboth := congrArg (List.map Prod.snd) hmap
  rwa [List.map_map, List.map_map] at hboth

/-- Sockets are only ever handed over with their records. -/
theorem sockets_of_identity {first second : List ConnectedCar}
    (hmap : first.map ConnectedCar.identity = second.map ConnectedCar.identity)
    (hsockets : ∀ car ∈ second, 0 ≤ car.connectionsocket) :
    ∀ car ∈ first, 0 ≤ car.connectionsocket := by
  intro car hcar
  have hmem : car.identity ∈ second.map ConnectedCar.identity :=
    hmap ▸ List.mem_map_of_mem hcar
  obtain ⟨other, hother, hsame⟩ := List.mem_map.mp hmem
  have hsocket : other.connectionsocket = car.connectionsocket :=
    congrArg Prod.snd hsame
  exact hsocket ▸ hsockets other hother

end Elevator
