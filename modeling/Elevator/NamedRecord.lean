/-
The record that bears a name first.  A report finds its sender by socket and
updates by name; all that it does to the registry it does to that record.
-/
import Elevator.OwnRecord

namespace Elevator

open CText

/-- The record that an update by name reaches. -/
def firstNamed (cars : List ConnectedCar) (name : CString 50) :
    Option ConnectedCar :=
  cars.find? fun car => car.name = name

theorem controllerGetNameBySocket_eq_some {cars : List ConnectedCar}
    {socket : Int} {name : CString 50}
    (hname : controllerGetNameBySocket cars socket = some name) :
    ∃ car ∈ cars, car.connectionsocket = socket ∧ car.name = name := by
  obtain ⟨car, hfind, hcar⟩ := Option.map_eq_some_iff.mp hname
  exact ⟨car, List.mem_of_find?_eq_some hfind,
    by simpa using List.find?_some hfind, hcar⟩

theorem controllerGetNameBySocket_eq_none {cars : List ConnectedCar}
    {socket : Int} (hname : controllerGetNameBySocket cars socket = none) :
    ∀ car ∈ cars, car.connectionsocket ≠ socket := by
  intro car hcar
  rw [controllerGetNameBySocket, Option.map_eq_none_iff,
    List.find?_eq_none] at hname
  simpa using hname car hcar

theorem exists_firstNamed {cars : List ConnectedCar} {name : CString 50}
    {car : ConnectedCar} (hcar : car ∈ cars) (hname : car.name = name) :
    ∃ first, firstNamed cars name = some first :=
  Option.isSome_iff_exists.mp (List.find?_isSome.mpr ⟨car, hcar, by simpa using hname⟩)

theorem controllerGetNameBySocket_of_identity {first second : List ConnectedCar}
    (hmap : first.map ConnectedCar.identity = second.map ConnectedCar.identity)
    (socket : Int) :
    controllerGetNameBySocket first socket =
      controllerGetNameBySocket second socket := by
  have heq (cars : List ConnectedCar) :
      controllerGetNameBySocket cars socket =
        ((cars.map ConnectedCar.identity).find? (·.2 = socket)).map (·.1) := by
    rw [controllerGetNameBySocket, List.find?_map, Option.map_map]
    rfl
  rw [heq, heq, hmap]

theorem firstNamed_cons (car : ConnectedCar) (rest : List ConnectedCar)
    (name : CString 50) :
    firstNamed (car :: rest) name =
      if car.name = name then some car else firstNamed rest name := by
  by_cases heq : car.name = name <;> simp [firstNamed, heq]

@[simp] theorem setField_name (opCode : Nat) (newValue : List Char)
    (car : ConnectedCar) : (setField opCode newValue car).name = car.name := by
  unfold setField
  split <;> rfl

@[simp] theorem removeFromCarQueue_name (car : ConnectedCar) :
    (removeFromCarQueue car).1.name = car.name := by
  rw [removeFromCarQueue_car]

theorem firstNamed_controllerSet (cars : List ConnectedCar) (name : CString 50)
    (opCode : Nat) (newValue : List Char) :
    firstNamed (controllerSet cars name opCode newValue) name =
      (firstNamed cars name).map (setField opCode newValue) := by
  induction cars with
  | nil => rfl
  | cons head rest ih =>
      by_cases hhead : head.name = name
      · simp [controllerSet, hhead, firstNamed_cons]
      · simp [controllerSet, hhead, firstNamed_cons, ih]

theorem controllerSet_eq_self {cars : List ConnectedCar} {name : CString 50}
    {opCode : Nat} {newValue : List Char}
    (hsame : ∀ car ∈ firstNamed cars name, setField opCode newValue car = car) :
    controllerSet cars name opCode newValue = cars := by
  induction cars with
  | nil => rfl
  | cons head rest ih =>
      rw [firstNamed_cons] at hsame
      by_cases hhead : head.name = name
      · simp [controllerSet, hhead, hsame head (by simp [hhead])]
      · rw [if_neg hhead] at hsame
        simp [controllerSet, hhead, ih hsame]

theorem firstNamed_statusLoop (socket : Int) (name : CString 50)
    (reported : CString 4) (cars : List ConnectedCar) (j : Nat) (sends : Bool) :
    firstNamed (statusLoop socket name reported cars j sends).1 name =
      (firstNamed cars name).map cycleEnded := by
  induction cars generalizing j with
  | nil => rfl
  | cons head rest ih =>
      by_cases hhead : head.name = name
      · simp only [statusLoop, if_pos hhead]
        split_ifs with hclosed <;>
          simp [firstNamed_cons, hhead, cycleEnded, hclosed]
      · simp [statusLoop, hhead, firstNamed_cons, ih]

/-- Without a door cycle that has ended the loop does nothing. -/
theorem statusLoop_eq_self {name : CString 50} {cars : List ConnectedCar}
    (hopen : ∀ car ∈ firstNamed cars name, doorsClosed car = false)
    (socket : Int) (reported : CString 4) (j : Nat) (sends : Bool) :
    statusLoop socket name reported cars j sends = (cars, true, []) := by
  induction cars generalizing j with
  | nil => rfl
  | cons head rest ih =>
      rw [firstNamed_cons] at hopen
      by_cases hhead : head.name = name
      · simp [statusLoop, hhead, hopen head (by simp [hhead])]
      · rw [if_neg hhead] at hopen
        simp [statusLoop, hhead, ih hopen]

/-- The first record of the name is replaced by what `update` makes of it. -/
def updateNamed (cars : List ConnectedCar) (name : CString 50)
    (update : ConnectedCar → ConnectedCar) : List ConnectedCar :=
  match cars with
  | [] => []
  | car :: rest =>
      if car.name = name then update car :: rest
      else car :: updateNamed rest name update

theorem controllerSet_eq_updateNamed (cars : List ConnectedCar)
    (name : CString 50) (opCode : Nat) (newValue : List Char) :
    controllerSet cars name opCode newValue =
      updateNamed cars name (setField opCode newValue) := by
  induction cars with
  | nil => rfl
  | cons head rest ih => simp only [controllerSet, updateNamed, ih]

theorem updateNamed_updateNamed {first : ConnectedCar → ConnectedCar}
    (hname : ∀ car, (first car).name = car.name) (cars : List ConnectedCar)
    (name : CString 50) (second : ConnectedCar → ConnectedCar) :
    updateNamed (updateNamed cars name first) name second =
      updateNamed cars name (second ∘ first) := by
  induction cars with
  | nil => rfl
  | cons head rest ih =>
      by_cases hhead : head.name = name
      · simp [updateNamed, hhead, hname]
      · simp [updateNamed, hhead, ih]

/-- All that an update by name does: it changes one entry of the list, or there
is no record of the name. -/
theorem updateNamed_cases (cars : List ConnectedCar) (name : CString 50)
    (update : ConnectedCar → ConnectedCar) :
    firstNamed cars name = none ∧ updateNamed cars name update = cars ∨
      ∃ record first, cars.findIdx? (fun car => car.name = name) = some record ∧
        cars[record]? = some first ∧ firstNamed cars name = some first ∧
        updateNamed cars name update = cars.set record (update first) := by
  induction cars with
  | nil => exact Or.inl ⟨rfl, rfl⟩
  | cons head rest ih =>
      rw [firstNamed_cons, List.findIdx?_cons, updateNamed]
      by_cases hhead : head.name = name
      · rw [if_pos hhead, if_pos hhead, if_pos (decide_eq_true hhead)]
        exact Or.inr ⟨0, head, rfl, rfl, rfl, rfl⟩
      · rw [if_neg hhead, if_neg hhead, if_neg (by simpa using hhead)]
        rcases ih with ⟨hnone, hsame⟩ | ⟨record, first, hindex, hget, hfirst, hset⟩
        · exact Or.inl ⟨hnone, by rw [hsame]⟩
        · refine Or.inr ⟨record + 1, first, by rw [hindex, Option.map_some], hget,
            hfirst, ?_⟩
          rw [hset, List.set_cons_succ]

/-- A record after an update by name is the one before it, or it is the first of
the name, updated. -/
theorem getElem?_updateNamed {cars : List ConnectedCar} {name : CString 50}
    {update : ConnectedCar → ConnectedCar} {j : Nat} {before after : ConnectedCar}
    (hbefore : cars[j]? = some before)
    (hafter : (updateNamed cars name update)[j]? = some after) :
    after = before ∨ firstNamed cars name = some before ∧ after = update before := by
  rcases updateNamed_cases cars name update with
    ⟨-, hsame⟩ | ⟨record, first, -, hget, hfirst, hset⟩
  · rw [hsame, hbefore, Option.some.injEq] at hafter
    exact Or.inl hafter.symm
  · rw [hset] at hafter
    by_cases hj : record = j
    · subst hj
      rw [hget, Option.some.injEq] at hbefore
      rw [List.getElem?_set_self (List.getElem?_eq_some_iff.mp hget).1,
        Option.some.injEq] at hafter
      exact Or.inr ⟨hbefore ▸ hfirst, hbefore ▸ hafter.symm⟩
    · rw [List.getElem?_set_ne hj, hbefore, Option.some.injEq] at hafter
      exact Or.inl hafter.symm

theorem exists_updateNamed {cars : List ConnectedCar} {name : CString 50}
    {first : ConnectedCar} (hfirst : firstNamed cars name = some first)
    (update : ConnectedCar → ConnectedCar) :
    ∃ j : Nat, cars[j]? = some first ∧
      (updateNamed cars name update)[j]? = some (update first) := by
  rcases updateNamed_cases cars name update with
    ⟨hnone, -⟩ | ⟨record, found, -, hget, hfound, hset⟩
  · rw [hnone] at hfirst
    cases hfirst
  · rw [hfound, Option.some.injEq] at hfirst
    subst hfirst
    refine ⟨record, hget, ?_⟩
    rw [hset, List.getElem?_set_self (List.getElem?_eq_some_iff.mp hget).1]

theorem mem_updateNamed {cars : List ConnectedCar} {name : CString 50}
    {update : ConnectedCar → ConnectedCar} {car : ConnectedCar}
    (hcar : car ∈ updateNamed cars name update) :
    car ∈ cars ∨ ∃ before ∈ cars, car = update before := by
  rcases updateNamed_cases cars name update with
    ⟨-, hsame⟩ | ⟨record, first, -, hget, -, hset⟩
  · rw [hsame] at hcar
    exact Or.inl hcar
  · rw [hset] at hcar
    rcases List.mem_or_eq_of_mem_set hcar with hold | hnew
    · exact Or.inl hold
    · exact Or.inr ⟨first, List.mem_of_getElem? hget, hnew⟩

/-- The records a step finds do not show doors that have just closed: whichever
report completes a cycle, its own step deals with it. -/
def NoneClosed (cars : List ConnectedCar) : Prop :=
  ∀ car ∈ cars, doorsClosed car = false

/-- With no such record left behind, the loop deals with the first of the name
only, also where it goes on after an order that could not be sent. -/
theorem statusLoop_cars {cars : List ConnectedCar} (hnone : NoneClosed cars)
    (update : ConnectedCar → ConnectedCar)
    (hupdate : ∀ car, (update car).name = car.name) (socket : Int)
    (name : CString 50) (reported : CString 4) (j : Nat) (sends : Bool) :
    (statusLoop socket name reported (updateNamed cars name update) j sends).1 =
      updateNamed cars name (cycleEnded ∘ update) := by
  induction cars generalizing j with
  | nil => rfl
  | cons head rest ih =>
      obtain ⟨-, hrest⟩ := List.forall_mem_cons.mp hnone
      by_cases hhead : head.name = name
      · have hstays := statusLoop_eq_self
          (fun car (hcar : car ∈ firstNamed rest name) =>
            hrest car (List.mem_of_find?_eq_some hcar))
          socket reported (j + 1) false
        simp only [updateNamed, if_pos hhead, statusLoop, hupdate, hstays]
        simp only [Function.comp_apply, cycleEnded]
        split_ifs <;> rfl
      · simp [updateNamed, hhead, statusLoop, ih hrest]

/-- A report completes a door cycle of the record, and there is a stop after the
one that was made. -/
def OrderDue (statusStr : CString 8) (car : ConnectedCar) : Prop :=
  car.previousStatus = statusNames .Closing ∧
    statusStr = statusNames .Closed ∧
    getNextDestination (removeFromCarQueue car).1 ≠ -1

instance (statusStr : CString 8) (car : ConnectedCar) :
    Decidable (OrderDue statusStr car) :=
  inferInstanceAs (Decidable (_ ∧ _ ∧ _))

/-- The sender's socket stays open unless an order is due that cannot be sent. -/
theorem statusLoop_isOpen (socket : Int) (name : CString 50)
    (reported : CString 4) (cars : List ConnectedCar) (j : Nat) (sends : Bool) :
    (statusLoop socket name reported cars j sends).2.1 = true ↔
      ∀ car ∈ firstNamed cars name, doorsClosed car = true →
        getNextDestination (removeFromCarQueue car).1 ≠ -1 → sends = true := by
  induction cars generalizing j with
  | nil => simp [statusLoop, firstNamed]
  | cons head rest ih =>
      by_cases hhead : head.name = name
      · simp only [statusLoop, if_pos hhead, firstNamed_cons]
        split_ifs <;> simp_all
      · simpa [statusLoop, hhead, firstNamed_cons] using ih (j + 1)

theorem sent_statusLoop_iff (socket receiver : Int) (message : ControllerMessage)
    (name : CString 50) (reported : CString 4) (cars : List ConnectedCar)
    (j : Nat) (sends : Bool) :
    .sent receiver message ∈
        (statusLoop socket name reported cars j sends).2.2 ↔
      ∃ car ∈ firstNamed cars name, doorsClosed car = true ∧
        getNextDestination (removeFromCarQueue car).1 ≠ -1 ∧ sends = true ∧
        receiver = socket ∧ message =
          .floor (floorToString (getNextDestination (removeFromCarQueue car).1)) := by
  induction cars generalizing j with
  | nil => simp [statusLoop, firstNamed]
  | cons head rest ih =>
      by_cases hhead : head.name = name
      · simp only [statusLoop, if_pos hhead, firstNamed_cons]
        split_ifs <;> simp_all
      · simpa [statusLoop, hhead, firstNamed_cons] using ih (j + 1)

section Report

variable {state : ControllerState} {socket : Int} {name : CString 50}
  (statusStr : CString 8) (currentFloor destinationFloor : CString 4)
  (sends : Bool)

theorem firstNamed_reportedCars (cars : List ConnectedCar) :
    firstNamed (reportedCars cars name statusStr currentFloor destinationFloor)
        name =
      (firstNamed cars name).map
        (reportedCar · statusStr currentFloor destinationFloor) := by
  rw [reportedCars, firstNamed_controllerSet, firstNamed_controllerSet,
    firstNamed_controllerSet, Option.map_map, Option.map_map]
  congr 1
  funext car
  simp [setField, reportedCar]

variable {statusStr} in
theorem orderDue_iff (car : ConnectedCar) : OrderDue statusStr car ↔
    doorsClosed (reportedCar car statusStr currentFloor destinationFloor) = true ∧
      getNextDestination (removeFromCarQueue (reportedCar car statusStr
        currentFloor destinationFloor)).1 ≠ -1 := by
  rw [doorsClosed_reportedCar, OrderDue, removeFromCarQueue_car,
    removeFromCarQueue_car, and_assoc]
  rfl

theorem sent_statusStep_iff (receiver : Int) (message : ControllerMessage)
    (hname : controllerGetNameBySocket state.cars socket = some name) :
    .sent receiver message ∈ (statusStep state socket statusStr currentFloor
        destinationFloor sends).2 ↔
      ∃ car ∈ firstNamed state.cars name, OrderDue statusStr car ∧
        sends = true ∧ receiver = socket ∧ message =
          .floor (floorToString (getNextDestination (removeFromCarQueue car).1)) := by
  have hnext (car : ConnectedCar) :
      getNextDestination (removeFromCarQueue (reportedCar car statusStr
        currentFloor destinationFloor)).1 =
          getNextDestination (removeFromCarQueue car).1 := by
    rw [removeFromCarQueue_car, removeFromCarQueue_car]
    rfl
  rw [statusStep_events hname, sent_statusLoop_iff, firstNamed_reportedCars]
  simp [orderDue_iff currentFloor destinationFloor, hnext, and_assoc]

/-- A report closes the sender's socket at most. -/
theorem statusStep_masterSet
    (hname : controllerGetNameBySocket state.cars socket = some name) :
    (statusStep state socket statusStr currentFloor destinationFloor
        sends).1.masterSet =
      if ∀ car ∈ firstNamed state.cars name,
          OrderDue statusStr car → sends = true then state.masterSet
      else state.masterSet.filter (· ≠ socket) := by
  have hopen := statusLoop_isOpen socket name currentFloor
    (reportedCars state.cars name statusStr currentFloor destinationFloor) 0 sends
  have hset : (statusStep state socket statusStr currentFloor destinationFloor
      sends).1.masterSet =
        if (statusLoop socket name currentFloor (reportedCars state.cars name
            statusStr currentFloor destinationFloor) 0 sends).2.1 = true then
          state.masterSet
        else state.masterSet.filter (· ≠ socket) := by
    simp only [statusStep, hname, reportedCars]
    rw [apply_ite ControllerState.masterSet]
    rfl
  rw [hset]
  refine if_congr (hopen.trans ?_) rfl rfl
  rw [firstNamed_reportedCars]
  simp [orderDue_iff currentFloor destinationFloor]

/-- The whole of a report in one update. -/
theorem statusStep_cars_eq (hnone : NoneClosed state.cars)
    (hname : controllerGetNameBySocket state.cars socket = some name) :
    (statusStep state socket statusStr currentFloor destinationFloor
        sends).1.cars =
      updateNamed state.cars name
        (recordAfter · statusStr currentFloor destinationFloor) := by
  have hreported : reportedCars state.cars name statusStr currentFloor
      destinationFloor = updateNamed state.cars name
        (reportedCar · statusStr currentFloor destinationFloor) := by
    rw [reportedCars, controllerSet_eq_updateNamed, controllerSet_eq_updateNamed,
      controllerSet_eq_updateNamed,
      updateNamed_updateNamed (setField_name _ _),
      updateNamed_updateNamed (by simp)]
    congr 1
    funext car
    simp [setField, reportedCar]
  have hsame (car : ConnectedCar) : ((cycleEnded ∘
      (reportedCar · statusStr currentFloor destinationFloor)) car).name =
        car.name := by
    simp only [Function.comp_apply, cycleEnded]
    split
    · exact removeFromCarQueue_name _
    · rfl
  rw [statusStep_cars hname, hreported, statusLoop_cars hnone
      (reportedCar · statusStr currentFloor destinationFloor) fun _ => rfl,
    controllerSet_eq_updateNamed,
    updateNamed_updateNamed hsame]
  congr 1
  funext car
  simp only [Function.comp_apply, setField, recordAfter, CString.store_self]

theorem firstNamed_statusStep
    (hname : controllerGetNameBySocket state.cars socket = some name) :
    firstNamed (statusStep state socket statusStr currentFloor destinationFloor
        sends).1.cars name =
      (firstNamed state.cars name).map
        (recordAfter · statusStr currentFloor destinationFloor) := by
  rw [statusStep_cars hname, firstNamed_controllerSet, firstNamed_statusLoop,
    firstNamed_reportedCars, Option.map_map, Option.map_map]
  congr 1
  funext car
  simp only [Function.comp_apply, setField, recordAfter, CString.store_self]

/-- A record that already says what a report says, also about the status before
it. -/
def UpToDate (statusStr : CString 8) (currentFloor destinationFloor : CString 4)
    (car : ConnectedCar) : Prop :=
  car.status = statusStr ∧ car.currentfloor = currentFloor ∧
    car.destinationfloor = destinationFloor ∧ car.previousStatus = statusStr

instance (statusStr : CString 8) (currentFloor destinationFloor : CString 4)
    (car : ConnectedCar) :
    Decidable (UpToDate statusStr currentFloor destinationFloor car) :=
  inferInstanceAs (Decidable (_ ∧ _ ∧ _ ∧ _))

theorem UpToDate.doorsClosed {statusStr : CString 8}
    {currentFloor destinationFloor : CString 4} {car : ConnectedCar}
    (hsame : UpToDate statusStr currentFloor destinationFloor car) :
    doorsClosed car = false := by
  obtain ⟨hstatus, -, -, hprevious⟩ := hsame
  simp only [Elevator.doorsClosed, hstatus, hprevious]
  by_cases hclosing : statusStr = statusNames .Closing
  · simp [hclosing]
  · simp [hclosing]

theorem recordAfter_upToDate (car : ConnectedCar) :
    UpToDate statusStr currentFloor destinationFloor
      (recordAfter car statusStr currentFloor destinationFloor) := by
  unfold recordAfter cycleEnded
  split
  · rw [removeFromCarQueue_car]
    exact ⟨rfl, rfl, rfl, rfl⟩
  · exact ⟨rfl, rfl, rfl, rfl⟩

/-- A report that tells the first record of the name nothing new changes and
sends nothing. -/
theorem statusStep_eq_self
    (hname : controllerGetNameBySocket state.cars socket = some name)
    (hsame : ∀ car ∈ firstNamed state.cars name,
      UpToDate statusStr currentFloor destinationFloor car) :
    statusStep state socket statusStr currentFloor destinationFloor sends =
      (state, []) := by
  have hset (opCode : Nat) (newValue : List Char)
      (hfield : ∀ car, UpToDate statusStr currentFloor destinationFloor car →
        setField opCode newValue car = car) :
      controllerSet state.cars name opCode newValue = state.cars :=
    controllerSet_eq_self fun car hcar => hfield car (hsame car hcar)
  have hstatus := hset 3 statusStr.chars (by
    rintro car ⟨hstatus, -⟩
    simp [setField, ← hstatus])
  have hcurrent := hset 4 currentFloor.chars (by
    rintro car ⟨-, hcurrent, -⟩
    simp [setField, ← hcurrent])
  have hdestination := hset 5 destinationFloor.chars (by
    rintro car ⟨-, -, hdestination, -⟩
    simp [setField, ← hdestination])
  have hprevious := hset 7 statusStr.chars (by
    rintro car ⟨-, -, -, hprevious⟩
    simp [setField, ← hprevious])
  have hloop := statusLoop_eq_self
    (fun car hcar => (hsame car hcar).doorsClosed) socket currentFloor 0 sends
  simp only [statusStep, hname, hstatus, hcurrent, hdestination, hloop,
    hprevious, if_true]

end Report

/-- A report that comes again changes and sends nothing, whatever became of the
first. -/
theorem statusStep_again (state : ControllerState) (socket : Int)
    (statusStr : CString 8) (currentFloor destinationFloor : CString 4)
    (sends again : Bool) :
    statusStep (statusStep state socket statusStr currentFloor destinationFloor
        sends).1 socket statusStr currentFloor destinationFloor again =
      ((statusStep state socket statusStr currentFloor destinationFloor
        sends).1, []) := by
  cases hname : controllerGetNameBySocket state.cars socket with
  | none => rw [statusStep_none hname, statusStep_none hname]
  | some name =>
      have hname' : controllerGetNameBySocket (statusStep state socket statusStr
          currentFloor destinationFloor sends).1.cars socket = some name := by
        rw [controllerGetNameBySocket_of_identity
          (statusStep_identity state socket statusStr currentFloor
            destinationFloor sends), hname]
      apply statusStep_eq_self _ _ _ _ hname'
      intro car hcar
      rw [firstNamed_statusStep _ _ _ _ hname] at hcar
      obtain ⟨before, -, rfl⟩ := Option.map_eq_some_iff.mp hcar
      exact recordAfter_upToDate statusStr currentFloor destinationFloor before

end Elevator
