/-
A record of one's own.  If no other record has a car's name or socket, its
reports reach its record and no other, and orders for it go to its socket.
-/
import Elevator.Registry

namespace Elevator

open CText

/-- Record `j` is this car, and no other record has its name or its socket. -/
structure OwnRecord (j : Nat) (cars : List ConnectedCar) (car : ConnectedCar) :
    Prop where
  record : cars[j]? = some car
  unique : ∀ i other, cars[i]? = some other →
    other.name = car.name ∨ other.connectionsocket = car.connectionsocket → i = j

def ordersTo (socket : Int) (log : List ControllerEvent) : List (CString 4) :=
  log.filterMap fun
    | .sent receiver (.floor label) =>
        if receiver = socket then some label else none
    | _ => none

@[simp] theorem ordersTo_nil (socket : Int) : ordersTo socket [] = [] := rfl

@[simp] theorem ordersTo_append (socket : Int)
    (first second : List ControllerEvent) :
    ordersTo socket (first ++ second) =
      ordersTo socket first ++ ordersTo socket second :=
  List.filterMap_append

@[simp] theorem ordersTo_floor (socket receiver : Int) (label : CString 4) :
    ordersTo socket [.sent receiver (.floor label)] =
      if receiver = socket then [label] else [] := by
  by_cases heq : receiver = socket <;> simp [ordersTo, heq]

@[simp] theorem ordersTo_car (socket receiver : Int)
    (selectedCar : CString 50) :
    ordersTo socket [.sent receiver (.car selectedCar)] = [] := rfl

@[simp] theorem ordersTo_unavailable (socket receiver : Int) :
    ordersTo socket [.sent receiver .unavailable] = [] := rfl

@[simp] theorem ordersTo_assigned (socket : Int) (record : Nat)
    (sourceFloor destFloor : Int) (log : List ControllerEvent) :
    ordersTo socket (.assigned record sourceFloor destFloor :: log) =
      ordersTo socket log := rfl

@[simp] theorem ordersTo_removals (socket : Int) (record : Nat)
    (reported : CString 4) (stops : List QueueNode) :
    ordersTo socket (stops.map fun stop => .removed record stop reported) = [] := by
  rw [ordersTo, List.filterMap_map]
  exact List.filterMap_eq_nil_iff.mpr fun _ _ => rfl

/-- Uniqueness is a matter of names and sockets only. -/
theorem OwnRecord.of_identity {j : Nat} {before after : List ConnectedCar}
    {car new : ConnectedCar} (hown : OwnRecord j before car)
    (hmap : after.map ConnectedCar.identity = before.map ConnectedCar.identity)
    (hnew : after[j]? = some new) : OwnRecord j after new := by
  have hsame {i : Nat} {other : ConnectedCar} (hother : after[i]? = some other) :
      ∃ old, before[i]? = some old ∧ old.identity = other.identity := by
    have hget := congrArg (·[i]?) hmap
    simp only [List.getElem?_map, hother, Option.map_some] at hget
    obtain ⟨old, hold, hidentity⟩ := Option.map_eq_some_iff.mp hget.symm
    exact ⟨old, hold, hidentity⟩
  obtain ⟨hrecord, hunique⟩ := hown
  obtain ⟨old, hold, hidentity⟩ := hsame hnew
  obtain rfl : old = car := Option.some.inj (hold.symm.trans hrecord)
  have hname : new.name = old.name := (congrArg Prod.fst hidentity).symm
  have hsocket : new.connectionsocket = old.connectionsocket :=
    (congrArg Prod.snd hidentity).symm
  refine ⟨hnew, fun i other hother hclash => ?_⟩
  obtain ⟨first, hfirst, hother'⟩ := hsame hother
  have hname' : first.name = other.name := congrArg Prod.fst hother'
  have hsocket' : first.connectionsocket = other.connectionsocket :=
    congrArg Prod.snd hother'
  rw [hname, hsocket, ← hname', ← hsocket'] at hclash
  exact hunique i first hfirst hclash

theorem OwnRecord.exists_of_identity {j : Nat} {before after : List ConnectedCar}
    {car : ConnectedCar} (hown : OwnRecord j before car)
    (hmap : after.map ConnectedCar.identity = before.map ConnectedCar.identity) :
    ∃ new, OwnRecord j after new ∧
      new.connectionsocket = car.connectionsocket := by
  have hget := congrArg (·[j]?) hmap
  simp only [List.getElem?_map, hown.record, Option.map_some] at hget
  obtain ⟨new, hnew, hidentity⟩ := Option.map_eq_some_iff.mp hget
  exact ⟨new, hown.of_identity hmap hnew, congrArg Prod.snd hidentity⟩

section Lookups

variable {j : Nat} {cars : List ConnectedCar} {car : ConnectedCar}

/-- Who has the name or the socket is the car. -/
theorem OwnRecord.eq_of_clash (hown : OwnRecord j cars car)
    {other : ConnectedCar} (hother : other ∈ cars)
    (hclash : other.name = car.name ∨
      other.connectionsocket = car.connectionsocket) : other = car := by
  obtain ⟨i, hi⟩ := List.mem_iff_getElem?.mp hother
  obtain rfl := hown.unique i other hi hclash
  exact Option.some.inj (hi.symm.trans hown.record)

theorem OwnRecord.find?_eq (hown : OwnRecord j cars car)
    {sought : ConnectedCar → Bool} (hcar : sought car = true)
    (hclash : ∀ other, sought other = true → other.name = car.name ∨
      other.connectionsocket = car.connectionsocket) :
    cars.find? sought = some car := by
  cases hfind : cars.find? sought with
  | none =>
      have hnone := List.find?_eq_none.mp hfind car
        (List.mem_of_getElem? hown.record)
      exact absurd hcar hnone
  | some found =>
      have hsought := hclash found (List.find?_some hfind)
      rw [hown.eq_of_clash (List.mem_of_find?_eq_some hfind) hsought]

theorem controllerGetNameBySocket_own (hown : OwnRecord j cars car) :
    controllerGetNameBySocket cars car.connectionsocket = some car.name := by
  rw [controllerGetNameBySocket, hown.find?_eq (by simp)]
  · rfl
  · intro other hsocket
    exact Or.inr (by simpa using hsocket)

/-- Nobody else reports under the car's name. -/
theorem controllerGetNameBySocket_other (hown : OwnRecord j cars car)
    {socket : Int} (hsocket : socket ≠ car.connectionsocket) :
    controllerGetNameBySocket cars socket ≠ some car.name := by
  intro hname
  rw [controllerGetNameBySocket, Option.map_eq_some_iff] at hname
  obtain ⟨found, hfind, hname⟩ := hname
  have hfound := List.find?_some hfind
  simp only [decide_eq_true_eq] at hfound
  rw [hown.eq_of_clash (List.mem_of_find?_eq_some hfind) (.inl hname)] at hfound
  exact hsocket hfound.symm

theorem controllerGetSocketByName_own (hown : OwnRecord j cars car) :
    controllerGetSocketByName cars car.name = car.connectionsocket := by
  rw [controllerGetSocketByName, hown.find?_eq (by simp)]
  · rfl
  · intro other hname
    exact Or.inl (by simpa using hname)

/-- Orders for other cars go to other sockets. -/
theorem controllerGetSocketByName_other (hown : OwnRecord j cars car)
    (hsocket : 0 ≤ car.connectionsocket) {name : CString 50}
    (hname : name ≠ car.name) :
    controllerGetSocketByName cars name ≠ car.connectionsocket := by
  rw [controllerGetSocketByName]
  cases hfind : cars.find? fun other => other.name = name with
  | none =>
      simp only [Option.map_none, Option.getD_none]
      omega
  | some found =>
      have hfound := List.find?_some hfind
      simp only [decide_eq_true_eq] at hfound
      simp only [Option.map_some, Option.getD_some]
      intro hclash
      rw [hown.eq_of_clash (List.mem_of_find?_eq_some hfind) (.inr hclash)] at hfound
      exact hname hfound.symm

end Lookups

section Update

variable {cars : List ConnectedCar} (name : CString 50) {i : Nat}
  {other : ConnectedCar} (opCode : Nat) (newValue : List Char)

theorem controllerSet_getElem?_of_ne (hother : cars[i]? = some other)
    (hne : other.name ≠ name) :
    (controllerSet cars name opCode newValue)[i]? = some other := by
  rw [controllerSet_eq_modify]
  cases hfirst : cars.findIdx? fun car => car.name = name with
  | none => exact hother
  | some k =>
      obtain ⟨hk, hname, -⟩ := List.findIdx?_eq_some_iff_getElem.mp hfirst
      have hki : k ≠ i := by
        rintro rfl
        rw [List.getElem?_eq_getElem hk, Option.some.injEq] at hother
        rw [hother, decide_eq_true_iff] at hname
        exact hne hname
      simp only [List.getElem?_modify, if_neg hki, hother]
      rfl

theorem controllerSet_getElem?_of_unique (hother : cars[i]? = some other)
    (hname : other.name = name)
    (hunique : ∀ k first, cars[k]? = some first → first.name = name → k = i) :
    (controllerSet cars name opCode newValue)[i]? =
      some (setField opCode newValue other) := by
  obtain ⟨hi, hget⟩ := List.getElem?_eq_some_iff.mp hother
  have hfirst : (cars.findIdx? fun car => car.name = name) = some i := by
    apply List.findIdx?_eq_some_iff_getElem.mpr
    refine ⟨hi, by rw [hget, decide_eq_true_iff, hname], fun j hj hearlier => ?_⟩
    rw [decide_eq_true_iff] at hearlier
    have heq := hunique j _ (List.getElem?_eq_getElem (Nat.lt_trans hj hi)) hearlier
    omega
  rw [controllerSet_eq_modify, hfirst]
  simp only [List.getElem?_modify, if_pos, hother]
  rfl

end Update

theorem statusLoop_names (socket : Int) (name : CString 50)
    (reported : CString 4) (cars : List ConnectedCar) (j : Nat) (sends : Bool) :
    (statusLoop socket name reported cars j sends).1.map (·.name) =
      cars.map (·.name) := by
  have hnames := congrArg (List.map Prod.fst)
    (statusLoop_identity socket name reported cars j sends)
  rwa [List.map_map, List.map_map] at hnames

section StatusLoop

variable {cars : List ConnectedCar} (socket : Int) (name : CString 50)
  (reported : CString 4) {i : Nat} {other : ConnectedCar}

theorem statusLoop_getElem?_of_ne (hother : cars[i]? = some other)
    (hne : other.name ≠ name) (j : Nat) (sends : Bool) :
    (statusLoop socket name reported cars j sends).1[i]? = some other := by
  induction cars generalizing i j sends with
  | nil => simp at hother
  | cons head rest ih =>
      cases i with
      | zero =>
          obtain rfl : head = other := by simpa using hother
          simp [statusLoop, hne]
      | succ i =>
          have hrest : rest[i]? = some other := by simpa using hother
          simp only [statusLoop]
          split_ifs <;> simp [hrest, ih hrest]

/-- Another car's report sends no orders to this car's socket. -/
theorem ordersTo_statusLoop_of_ne {receiver : Int} (hne : socket ≠ receiver)
    (cars : List ConnectedCar) (j : Nat) (sends : Bool) :
    ordersTo receiver (statusLoop socket name reported cars j sends).2.2 = [] := by
  induction cars generalizing j sends with
  | nil => rfl
  | cons head rest ih =>
      simp only [statusLoop]
      split_ifs <;> simp [ih, hne]

/-- What the loop sends after it has removed the head of this queue. -/
def nextOrder (car : ConnectedCar) : List (CString 4) :=
  if getNextDestination car = -1 then []
  else [floorToString (getNextDestination car)]

/-- Before the one record of the name the loop passes over others. -/
theorem exists_split_of_unique (hother : cars[i]? = some other)
    (hname : other.name = name)
    (hunique : ∀ k first, cars[k]? = some first → first.name = name → k = i) :
    ∃ before behind, cars = before ++ other :: behind ∧ before.length = i ∧
      ∀ car ∈ before, car.name ≠ name := by
  induction cars generalizing i with
  | nil => simp at hother
  | cons head rest ih =>
      cases i with
      | zero =>
          obtain rfl : head = other := by simpa using hother
          exact ⟨[], rest, rfl, rfl, by simp⟩
      | succ i =>
          have hhead : head.name ≠ name := fun hhead =>
            absurd (hunique 0 head rfl hhead) (by omega)
          have hrest : rest[i]? = some other := by simpa using hother
          obtain ⟨before, behind, rfl, hlength, hothers⟩ := ih hrest (by
            intro k first hfirst hfirst'
            have heq := hunique (k + 1) first (by simpa using hfirst) hfirst'
            omega)
          exact ⟨head :: before, behind, rfl, by simpa using hlength,
            List.forall_mem_cons.mpr ⟨hhead, hothers⟩⟩

/-- It removes the head of that record's queue when the doors have closed. -/
theorem statusLoop_record (hother : cars[i]? = some other)
    (hname : other.name = name)
    (hunique : ∀ k first, cars[k]? = some first → first.name = name → k = i)
    (j : Nat) (sends : Bool) :
    (statusLoop socket name reported cars j sends).1[i]? =
      some (if doorsClosed other then (removeFromCarQueue other).1
        else other) := by
  obtain ⟨before, behind, rfl, rfl, hothers⟩ :=
    exists_split_of_unique name hother hname hunique
  rw [statusLoop_append socket name reported hothers,
    List.getElem?_append_right (Nat.le_refl _), Nat.sub_self]
  simp only [statusLoop, if_pos hname]
  split_ifs <;> simp

/-- There the loop ends, and with it what is sent. -/
theorem ordersTo_statusLoop_own (hother : cars[i]? = some other)
    (hname : other.name = name)
    (hunique : ∀ k first, cars[k]? = some first → first.name = name → k = i)
    (j : Nat) :
    ordersTo socket (statusLoop socket name reported cars j true).2.2 =
      (if doorsClosed other then nextOrder (removeFromCarQueue other).1
      else []) := by
  obtain ⟨before, behind, rfl, rfl, hothers⟩ :=
    exists_split_of_unique name hother hname hunique
  rw [statusLoop_append socket name reported hothers]
  simp only [statusLoop, if_pos hname]
  split_ifs <;> simp_all [nextOrder]

end StatusLoop

section Steps

variable {state : ControllerState} {j : Nat} {car : ConnectedCar}

def reportedCar (car : ConnectedCar) (statusStr : CString 8)
    (currentFloor destinationFloor : CString 4) : ConnectedCar :=
  { car with
    status := statusStr
    currentfloor := currentFloor
    destinationfloor := destinationFloor }

theorem doorsClosed_reportedCar (car : ConnectedCar) (statusStr : CString 8)
    (currentFloor destinationFloor : CString 4) :
    doorsClosed (reportedCar car statusStr currentFloor destinationFloor) = true ↔
      car.previousStatus = statusNames .Closing ∧
        statusStr = statusNames .Closed := by
  simp only [doorsClosed, Bool.and_eq_true, decide_eq_true_eq]
  rfl

/-- What the loop does to the record it stops at. -/
def cycleEnded (car : ConnectedCar) : ConnectedCar :=
  if doorsClosed car then (removeFromCarQueue car).1 else car

/-- The record after a report on the car's socket has been handled. -/
def recordAfter (car : ConnectedCar) (statusStr : CString 8)
    (currentFloor destinationFloor : CString 4) : ConnectedCar :=
  { cycleEnded (reportedCar car statusStr currentFloor destinationFloor) with
    previousStatus := statusStr }

theorem OwnRecord.name_unique (hown : OwnRecord j state.cars car)
    {cars : List ConnectedCar}
    (hmap : cars.map (·.name) = state.cars.map (·.name)) :
    ∀ k first, cars[k]? = some first → first.name = car.name → k = j := by
  intro k first hfirst hfirst'
  have hget := congrArg (·[k]?) hmap
  simp only [List.getElem?_map, hfirst, Option.map_some] at hget
  obtain ⟨old, hold, hold'⟩ := Option.map_eq_some_iff.mp hget.symm
  exact hown.unique k old hold (.inl (hold'.trans hfirst'))

theorem reportedCars_names (cars : List ConnectedCar) (name : CString 50)
    (statusStr : CString 8) (currentFloor destinationFloor : CString 4) :
    (reportedCars cars name statusStr currentFloor destinationFloor).map
      (·.name) = cars.map (·.name) :=
  reportedCars_map _ _ _ _ _ _ (fun _ _ => rfl) (fun _ _ => rfl) fun _ _ => rfl

theorem reportedCars_own (hown : OwnRecord j state.cars car)
    (statusStr : CString 8) (currentFloor destinationFloor : CString 4) :
    (reportedCars state.cars car.name statusStr currentFloor
        destinationFloor)[j]? =
      some (reportedCar car statusStr currentFloor destinationFloor) := by
  have hstatus := controllerSet_getElem?_of_unique car.name 3 statusStr.chars
    hown.record rfl (hown.name_unique rfl)
  have hcurrent := controllerSet_getElem?_of_unique car.name 4
    currentFloor.chars hstatus rfl
    (hown.name_unique (controllerSet_map _ _ _ fun _ => rfl))
  rw [reportedCars, controllerSet_getElem?_of_unique car.name 5 _ hcurrent rfl
    (hown.name_unique ((controllerSet_map _ _ _ fun _ => rfl).trans
      (controllerSet_map _ _ _ fun _ => rfl)))]
  simp [setField, reportedCar]

theorem statusStep_record (hown : OwnRecord j state.cars car)
    (statusStr : CString 8) (currentFloor destinationFloor : CString 4)
    (sends : Bool) :
    (statusStep state car.connectionsocket statusStr currentFloor
        destinationFloor sends).1.cars[j]? =
      some (recordAfter car statusStr currentFloor destinationFloor) := by
  have hreported := reportedCars_own hown statusStr currentFloor destinationFloor
  have hnames := reportedCars_names state.cars car.name statusStr currentFloor
    destinationFloor
  have hrecord := statusLoop_record car.connectionsocket car.name currentFloor
    hreported rfl (hown.name_unique hnames) 0 sends
  rw [statusStep_cars (controllerGetNameBySocket_own hown),
    controllerSet_getElem?_of_unique car.name 7 statusStr.chars hrecord
      (by rw [removeFromCarQueue_car]; split <;> rfl)
      (hown.name_unique ((statusLoop_names _ _ _ _ _ _).trans hnames))]
  simp [setField, recordAfter, cycleEnded]

/-- The car's own report: its record loses its head when the doors have closed,
and the car is told its next floor. -/
theorem statusStep_own (hown : OwnRecord j state.cars car)
    (statusStr : CString 8) (currentFloor destinationFloor : CString 4) :
    let reported := reportedCar car statusStr currentFloor destinationFloor
    let after := statusStep state car.connectionsocket statusStr currentFloor
      destinationFloor true
    queueAt after.1.cars j =
        (if doorsClosed reported then (removeFromCarQueue reported).1.queue
        else car.queue) ∧
      ordersTo car.connectionsocket after.2 =
        (if doorsClosed reported then nextOrder (removeFromCarQueue reported).1
        else []) := by
  intro reported after
  refine ⟨?_, ?_⟩
  · rw [queueAt_of_getElem? (statusStep_record hown _ _ _ _), recordAfter,
      cycleEnded]
    split <;> rfl
  · rw [statusStep_events (controllerGetNameBySocket_own hown)]
    exact ordersTo_statusLoop_own _ _ _
      (reportedCars_own hown statusStr currentFloor destinationFloor) rfl
      (hown.name_unique (reportedCars_names _ _ _ _ _)) 0

/-- Another car's report, or one on a socket no car has, leaves the record and
its orders alone. -/
theorem statusStep_other (hown : OwnRecord j state.cars car) {socket : Int}
    (hsocket : socket ≠ car.connectionsocket) (statusStr : CString 8)
    (currentFloor destinationFloor : CString 4) (sends : Bool) :
    let after := statusStep state socket statusStr currentFloor destinationFloor
      sends
    after.1.cars[j]? = some car ∧ ordersTo car.connectionsocket after.2 = [] := by
  intro after
  cases hname : controllerGetNameBySocket state.cars socket with
  | none =>
      have hafter : after = (state, []) := statusStep_none hname
      rw [hafter]
      exact ⟨hown.record, rfl⟩
  | some name =>
      have hne : car.name ≠ name := fun heq =>
        controllerGetNameBySocket_other hown hsocket (heq ▸ hname)
      refine ⟨?_, ?_⟩
      · rw [statusStep_cars hname]
        apply controllerSet_getElem?_of_ne _ _ _ _ hne
        apply statusLoop_getElem?_of_ne _ _ _ _ hne
        apply controllerSet_getElem?_of_ne _ _ _ _ hne
        apply controllerSet_getElem?_of_ne _ _ _ _ hne
        exact controllerSet_getElem?_of_ne _ _ _ hown.record hne
      · rw [statusStep_events hname]
        exact ordersTo_statusLoop_of_ne _ _ _ hsocket _ _ _

/-- The order of a call goes to the socket of the car that got it. -/
theorem ordersTo_sendNextDestination (hown : OwnRecord j state.cars car)
    (hsocket : 0 ≤ car.connectionsocket) {new : ConnectedCar}
    (hidentity : new.identity = car.identity) :
    ordersTo car.connectionsocket (sendNextDestination state j new true).2.2 =
      if new.destinationfloor = new.currentfloor then nextOrder new else [] := by
  have hfound (destination : CString 4) : controllerGetSocketByName
      (state.cars.set j { new with destinationfloor := destination }) new.name =
        car.connectionsocket := by
    rw [controllerGetSocketByName_ordered hown.record hidentity,
      controllerGetSocketByName_own hown]
  have hne : car.connectionsocket ≠ -1 := by omega
  simp only [sendNextDestination, hfound, if_neg hne, if_true]
  by_cases hhere : new.destinationfloor = new.currentfloor
  · by_cases hnext : getNextDestination new = -1 <;>
      simp [hhere, hnext, nextOrder]
  · simp [hhere]

/-- Nor does an order for another car reach this car's socket. -/
theorem ordersTo_sendNextDestination_other (hown : OwnRecord j state.cars car)
    (hsocket : 0 ≤ car.connectionsocket) {record : Nat} {old new : ConnectedCar}
    (hold : state.cars[record]? = some old) (hne : record ≠ j)
    (hidentity : new.identity = old.identity) (orderSent : Bool) :
    ordersTo car.connectionsocket
      (sendNextDestination state record new orderSent).2.2 = [] := by
  have hother : old.name ≠ car.name := fun heq =>
    hne (hown.unique record old hold (.inl heq))
  have hfound (destination : CString 4) : controllerGetSocketByName
      (state.cars.set record { new with destinationfloor := destination })
        new.name ≠ car.connectionsocket := by
    rw [controllerGetSocketByName_ordered hold hidentity]
    exact controllerGetSocketByName_other hown hsocket hother
  simp only [sendNextDestination]
  split_ifs <;> simp [hfound]

variable (socket : Int) {source destination : CString 4} {outcome : CallOutcome}

/-- The reply to a call is no order. -/
theorem ordersTo_callStep {record : Nat} {found : ConnectedCar}
    (hallocated : outcome.allocated = true)
    (hbest : bestCar state.cars (stringToFloor source)
      (stringToFloor destination) = some (record, found)) (receiver : Int) :
    ordersTo receiver (callStep state socket source destination outcome).2 =
      ordersTo receiver (sendNextDestination state record
        (addToCarQueue true found (stringToFloor source)
          (stringToFloor destination)).1 outcome.orderSent).2.2 := by
  simp only [callStep, handleElevatorCall, hbest, hallocated,
    addToCarQueue_allocated, if_true]
  split_ifs <;> simp

/-- A call that this car gets: the request is put into its queue, and it is
told its next floor if it has nowhere to go. -/
theorem callStep_own (hown : OwnRecord j state.cars car)
    (hsocket : 0 ≤ car.connectionsocket) (hallocated : outcome.allocated = true)
    (hsent : outcome.orderSent = true) {found : ConnectedCar}
    (hbest : bestCar state.cars (stringToFloor source)
      (stringToFloor destination) = some (j, found)) :
    let queued := (addToCarQueue true car (stringToFloor source)
      (stringToFloor destination)).1
    let after := callStep state socket source destination outcome
    queueAt after.1.cars j = queued.queue ∧
      ordersTo car.connectionsocket after.2 =
        if car.destinationfloor = car.currentfloor then nextOrder queued
        else [] := by
  intro queued after
  obtain rfl : found = car :=
    Option.some.inj ((getElem?_of_bestCar hbest).symm.trans hown.record)
  have hframe := addToCarQueue_frame true found (stringToFloor source)
    (stringToFloor destination)
  have hidentity : queued.identity = found.identity :=
    addToCarQueue_identity true found _ _
  have hdestination : queued.destinationfloor = found.destinationfloor := by
    rw [show queued = _ from hframe]
  have hcurrent : queued.currentfloor = found.currentfloor := by
    rw [show queued = _ from hframe]
  refine ⟨?_, ?_⟩
  · obtain ⟨destination', hcars⟩ :=
      sendNextDestination_cars state j queued outcome.orderSent
    rw [callStep_cars hallocated hbest, hcars, queueAt_set hown.record, if_pos rfl]
  · rw [ordersTo_callStep socket hallocated hbest, hsent,
      ordersTo_sendNextDestination hown hsocket hidentity, hdestination, hcurrent]

/-- A call that another car gets, or none. -/
theorem callStep_other (hown : OwnRecord j state.cars car)
    (hsocket : 0 ≤ car.connectionsocket)
    (hother : outcome.allocated = true → ∀ found ∈ bestCar state.cars
      (stringToFloor source) (stringToFloor destination), found.1 ≠ j) :
    let after := callStep state socket source destination outcome
    after.1.cars[j]? = some car ∧ ordersTo car.connectionsocket after.2 = [] := by
  intro after
  by_cases hrefused : bestCar state.cars (stringToFloor source)
      (stringToFloor destination) = none ∨ outcome.allocated = false
  · obtain ⟨hcars, hevents⟩ := callStep_refused socket outcome hrefused
    refine ⟨by rw [hcars]; exact hown.record, ?_⟩
    rw [hevents]
    split <;> rfl
  · obtain ⟨hbest, hallocated⟩ := not_or.mp hrefused
    rw [Bool.not_eq_false] at hallocated
    obtain ⟨⟨record, found⟩, hbest⟩ := Option.ne_none_iff_exists'.mp hbest
    have hne : record ≠ j := hother hallocated _ hbest
    have hold := getElem?_of_bestCar hbest
    have hidentity := addToCarQueue_identity true found (stringToFloor source)
      (stringToFloor destination)
    refine ⟨?_, ?_⟩
    · obtain ⟨destination', hcars⟩ := sendNextDestination_cars state record
        (addToCarQueue true found (stringToFloor source)
          (stringToFloor destination)).1 outcome.orderSent
      rw [callStep_cars hallocated hbest, hcars, List.getElem?_set_ne hne]
      exact hown.record
    · rw [ordersTo_callStep socket hallocated hbest]
      exact ordersTo_sendNextDestination_other hown hsocket hold hne hidentity _

end Steps

end Elevator
