/-
Pending stops.  After a door cycle, and on a call to a car that has arrived, the
controller orders the car to the head of its queue; it tells from the value of
the head's floor whether there is one, and the value for none is the floor B1.
-/
import Elevator.Heading
import Elevator.DoorCount

namespace Elevator

open CText

section CallStep

variable {state : ControllerState} {record : Nat} {car : ConnectedCar}
variable {source destination : CString 4} {outcome : CallOutcome}

/-- A request is assigned where the function returns `true`. -/
theorem assigned_callStep_iff (socket : Int)
    (hbest : bestCar state.cars (stringToFloor source)
      (stringToFloor destination) = some (record, car))
    (hallocated : outcome.allocated = true) :
    .assigned record (stringToFloor source) (stringToFloor destination) ∈
        (callStep state socket source destination outcome).2 ↔
      (CallOrderDue (addToCarQueue true car (stringToFloor source)
          (stringToFloor destination)).1 →
        controllerGetSocketByName state.cars car.name ≠ -1) := by
  have hold := getElem?_of_bestCar hbest
  have hidentity := addToCarQueue_identity true car (stringToFloor source)
    (stringToFloor destination)
  have hselected := sendNextDestination_selected_iff hold hidentity
    outcome.orderSent
  have hmem := mem_sendNextDestination_iff hold hidentity outcome.orderSent
    (.assigned record (stringToFloor source) (stringToFloor destination))
  simp only [reduceCtorEq, and_false, iff_false] at hmem
  rw [← hselected]
  simp only [callStep, handleElevatorCall, hbest, hallocated,
    addToCarQueue_allocated, if_true]
  split_ifs <;> simp_all

theorem order_callStep_iff (socket receiver : Int) (label : CString 4)
    (hbest : bestCar state.cars (stringToFloor source)
      (stringToFloor destination) = some (record, car))
    (hallocated : outcome.allocated = true) :
    .sent receiver (.floor label) ∈
        (callStep state socket source destination outcome).2 ↔
      let queued := (addToCarQueue true car (stringToFloor source)
        (stringToFloor destination)).1
      CallOrderDue queued ∧ controllerGetSocketByName state.cars car.name ≠ -1 ∧
        outcome.orderSent = true ∧
        receiver = controllerGetSocketByName state.cars car.name ∧
        label = floorToString (getNextDestination queued) := by
  have hold := getElem?_of_bestCar hbest
  have hidentity := addToCarQueue_identity true car (stringToFloor source)
    (stringToFloor destination)
  have hmem := mem_sendNextDestination_iff hold hidentity outcome.orderSent
    (.sent receiver (.floor label))
  simp only [ControllerEvent.sent.injEq, ControllerMessage.floor.injEq] at hmem
  rw [← hmem]
  simp only [callStep, handleElevatorCall, hbest, hallocated,
    addToCarQueue_allocated, if_true]
  split_ifs <;> simp

end CallStep

def CompletesCycle (statusStr : CString 8) (car : ConnectedCar) : Prop :=
  car.previousStatus = statusNames .Closing ∧ statusStr = statusNames .Closed

/-- The duty to order.  A call that is assigned to a car whose destination is
its current floor sends it to the head of its queue; so does a report that
completes a door cycle of the sender's record, and if that leaves the queue
empty nothing is sent. -/
def PendingOrdered (state : ControllerState) (input : ControllerInput) : Prop :=
  let (after, events) := controllerStep state input
  match input with
  | .call _ source destination _ =>
      ∀ record car, bestCar state.cars (stringToFloor source)
          (stringToFloor destination) = some (record, car) →
        .assigned record (stringToFloor source) (stringToFloor destination) ∈
          events →
        car.destinationfloor = car.currentfloor →
        ∀ head ∈ (queueAt after.cars record).head?,
          .sent car.connectionsocket (.floor (floorToString head.floor)) ∈ events
  | .status socket statusStr _ _ _ =>
      ∀ name, controllerGetNameBySocket state.cars socket = some name →
        ∀ car, firstNamed state.cars name = some car →
          CompletesCycle statusStr car →
          ∀ later, firstNamed after.cars name = some later →
            match later.queue with
            | [] => ∀ receiver message, .sent receiver message ∉ events
            | head :: _ => .sent car.connectionsocket
                (.floor (floorToString head.floor)) ∈ events
  | _ => True

/-- When the order goes out and reaches the car: the stop it is to be sent to is
not on B1, the message can be sent, and the socket it is sent on is that of the
car's record. -/
def OrderReaches (state : ControllerState) : ControllerInput → Prop
  | .call _ source destination outcome =>
      let sourceFloor := stringToFloor source
      let destFloor := stringToFloor destination
      ∀ record car, bestCar state.cars sourceFloor destFloor = some (record, car) →
        outcome.allocated = true → car.destinationfloor = car.currentfloor →
          (if TakesHead car sourceFloor destFloor then sourceFloor ≠ -1
            else ∀ head ∈ car.queue.head?, head.floor ≠ -1) ∧
          (controllerGetSocketByName state.cars car.name ≠ -1 →
            outcome.orderSent = true ∧
              controllerGetSocketByName state.cars car.name = car.connectionsocket)
  | .status socket statusStr _ _ sends =>
      ∀ name, controllerGetNameBySocket state.cars socket = some name →
        ∀ car, firstNamed state.cars name = some car →
          CompletesCycle statusStr car →
          ∀ next ∈ car.queue[1]?, next.floor ≠ -1 ∧ sends = true ∧
            socket = car.connectionsocket
  | _ => True

section Duty

variable {state : ControllerState}

theorem addToCarQueue_ne_nil (car : ConnectedCar) (sourceFloor destFloor : Int) :
    ∃ head rest,
      (addToCarQueue true car sourceFloor destFloor).1.queue = head :: rest ∧
      (head.floor ≠ -1 ↔
        if TakesHead car sourceFloor destFloor then sourceFloor ≠ -1
        else ∀ head ∈ car.queue.head?, head.floor ≠ -1) := by
  by_cases htakes : TakesHead car sourceFloor destFloor
  · have hhead := head?_addToCarQueue_of_takesHead htakes
    obtain ⟨rest, hqueue⟩ := List.head?_eq_some_iff.mp hhead
    exact ⟨_, rest, hqueue, by simp [htakes]⟩
  · have hhead := head?_addToCarQueue_of_not_takesHead htakes
    obtain ⟨head, rest, hqueue⟩ := List.exists_cons_of_ne_nil (not_or.mp htakes).1
    rw [hqueue, List.head?_cons] at hhead
    obtain ⟨rest', hqueue'⟩ := List.head?_eq_some_iff.mp hhead
    exact ⟨head, rest', hqueue', by simp [htakes, hqueue]⟩

theorem pendingOrdered_call_iff (socket : Int) (source destination : CString 4)
    (outcome : CallOutcome) :
    PendingOrdered state (.call socket source destination outcome) ↔
      OrderReaches state (.call socket source destination outcome) := by
  simp only [PendingOrdered, OrderReaches, controllerStep]
  apply forall₂_congr
  intro record car
  apply forall_congr'
  intro hbest
  cases hallocated : outcome.allocated with
  | false =>
      rw [(callStep_refused socket outcome (Or.inr hallocated)).2]
      constructor
      · intro _ hfalse
        exact absurd hfalse (by decide)
      · intro _ hassigned
        split at hassigned <;> simp at hassigned
  | true =>
      obtain ⟨head, rest, hqueue, hfloor⟩ := addToCarQueue_ne_nil car
        (stringToFloor source) (stringToFloor destination)
      obtain ⟨ordered, hcars⟩ := sendNextDestination_cars state record
        (addToCarQueue true car (stringToFloor source)
          (stringToFloor destination)).1 outcome.orderSent
      rw [callStep_cars hallocated hbest, hcars,
        queueAt_set (getElem?_of_bestCar hbest), if_pos rfl, ← hfloor,
        assigned_callStep_iff socket hbest hallocated]
      simp only [hqueue, List.head?_cons, Option.mem_def, Option.some.injEq,
        forall_eq', order_callStep_iff socket _ _ hbest hallocated]
      -- the new queue is all that the record takes from the request
      have hdue : CallOrderDue (addToCarQueue true car (stringToFloor source)
          (stringToFloor destination)).1 ↔
          car.destinationfloor = car.currentfloor ∧ head.floor ≠ -1 := by
        rw [CallOrderDue, addToCarQueue_frame]
        simp only [getNextDestination, hqueue]
      have hnext : getNextDestination (addToCarQueue true car
          (stringToFloor source) (stringToFloor destination)).1 = head.floor := by
        rw [getNextDestination, hqueue]
      rw [hdue, hnext]
      constructor
      · intro hordered _ harrived
        by_cases hbasement : head.floor = -1
        · have hsent := hordered (fun hdue => absurd hbasement hdue.2) harrived
          exact absurd hbasement hsent.1.2
        · refine ⟨hbasement, fun hfound => ?_⟩
          obtain ⟨-, -, hsent, hsocket, -⟩ := hordered (fun _ => hfound) harrived
          exact ⟨hsent, hsocket.symm⟩
      · intro hreaches hassigned harrived
        obtain ⟨hbasement, hsocket⟩ := hreaches trivial harrived
        have hfound := hassigned ⟨harrived, hbasement⟩
        exact ⟨⟨harrived, hbasement⟩, hfound, (hsocket hfound).1,
          (hsocket hfound).2.symm, rfl⟩

theorem queue_recordAfter {statusStr : CString 8} {car : ConnectedCar}
    (hcycle : CompletesCycle statusStr car) (currentFloor destinationFloor : CString 4) :
    (recordAfter car statusStr currentFloor destinationFloor).queue =
      car.queue.tail := by
  rw [(recordAfter_frame car statusStr currentFloor destinationFloor).2.2]
  exact if_pos hcycle

theorem pendingOrdered_status_iff (socket : Int) (statusStr : CString 8)
    (currentFloor destinationFloor : CString 4) (sends : Bool) :
    PendingOrdered state (.status socket statusStr currentFloor destinationFloor
        sends) ↔
      OrderReaches state (.status socket statusStr currentFloor destinationFloor
        sends) := by
  simp only [PendingOrdered, OrderReaches, controllerStep]
  apply forall₂_congr
  intro name hname
  apply forall₂_congr
  intro car hcar
  apply forall_congr'
  intro hcycle
  have hnext : getNextDestination (removeFromCarQueue car).1 ≠ -1 ↔
      ∃ next ∈ car.queue[1]?, next.floor ≠ -1 := by
    rw [getNextDestination, removeFromCarQueue_queue]
    rcases car.queue with _ | ⟨head, _ | ⟨next, rest⟩⟩ <;> simp
  have hdue : OrderDue statusStr car ↔ ∃ next ∈ car.queue[1]?, next.floor ≠ -1 := by
    rw [OrderDue, hnext, ← and_assoc]
    exact and_iff_right hcycle
  simp only [firstNamed_statusStep statusStr currentFloor destinationFloor sends
      hname, hcar, Option.map_some, Option.some.injEq, forall_eq',
    queue_recordAfter hcycle, sent_statusStep_iff statusStr currentFloor
      destinationFloor sends _ _ hname, Option.mem_def, exists_eq_left', hdue]
  rcases hqueue : car.queue with _ | ⟨head, _ | ⟨next, rest⟩⟩
  · simp
  · simp
  · have hvalue : getNextDestination (removeFromCarQueue car).1 = next.floor := by
      rw [getNextDestination, removeFromCarQueue_queue, hqueue]
      rfl
    simp [hvalue, eq_comm]

/-- A pending stop is ordered, whatever the step, exactly when the order reaches
the car. -/
theorem pendingOrdered_iff_orderReaches (state : ControllerState)
    (input : ControllerInput) :
    PendingOrdered state input ↔ OrderReaches state input := by
  cases input with
  | call socket source destination outcome =>
      exact pendingOrdered_call_iff socket source destination outcome
  | status socket statusStr currentFloor destinationFloor sends =>
      exact pendingOrdered_status_iff socket statusStr currentFloor
        destinationFloor sends
  | connection _ | car _ _ _ _ _ | hangUp _ => exact Iff.rfl

/-- Alpha in a shaft down to B3, its doors closing on floor 3, with the stop on
B1 still to be made. -/
def boundForB1 : ControllerState :=
  { idleRegistry with cars := [{ idleCar with
      lowestFloor := floorToString (-3)
      previousStatus := statusNames .Closing
      status := statusNames .Closing
      currentfloor := floorToString 3
      destinationfloor := floorToString 3
      queue := [⟨3, .down⟩, ⟨-1, .down⟩] }] }

/-- When the doors have closed, the car is not told to go to B1. -/
theorem stop_at_b1_not_ordered :
    ¬ ∀ (state : ControllerState) (input : ControllerInput),
      PendingOrdered state input := by
  intro hordered
  have hreaches := (pendingOrdered_status_iff 4 (statusNames .Closed)
    (floorToString 3) (floorToString 3) true).mp (hordered boundForB1 _)
  exact absurd (hreaches (.store 50 "Alpha".toList) (by decide) _ rfl
    ⟨rfl, rfl⟩ ⟨-1, .down⟩ rfl).1 (by decide)

end Duty

end Elevator
