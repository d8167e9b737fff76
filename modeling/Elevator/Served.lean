/-
Stops that leave the queue.  The handler takes any door cycle for the one at
the head of the queue: the doors closing somewhere else, on a floor where the
button was pressed or before the car set off, cost the car its next stop.
-/
import Elevator.Registry

namespace Elevator

open CText Transition

/-- A stop is removed when its own floor is reported. -/
def RemovedWhereReported : ControllerEvent → Prop
  | .removed _ stop reported => stop.floor = stringToFloor reported
  | _ => True

instance : DecidablePred RemovedWhereReported
  | .removed .. => inferInstanceAs (Decidable (_ = _))
  | .assigned .. => isTrue trivial
  | .sent .. => isTrue trivial

@[simp] theorem removedWhereReported_removed (record : Nat) (stop : QueueNode)
    (reported : CString 4) :
    RemovedWhereReported (.removed record stop reported) ↔
      stop.floor = stringToFloor reported := Iff.rfl

@[simp] theorem removedWhereReported_sent (socket : Int)
    (message : ControllerMessage) :
    RemovedWhereReported (.sent socket message) := trivial

@[simp] theorem removedWhereReported_assigned (record : Nat)
    (sourceFloor destFloor : Int) :
    RemovedWhereReported (.assigned record sourceFloor destFloor) := trivial

/-- Everything removed so far was removed where it had been served. -/
def AllServed (state : ControllerState × List ControllerEvent) : Prop :=
  ∀ event ∈ state.2, RemovedWhereReported event

instance (state : ControllerState × List ControllerEvent) :
    Decidable (AllServed state) :=
  inferInstanceAs (Decidable (∀ event ∈ state.2, _))

/-- The first record with the sender's name, if its doors have just closed,
has the reported floor at the head of its queue; and so has the next one, if
the next order of the first cannot be sent. -/
def HeadReported (name : CString 50) (reported : CString 4) (sends : Bool) :
    List ConnectedCar → Prop
  | [] => True
  | car :: rest =>
      if car.name = name then
        doorsClosed car = true →
          (∀ stop ∈ car.queue.head?, stop.floor = stringToFloor reported) ∧
          (sends = false → getNextDestination (removeFromCarQueue car).1 ≠ -1 →
            HeadReported name reported false rest)
      else HeadReported name reported sends rest

instance headReportedDecidable (name : CString 50) (reported : CString 4) :
    (sends : Bool) → (cars : List ConnectedCar) →
      Decidable (HeadReported name reported sends cars)
  | _, [] => isTrue trivial
  | sends, _ :: rest =>
      have := headReportedDecidable name reported false rest
      have := headReportedDecidable name reported sends rest
      inferInstanceAs (Decidable (ite _ (_ → _ ∧ (_ → _ → _)) _))

/-- A report that ends a door cycle comes from the floor at the head of the
sender's queue. -/
def ClosesAtHead (state : ControllerState) : ControllerInput → Prop
  | .status socket statusStr currentFloor destinationFloor sends =>
      ∀ name ∈ controllerGetNameBySocket state.cars socket,
        HeadReported name currentFloor sends
          (reportedCars state.cars name statusStr currentFloor destinationFloor)
  | _ => True

instance closesAtHeadDecidable (state : ControllerState) :
    (input : ControllerInput) → Decidable (ClosesAtHead state input)
  | .status .. => Option.decidableForallMem _
  | .connection _ => isTrue trivial
  | .car .. => isTrue trivial
  | .call .. => isTrue trivial
  | .hangUp _ => isTrue trivial

/-- The head of the queue is all that one record can lose. -/
theorem freed_eq_head? (car : ConnectedCar) :
    (removeFromCarQueue car).2 = car.queue.head? := by
  unfold removeFromCarQueue
  cases hqueue : car.queue <;> rfl

/-- What the loop removes has been served exactly when every record it comes to
has the reported floor at the head of its queue. -/
theorem statusLoop_served_iff (socket : Int) (name : CString 50)
    (reported : CString 4) (cars : List ConnectedCar) (j : Nat) (sends : Bool) :
    (∀ event ∈ (statusLoop socket name reported cars j sends).2.2,
        RemovedWhereReported event) ↔
      HeadReported name reported sends cars := by
  induction cars generalizing j sends with
  | nil => simp [statusLoop, HeadReported]
  | cons car rest ih =>
      by_cases hname : car.name = name
      · by_cases hclosed : doorsClosed car = true
        · by_cases hnext : getNextDestination (removeFromCarQueue car).1 = -1
          · simp [statusLoop, HeadReported, hname, hclosed, hnext, freed_eq_head?]
          · cases sends with
            | true =>
                simp [statusLoop, HeadReported, hname, hclosed, hnext,
                  freed_eq_head?, or_imp, forall_and]
            | false =>
                simp [statusLoop, HeadReported, hname, hclosed, hnext,
                  freed_eq_head?, or_imp, forall_and, ih]
        · simp [statusLoop, HeadReported, hname, hclosed]
      · simp [statusLoop, HeadReported, hname, ih]

theorem statusStep_served_iff (state : ControllerState) (socket : Int)
    (statusStr : CString 8) (currentFloor destinationFloor : CString 4)
    (sends : Bool) :
    (∀ event ∈ (statusStep state socket statusStr currentFloor
        destinationFloor sends).2, RemovedWhereReported event) ↔
      ClosesAtHead state
        (.status socket statusStr currentFloor destinationFloor sends) := by
  cases hname : controllerGetNameBySocket state.cars socket with
  | none => simp [statusStep_none hname, ClosesAtHead, hname]
  | some name =>
      rw [statusStep_events hname, statusLoop_served_iff]
      simp [ClosesAtHead, hname]

theorem sendNextDestination_served (state : ControllerState) (record : Nat)
    (car : ConnectedCar) (orderSent : Bool) :
    ∀ event ∈ (sendNextDestination state record car orderSent).2.2,
      RemovedWhereReported event := by
  simp only [sendNextDestination]
  split_ifs <;> simp

theorem callStep_served (state : ControllerState) (socket : Int)
    (source destination : CString 4) (outcome : CallOutcome) :
    ∀ event ∈ (callStep state socket source destination outcome).2,
      RemovedWhereReported event := by
  have hhandled : ∀ event ∈ (handleElevatorCall state (stringToFloor source)
      (stringToFloor destination) outcome).2.2, RemovedWhereReported event := by
    simp only [handleElevatorCall]
    split
    · simp
    · split_ifs
      · simpa using sendNextDestination_served _ _ _ _
      · exact sendNextDestination_served _ _ _ _
      · simp
  simp only [callStep]
  split_ifs
  · simpa [or_imp, forall_and] using hhandled
  · exact hhandled

/-- Only a status report can remove a stop. -/
theorem controllerStep_served_iff (state : ControllerState)
    (input : ControllerInput) :
    (∀ event ∈ (controllerStep state input).2, RemovedWhereReported event) ↔
      ClosesAtHead state input := by
  cases input with
  | status socket statusStr currentFloor destinationFloor sends =>
      exact statusStep_served_iff state socket statusStr currentFloor
        destinationFloor sends
  | call socket source destination outcome =>
      exact iff_of_true (callStep_served state socket source destination outcome)
        trivial
  | connection socket => simp [controllerStep, ClosesAtHead]
  | car socket name lowestFloor highestFloor fresh =>
      simp [controllerStep, ClosesAtHead]
  | hangUp socket => simp [controllerStep, ClosesAtHead]

/-- From any registry on, and whatever happens at the sockets, stops leave the
queues where they have been served if and only if every report that ends a door
cycle comes from the floor at the head of the sender's queue. -/
theorem allServed_iff_closesAtHead (state : ControllerState)
    (inputs : List ControllerInput) :
    Always (logged controllerStep) AllServed (state, []) inputs ↔
      Along (logged controllerStep)
        (fun state input => ClosesAtHead state.1 input) (state, []) inputs := by
  have hsplit (state : ControllerState × List ControllerEvent)
      (input : ControllerInput) :
      AllServed (logged controllerStep state input) ↔
        AllServed state ∧ ClosesAtHead state.1 input := by
    rw [← controllerStep_served_iff]
    exact List.forall_mem_append
  apply always_iff_along_of_invariant AllServed
  · exact fun state input hinv hguard => (hsplit state input).mpr ⟨hinv, hguard⟩
  · exact fun _ hinv => hinv
  · exact fun state input _ hafter => ((hsplit state input).mp hafter).2
  · simp [AllServed]

/-- Alpha is called to floor 3 while its doors close on floor 1: the closing
doors cost it that stop, and it is sent on to floor 6. -/
theorem stop_removed_unserved :
    ControllerEvent.removed 0 ⟨3, .up⟩ (floorToString 1) ∈
        (run (logged controllerStep) (idleRegistry, [])
          [reportAt .Closing 1 1, callFrom 3 6, reportAt .Closed 1 3]).2 ∧
      ¬ Always (logged controllerStep) AllServed (idleRegistry, [])
        [reportAt .Closing 1 1, callFrom 3 6, reportAt .Closed 1 3] := by
  refine ⟨by decide, ?_⟩
  intro halways
  exact absurd halways.final (by decide)

end Elevator
