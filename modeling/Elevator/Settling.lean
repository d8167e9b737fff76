/-
Where a car settles.  An order that finds `read_flag` raised becomes the
destination and stays it until the next one; an order that finds it lowered,
which is the case on every passage between two floors, leaves no trace but
`shm_send`.
-/
import Elevator.Car

namespace Elevator

open CText Transition

/-- At the top of the loop with the doors closed and nowhere to go. -/
def Settled (car : CarState) : Prop :=
  car.process = .top ∧ car.data.status = statusNames .Closed ∧
    car.data.currentFloor = car.data.destinationFloor

instance (car : CarState) : Decidable (Settled car) :=
  inferInstanceAs (Decidable (_ ∧ _ ∧ _))

/-- A settled car stands on the floor of the last order it received. -/
def SettledOnLast (state : CarState × List (CString 4)) : Prop :=
  Settled state.1 →
    ∀ label ∈ state.2.getLast?, state.1.data.currentFloor = label

instance (state : CarState × List (CString 4)) :
    Decidable (SettledOnLast state) :=
  inferInstanceAs (Decidable (_ → ∀ _ ∈ state.2.getLast?, _))

/-- Other processes write what they like, except the destination. -/
def DestinationLeftAlone : CarAction → Prop
  | .external edit =>
      ∀ shm, (edit shm).destinationFloor = shm.destinationFloor
  | _ => True

/-- A label that names a floor inside the shaft. -/
def ServesFloor (car : CarState) (label : CString 4) : Prop :=
  stringToFloor car.lowestFloor ≤ stringToFloor label ∧
    stringToFloor label ≤ stringToFloor car.highestFloor

instance (car : CarState) (label : CString 4) :
    Decidable (ServesFloor car label) :=
  inferInstanceAs (Decidable (_ ∧ _))

def OrderInShaft (car : CarState) : CarAction → Prop
  | .floor label => ServesFloor car label
  | _ => True

/-- No order arrives while the flag is down, unless it repeats the
destination. -/
def OrderStored (car : CarState) : CarAction → Prop
  | .floor label => car.readFlag = 1 ∨ label = car.data.destinationFloor
  | _ => True

instance orderInShaftDecidable (car : CarState) :
    (action : CarAction) → Decidable (OrderInShaft car action)
  | .floor label => inferInstanceAs (Decidable (ServesFloor car label))
  | .process => isTrue trivial
  | .doorcontrol => isTrue trivial
  | .external _ => isTrue trivial

instance orderStoredDecidable (car : CarState) :
    (action : CarAction) → Decidable (OrderStored car action)
  | .floor _ => inferInstanceAs (Decidable (_ ∨ _))
  | .process => isTrue trivial
  | .doorcontrol => isTrue trivial
  | .external _ => isTrue trivial

/-- The destination is the last order, and the range check passes it. -/
def HeadsForLast (state : CarState × List (CString 4)) : Prop :=
  ∀ label ∈ state.2.getLast?,
    state.1.data.destinationFloor = label ∧ ServesFloor state.1 label

/-- The range check leaves a destination in the shaft alone. -/
theorem clampDestination_of_servesFloor {car : CarState}
    (hserves : ServesFloor car car.data.destinationFloor) :
    clampDestination car.lowestFloor car.highestFloor car.data = car.data := by
  obtain ⟨hlow, hhigh⟩ := hserves
  have hbelow : ¬ stringToFloor car.data.destinationFloor >
      stringToFloor car.highestFloor := Int.not_lt.mpr hhigh
  have habove : ¬ stringToFloor car.data.destinationFloor <
      stringToFloor car.lowestFloor := Int.not_lt.mpr hlow
  simp [clampDestination, hbelow, habove]

/-- There too a destination in the shaft stays. -/
theorem processStep_destination_of_servesFloor {car : CarState}
    (hserves : ServesFloor car car.data.destinationFloor) :
    (processStep car).data.destinationFloor = car.data.destinationFloor := by
  by_cases htop : car.process = .top
  · rw [processStep_data, htop]
    exact congrArg CarSharedData.destinationFloor
      (clampDestination_of_servesFloor hserves)
  · exact processStep_destinationFloor htop

theorem headsForLast_step (state : CarState × List (CString 4))
    (action : CarAction) (hinv : HeadsForLast state)
    (hguard : DestinationLeftAlone action ∧ OrderInShaft state.1 action ∧
      OrderStored state.1 action) :
    HeadsForLast (logged carOrders state action) := by
  obtain ⟨car, received⟩ := state
  obtain ⟨halone, hshaft, hstored⟩ := hguard
  obtain ⟨hlowest, hhighest⟩ := carStep_range car action
  -- every step but an order keeps both the log and the destination
  have hkeep : (∀ label ∈ received.getLast?,
      (carStep car action).data.destinationFloor = car.data.destinationFloor) →
      carOrders car action = (carStep car action, []) →
      HeadsForLast (logged carOrders (car, received) action) := by
    intro hsame horders label hlabel
    simp only [logged, horders, List.append_nil] at hlabel ⊢
    obtain ⟨hdestination, hserves⟩ := hinv label hlabel
    refine ⟨(hsame label hlabel).trans hdestination, ?_⟩
    rw [ServesFloor, hlowest, hhighest]
    exact hserves
  cases action with
  | process =>
      apply hkeep _ rfl
      intro label hlabel
      obtain ⟨hdestination, hserves⟩ := hinv label hlabel
      exact processStep_destination_of_servesFloor (hdestination ▸ hserves)
  | doorcontrol =>
      exact hkeep (fun _ _ => (doorcontrolStep_sameButDoors car).destinationFloor) rfl
  | external edit => exact hkeep (fun _ _ => halone car.data) rfl
  | floor label =>
      intro other hother
      have hlast : label = other := by simpa [logged, carOrders] using hother
      subst hlast
      refine ⟨?_, ?_⟩
      · simp only [logged, carOrders, carStep, receiveFloor]
        split
        · rfl
        · exact (hstored.resolve_left ‹_›).symm
      · show ServesFloor (carStep car (.floor label)) label
        rw [ServesFloor, hlowest, hhighest]
        exact hshaft

/-- Whatever the interleaving, a car whose orders all find the flag raised
settles nowhere but on the floor of the last one. -/
theorem settledOnLast_of_ordersStored (lowest highest : CString 4)
    (readFlag : Int) (actions : List CarAction)
    (hguard : Along (logged carOrders)
      (fun state action => DestinationLeftAlone action ∧
        OrderInShaft state.1 action ∧ OrderStored state.1 action)
      (startCar lowest highest readFlag, []) actions) :
    Always (logged carOrders) SettledOnLast
      (startCar lowest highest readFlag, []) actions := by
  apply always_of_invariant headsForLast_step _ _ hguard
  · intro state hinv hsettled label hlabel
    exact hsettled.2.2.trans (hinv label hlabel).1
  · intro label hlabel
    simp at hlabel

/-- Ordered to floor 3, and on the way, at floor 2, to floor 5. -/
def divertedTrip : List CarAction :=
  [.process, .floor (floorToString 3)] ++ List.replicate 8 .process ++
    [.floor (floorToString 5)] ++ List.replicate 60 .process

/-- The diverted car first completes its trip to floor 3 and settles on 5. -/
theorem divertedTrip_settles :
    Always (logged carOrders) SettledOnLast (demoCar, []) divertedTrip :=
  settledOnLast_of_ordersStored _ _ _ _ <|
    (along_of_forall_mem (by
      simp [divertedTrip, DestinationLeftAlone, or_imp, forall_and])).and
      (by decide)

/-- The same two orders, the second one between floors 1 and 2. -/
def interceptedTrip : List CarAction :=
  [.process, .floor (floorToString 3)] ++ List.replicate 5 .process ++
    [.floor (floorToString 5)] ++ List.replicate 28 .process

/-- The second order is gone: the car settles on floor 3 with the order to
floor 5 the last one received. -/
theorem order_lost_between_floors :
    Along (logged carOrders)
        (fun state action => OrderInShaft state.1 action) (demoCar, [])
        interceptedTrip ∧
      Settled (run (logged carOrders) (demoCar, []) interceptedTrip).1 ∧
      (run (logged carOrders) (demoCar, []) interceptedTrip).1.data.currentFloor =
        floorToString 3 ∧
      ¬ Always (logged carOrders) SettledOnLast (demoCar, []) interceptedTrip := by
  refine ⟨by decide, by decide, by decide, ?_⟩
  intro halways
  exact absurd halways.final (by decide)

end Elevator
