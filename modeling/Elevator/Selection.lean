/-
The choice of a car.  The scan starts from a least score of 100, so a car that
serves both floors can still be passed over: when it is far away, or its queue
is long.
-/
import Elevator.Registry

namespace Elevator

open CText

/-- Both floors of a request lie between the car's lowest and highest. -/
def Serves (car : ConnectedCar) (sourceFloor destFloor : Int) : Prop :=
  ∀ floor ∈ [sourceFloor, destFloor],
    stringToFloor car.lowestFloor ≤ floor ∧ floor ≤ stringToFloor car.highestFloor

instance (car : ConnectedCar) (sourceFloor destFloor : Int) :
    Decidable (Serves car sourceFloor destFloor) :=
  inferInstanceAs (Decidable (∀ _ ∈ _, _))

theorem canServiceRequest_iff (car : ConnectedCar) (sourceFloor destFloor : Int) :
    canServiceRequest car sourceFloor destFloor = true ↔
      Serves car sourceFloor destFloor := by
  simp [canServiceRequest, Serves, and_assoc]

/-- The car is close enough and its queue short enough to beat the initial
minimum: floors to the source and twice the stops waiting make less than 100,
or less than 105 for a car that moves the way of the request. -/
def WithinReach (car : ConnectedCar) (sourceFloor destFloor : Int) : Prop :=
  (stringToFloor car.currentfloor - sourceFloor).natAbs + 2 * car.queue.length <
    if car.currentDirection = requestDirection sourceFloor destFloor then 105
    else 100

instance (car : ConnectedCar) (sourceFloor destFloor : Int) :
    Decidable (WithinReach car sourceFloor destFloor) :=
  inferInstanceAs (Decidable (_ < _))

theorem distanceScore_lt_iff (car : ConnectedCar) (sourceFloor destFloor : Int) :
    distanceScore car sourceFloor destFloor < 100 ↔
      WithinReach car sourceFloor destFloor := by
  simp only [distanceScore, WithinReach]
  split_ifs <;> omega

section Scan

variable {sourceFloor destFloor : Int}

/-- The scan comes back empty when it started so and no record beats the
minimum it started from. -/
theorem scanCars_eq_none_iff (cars : List ConnectedCar) (i : Nat)
    (minDistance : Int) (best : Option (Nat × ConnectedCar)) :
    scanCars sourceFloor destFloor cars i minDistance best = none ↔
      best = none ∧ ∀ car ∈ cars,
        canServiceRequest car sourceFloor destFloor = true →
          minDistance ≤ distanceScore car sourceFloor destFloor := by
  induction cars generalizing i minDistance best with
  | nil => simp [scanCars]
  | cons car rest ih =>
      rw [scanCars]
      split
      case isTrue htaken =>
        rw [Bool.and_eq_true, decide_eq_true_eq] at htaken
        rw [ih]
        constructor
        · rintro ⟨hnone, _⟩
          exact absurd hnone (Option.some_ne_none _)
        · rintro ⟨_, hall⟩
          have hle := hall car List.mem_cons_self htaken.1
          omega
      case isFalse hpassed =>
        simp only [Bool.and_eq_true, decide_eq_true_eq, not_and, Int.not_lt] at hpassed
        rw [ih, List.forall_mem_cons]
        exact and_congr_right fun _ => (and_iff_right hpassed).symm

theorem bestCar_eq_none_iff (cars : List ConnectedCar) :
    bestCar cars sourceFloor destFloor = none ↔
      ∀ car ∈ cars, Serves car sourceFloor destFloor →
        ¬ WithinReach car sourceFloor destFloor := by
  rw [bestCar, scanCars_eq_none_iff, and_iff_right rfl]
  simp only [canServiceRequest_iff, ← distanceScore_lt_iff, Int.not_lt]

end Scan

section Unavailable

variable {state : ControllerState} {outcome : CallOutcome}

/-- With memory for the nodes and a socket for every name, a request is turned
down exactly when the scan finds no car. -/
theorem handleElevatorCall_eq_none_iff (sourceFloor destFloor : Int)
    (hallocated : outcome.allocated = true)
    (hfound : ∀ car ∈ state.cars,
      controllerGetSocketByName state.cars car.name ≠ -1) :
    (handleElevatorCall state sourceFloor destFloor outcome).2.1 = none ↔
      bestCar state.cars sourceFloor destFloor = none := by
  cases hbest : bestCar state.cars sourceFloor destFloor with
  | none => simp [handleElevatorCall, hbest]
  | some best =>
      obtain ⟨record, car⟩ := best
      have hold := getElem?_of_bestCar hbest
      have hselected := (sendNextDestination_selected_iff hold
        (addToCarQueue_identity true car sourceFloor destFloor)
        outcome.orderSent).mpr fun _ => hfound car (List.mem_of_getElem? hold)
      simp [handleElevatorCall, hbest, hallocated, hselected]

/-- No request is turned down that a car could serve, exactly when a car that
could serve it is within reach as soon as there is one that could. -/
theorem unavailable_iff_withinReach (sourceFloor destFloor : Int)
    (hallocated : outcome.allocated = true)
    (hfound : ∀ car ∈ state.cars,
      controllerGetSocketByName state.cars car.name ≠ -1) :
    ((handleElevatorCall state sourceFloor destFloor outcome).2.1 = none →
        ∀ car ∈ state.cars, ¬ Serves car sourceFloor destFloor) ↔
      ((∃ car ∈ state.cars, Serves car sourceFloor destFloor) →
        ∃ car ∈ state.cars, Serves car sourceFloor destFloor ∧
          WithinReach car sourceFloor destFloor) := by
  rw [handleElevatorCall_eq_none_iff sourceFloor destFloor hallocated hfound,
    bestCar_eq_none_iff]
  constructor
  · intro hsound hserves
    by_contra hreach
    obtain ⟨car, hmem, hcar⟩ := hserves
    exact hsound (fun other hother hserve hwithin =>
      hreach ⟨other, hother, hserve, hwithin⟩) car hmem hcar
  · intro hreach hnone car hmem hcar
    obtain ⟨other, hother, hserve, hwithin⟩ := hreach ⟨car, hmem, hcar⟩
    exact hnone other hother hserve hwithin

def tallShaft : ControllerState :=
  { idleRegistry with cars := [{ idleCar with highestFloor := floorToString 200 }] }

theorem unavailable_iff_withinReach_tall :
    (handleElevatorCall tallShaft 99 1 ⟨true, true, true⟩).2.1 ≠ none := by
  intro hnone
  have hsound := (unavailable_iff_withinReach 99 1 rfl (by decide)).mpr
    (fun _ => ⟨{ idleCar with highestFloor := floorToString 200 },
      by decide, by decide, by decide⟩) hnone
  exact hsound _ (List.mem_singleton_self _) (by decide)

/-- From floor 1, a call on floor 150 is further than the scan looks. -/
theorem tall_shaft_unavailable :
    ¬ ∀ (state : ControllerState) (sourceFloor destFloor : Int)
        (outcome : CallOutcome), outcome.allocated = true →
      (∀ car ∈ state.cars,
        controllerGetSocketByName state.cars car.name ≠ -1) →
      (handleElevatorCall state sourceFloor destFloor outcome).2.1 = none →
      ∀ car ∈ state.cars, ¬ Serves car sourceFloor destFloor := by
  intro hsound
  exact hsound tallShaft 150 1 ⟨true, true, true⟩ rfl (by decide) (by decide) _
    (List.mem_singleton_self _) (by decide)

end Unavailable

end Elevator
