/-
Which car a call gets, and what is left of a call that gets none.  The scan
chooses by a score made of label numbers; since no floor has the number 0, the
score of a car on the other side of the ground is one too large.
-/
import Mathlib.Data.Int.Order.Basic
import Elevator.FirstLeast
import Elevator.Floor
import Elevator.Selection

namespace Elevator

open CText Least

section Choice

variable {state : ControllerState} {sourceFloor destFloor : Int}
  {outcome : CallOutcome}

theorem scanCars_eq_scan (sourceFloor destFloor : Int) (cars : List ConnectedCar)
    (i : Nat) (minDistance : Int) (best : Option (Nat × ConnectedCar)) :
    scanCars sourceFloor destFloor cars i minDistance best =
      scan (fun car => canServiceRequest car sourceFloor destFloor)
        (fun car => distanceScore car sourceFloor destFloor) cars i minDistance
        best := by
  induction cars generalizing i minDistance best with
  | nil => rfl
  | cons car rest ih => rw [scanCars, scan, ih, ih]

/-- The car the scan ends with is the first of the cars that serve both floors
with the least score. -/
theorem bestCar_eq_some_iff (cars : List ConnectedCar) (record : Nat)
    (car : ConnectedCar) :
    bestCar cars sourceFloor destFloor = some (record, car) ↔
      FirstLeast (Serves · sourceFloor destFloor)
          (distanceScore · sourceFloor destFloor) cars record car ∧
        distanceScore car sourceFloor destFloor < 100 := by
  rw [bestCar, scanCars_eq_scan, scan_eq_some_iff]
  simp only [canServiceRequest_iff]

/-- A request that gets a car: the scan's choice, of which the queue and the
destination may have changed. -/
theorem handleElevatorCall_selected {after : ControllerState}
    {name : CString 50} {events : List ControllerEvent}
    (hcall : handleElevatorCall state sourceFloor destFloor outcome =
      (after, some name, events)) :
    ∃ record car queue destination,
      bestCar state.cars sourceFloor destFloor = some (record, car) ∧
        car.name = name ∧
        .assigned record sourceFloor destFloor ∈ events ∧
        after.cars = state.cars.set record
          { car with queue := queue, destinationfloor := destination } := by
  cases hbest : bestCar state.cars sourceFloor destFloor with
  | none => simp [handleElevatorCall, hbest] at hcall
  | some found =>
      obtain ⟨record, car⟩ := found
      cases hallocated : outcome.allocated with
      | false =>
          simp [handleElevatorCall, hbest, hallocated, addToCarQueue_refused]
            at hcall
      | true =>
          have hframe := addToCarQueue_frame true car sourceFloor destFloor
          obtain ⟨destination, hcars⟩ := sendNextDestination_cars state record
            (addToCarQueue true car sourceFloor destFloor).1 outcome.orderSent
          simp only [handleElevatorCall, hbest, hallocated,
            addToCarQueue_allocated, if_true] at hcall
          split at hcall
          · simp only [Prod.mk.injEq, Option.some.injEq] at hcall
            obtain ⟨rfl, rfl, rfl⟩ := hcall
            exact ⟨record, car, _, destination, rfl, rfl, List.mem_cons_self,
              hcars.trans (congrArg (state.cars.set record) (by rw [hframe]))⟩
          · simp at hcall

/-- A call goes to the first car, among those that serve both floors, with the
least score; of its record the queue and the destination change, and nothing
else of the registry does. -/
theorem call_goes_to_first_least {after : ControllerState} {name : CString 50}
    {events : List ControllerEvent}
    (hnames : (state.cars.map (·.name)).Nodup)
    (hcall : handleElevatorCall state sourceFloor destFloor outcome =
      (after, some name, events)) :
    ∃ record car,
      (∀ (j : Nat) (other : ConnectedCar), state.cars[j]? = some other →
        (other.name = name ↔ j = record)) ∧
      FirstLeast (Serves · sourceFloor destFloor)
        (fun car => ((stringToFloor car.currentfloor - sourceFloor).natAbs : Int) -
          (if car.currentDirection = requestDirection sourceFloor destFloor then 5
            else 0) + 2 * car.queue.length)
        state.cars record car ∧
      after.cars.length = state.cars.length ∧
      (∀ j, j ≠ record → after.cars[j]? = state.cars[j]?) ∧
      ∃ queue destination, after.cars[record]? =
        some { car with queue := queue, destinationfloor := destination } := by
  obtain ⟨record, car, queue, destination, hbest, rfl, -, hcars⟩ :=
    handleElevatorCall_selected hcall
  have hleast := ((bestCar_eq_some_iff state.cars record car).mp hbest).1
  obtain ⟨hlt, -⟩ := List.getElem?_eq_some_iff.mp hleast.place
  refine ⟨record, car, fun j other hother => ?_, hleast, ?_, fun j hne => ?_,
    queue, destination, ?_⟩
  · constructor
    · intro hname
      have hj : (state.cars.map (·.name))[j]? = some car.name := by
        rw [List.getElem?_map, hother, Option.map_some, hname]
      have hrecord : (state.cars.map (·.name))[record]? = some car.name := by
        rw [List.getElem?_map, hleast.place, Option.map_some]
      obtain ⟨hltj, -⟩ := List.getElem?_eq_some_iff.mp hj
      exact (List.getElem?_inj hltj hnames).mp (hj.trans hrecord.symm)
    · rintro rfl
      rw [Option.some.inj (hother.symm.trans hleast.place)]
  · rw [hcars, List.length_set]
  · rw [hcars, List.getElem?_set_ne (Ne.symm hne)]
  · rw [hcars, List.getElem?_set_self hlt]

/-- A car with nothing to do on one of the floors of its shaft. -/
def parkedCar (name : String) (lowest highest floor socket : Int) : ConnectedCar :=
  { idleCar with
    name := .store 50 name.toList
    lowestFloor := floorToString lowest
    highestFloor := floorToString highest
    currentfloor := floorToString floor
    destinationfloor := floorToString floor
    connectionsocket := socket }

/-- Delta is nearest to floor 3 but does not reach floor 7.  Beta has two floors
to go; Gamma has five and a stop, and goes the way of the request. -/
def fourShafts : ControllerState where
  cars := [parkedCar "Alpha" 1 10 9 4, parkedCar "Beta" 1 10 5 6,
    { parkedCar "Gamma" 1 10 8 7 with queue := [⟨9, .up⟩], currentDirection := .up },
    parkedCar "Delta" 1 5 3 8]
  masterSet := [4, 5, 6, 7, 8]

/-- Beta and Gamma have the same score, and Beta comes first. -/
theorem call_goes_to_first_least_tied :
    let result := handleElevatorCall fourShafts 3 7 ⟨true, true, true⟩
    fourShafts.cars.map (distanceScore · 3 7) = [6, 2, 2, 0] ∧
      result.2.1 = some (.store 50 "Beta".toList) ∧
      result.1.cars.length = 4 ∧
      (∀ j, j ≠ 1 → result.1.cars[j]? = fourShafts.cars[j]?) ∧
      ∃ queue destination, result.1.cars[1]? =
        some { parkedCar "Beta" 1 10 5 6 with
          queue := queue, destinationfloor := destination } := by
  intro result
  have hcall : handleElevatorCall fourShafts 3 7 ⟨true, true, true⟩ =
      (result.1, some (.store 50 "Beta".toList), result.2.2) := by
    decide
  obtain ⟨record, car, hnamed, hleast, hlength, hothers, hchanged⟩ :=
    call_goes_to_first_least (by decide) hcall
  obtain rfl : 1 = record :=
    (hnamed 1 (parkedCar "Beta" 1 10 5 6) rfl).mp rfl
  obtain rfl := Option.some.inj (hleast.place.symm.trans rfl)
  exact ⟨by decide, rfl, hlength, hothers, hchanged⟩

/-- A call that is refused leaves everything as it was: with a socket for every
name, the failure behind the update of the queue cannot come about. -/
theorem refused_call_leaves_no_trace
    (hsockets : ∀ car ∈ state.cars, 0 ≤ car.connectionsocket)
    {after : ControllerState} {events : List ControllerEvent}
    (hcall : handleElevatorCall state sourceFloor destFloor outcome =
      (after, none, events)) : after = state ∧ events = [] := by
  cases hbest : bestCar state.cars sourceFloor destFloor with
  | none =>
      simp only [handleElevatorCall, hbest, Prod.mk.injEq, true_and] at hcall
      exact ⟨hcall.1.symm, hcall.2.symm⟩
  | some found =>
      obtain ⟨record, car⟩ := found
      cases hallocated : outcome.allocated with
      | false =>
          simp only [handleElevatorCall, hbest, hallocated,
            addToCarQueue_refused, Bool.false_eq_true, if_false, Prod.mk.injEq,
            true_and] at hcall
          exact ⟨hcall.1.symm, hcall.2.symm⟩
      | true =>
          have hselected := sendNextDestination_selected hsockets
            (getElem?_of_bestCar hbest)
            (addToCarQueue_identity true car sourceFloor destFloor)
            outcome.orderSent
          simp [handleElevatorCall, hbest, hallocated, hselected] at hcall

theorem refused_call_leaves_no_trace_far :
    (handleElevatorCall idleRegistry 3 11 ⟨true, true, true⟩).1 = idleRegistry ∧
      (handleElevatorCall idleRegistry 3 11 ⟨true, true, true⟩).2.2 = [] :=
  refused_call_leaves_no_trace (by decide)
    (show handleElevatorCall idleRegistry 3 11 ⟨true, true, true⟩ =
      (_, none, _) from rfl)

/-- A request is put on record for the scan's choice only. -/
theorem bestCar_of_assigned {record : Nat}
    (hassigned : .assigned record sourceFloor destFloor ∈
      (handleElevatorCall state sourceFloor destFloor outcome).2.2) :
    ∃ car, bestCar state.cars sourceFloor destFloor = some (record, car) := by
  have hrequest : (sourceFloor, destFloor) ∈ requestsOf record
      (handleElevatorCall state sourceFloor destFloor outcome).2.2 :=
    List.mem_filterMap.mpr ⟨_, hassigned, if_pos rfl⟩
  cases hbest : bestCar state.cars sourceFloor destFloor with
  | none => simp [handleElevatorCall, hbest] at hrequest
  | some found =>
      obtain ⟨chosen, car⟩ := found
      have hsent := (sendNextDestination_events state chosen
        (addToCarQueue outcome.allocated car sourceFloor destFloor).1
        outcome.orderSent record).1
      have hchosen : chosen = record := by
        by_contra hne
        simp only [handleElevatorCall, hbest] at hrequest
        split at hrequest
        · split at hrequest
          · simp [hsent, hne] at hrequest
          · simp [hsent] at hrequest
        · simp at hrequest
      exact ⟨car, by rw [hchosen]⟩

end Choice

section Nearest

/-- The floors a car travels to the source of a request, counted one after the
other. -/
def floorsToTravel (car : ConnectedCar) (sourceFloor : Int) : Nat :=
  (storey (stringToFloor car.currentfloor) - storey sourceFloor).natAbs

def labelDistance (car : ConnectedCar) (sourceFloor : Int) : Nat :=
  (stringToFloor car.currentfloor - sourceFloor).natAbs

/-- The car and the source of the request are both below the ground, or both
above it. -/
def OnSourceSide (car : ConnectedCar) (sourceFloor : Int) : Prop :=
  stringToFloor car.currentfloor < 0 ↔ sourceFloor < 0

instance (car : ConnectedCar) (sourceFloor : Int) :
    Decidable (OnSourceSide car sourceFloor) :=
  inferInstanceAs (Decidable (_ ↔ _))

def AllIdle (cars : List ConnectedCar) (sourceFloor destFloor : Int) : Prop :=
  ∀ car ∈ cars, Serves car sourceFloor destFloor →
    car.queue = [] ∧ car.currentDirection = .idle

instance (cars : List ConnectedCar) (sourceFloor destFloor : Int) :
    Decidable (AllIdle cars sourceFloor destFloor) :=
  inferInstanceAs (Decidable (∀ car ∈ cars, _))

/-- By label numbers, the first of the least distant cars is on the source's
side of the ground, and one on the other side is as distant. -/
def TiedAcrossGround (cars : List ConnectedCar) (sourceFloor destFloor : Int) :
    Prop :=
  ∃ record near, FirstLeast (Serves · sourceFloor destFloor)
      (labelDistance · sourceFloor) cars record near ∧
    OnSourceSide near sourceFloor ∧
    ∃ far ∈ cars, Serves far sourceFloor destFloor ∧
      ¬ OnSourceSide far sourceFloor ∧
      labelDistance far sourceFloor = labelDistance near sourceFloor

/-- The car that is put on record for the request travels no further than any
other that serves both floors. -/
def NearestSent (state : ControllerState) (sourceFloor destFloor : Int)
    (outcome : CallOutcome) : Prop :=
  ∀ record, .assigned record sourceFloor destFloor ∈
      (handleElevatorCall state sourceFloor destFloor outcome).2.2 →
    ∃ car, state.cars[record]? = some car ∧ Serves car sourceFloor destFloor ∧
      ∀ other ∈ state.cars, Serves other sourceFloor destFloor →
        floorsToTravel car sourceFloor ≤ floorsToTravel other sourceFloor

/-- A trip through the ground is one floor shorter than its labels say. -/
theorem floorsToTravel_eq (car : ConnectedCar) (sourceFloor : Int) :
    floorsToTravel car sourceFloor +
        (if OnSourceSide car sourceFloor then 0 else 1) =
      labelDistance car sourceFloor := by
  by_cases hcar : stringToFloor car.currentfloor < 0 <;>
    by_cases hsource : sourceFloor < 0 <;>
    simp [floorsToTravel, labelDistance, OnSourceSide, storey, hcar, hsource] <;>
    omega

variable {state : ControllerState} {sourceFloor destFloor : Int}
  {outcome : CallOutcome}

theorem distanceScore_of_idle {car : ConnectedCar} (hqueue : car.queue = [])
    (hidle : car.currentDirection = .idle) :
    distanceScore car sourceFloor destFloor = labelDistance car sourceFloor := by
  have hdirection : Direction.idle ≠ requestDirection sourceFloor destFloor := by
    unfold requestDirection
    split <;> decide
  rw [distanceScore, hqueue, hidle, if_neg hdirection, labelDistance]
  simp

/-- Among idle cars, the nearest is sent exactly when the ground does not decide
a tie the wrong way. -/
theorem nearestSent_iff (hidle : AllIdle state.cars sourceFloor destFloor)
    (hcall : (handleElevatorCall state sourceFloor destFloor outcome).2.1 ≠ none) :
    NearestSent state sourceFloor destFloor outcome ↔
      ¬ TiedAcrossGround state.cars sourceFloor destFloor := by
  obtain ⟨name, hname⟩ := Option.ne_none_iff_exists'.mp hcall
  obtain ⟨record, car, -, -, hbest, -, hassigned, -⟩ :=
    @handleElevatorCall_selected state sourceFloor destFloor outcome _ name _
      (by rw [← hname])
  have hscore : ∀ other ∈ state.cars, Serves other sourceFloor destFloor →
      distanceScore other sourceFloor destFloor =
        labelDistance other sourceFloor := by
    intro other hother hserves
    obtain ⟨hqueue, hdirection⟩ := hidle other hother hserves
    exact distanceScore_of_idle hqueue hdirection
  have hleast : FirstLeast (Serves · sourceFloor destFloor)
      (labelDistance · sourceFloor) state.cars record car := by
    obtain ⟨hplace, hserves, hmin, hfirst⟩ :=
      ((bestCar_eq_some_iff state.cars record car).mp hbest).1.congr
        fun other hother hserves => (hscore other hother hserves).symm
    exact ⟨hplace, hserves,
      fun j other hj hother => Int.ofNat_le.mp (hmin j other hj hother),
      fun j other hlt hj hother => Int.ofNat_lt.mp (hfirst j other hlt hj hother)⟩
  have htravel := floorsToTravel_eq car sourceFloor
  constructor
  · rintro hnearest ⟨place, near, hnear, hside, far, hfar, hserves, hacross, htied⟩
    obtain ⟨rfl, rfl⟩ := hleast.unique hnear
    obtain ⟨chosen, hchosen, -, hmin⟩ := hnearest record hassigned
    obtain rfl : car = chosen :=
      Option.some.inj (hleast.place.symm.trans hchosen)
    have hle := hmin far hfar hserves
    have hfarTravel := floorsToTravel_eq far sourceFloor
    rw [if_pos hside] at htravel
    rw [if_neg hacross] at hfarTravel
    omega
  · intro huntied other hother
    obtain ⟨chosen, hchosen⟩ := bestCar_of_assigned hother
    obtain ⟨rfl, rfl⟩ := Prod.mk.inj (Option.some.inj (hbest.symm.trans hchosen))
    refine ⟨car, hleast.place, hleast.admitted, fun far hfar hserves => ?_⟩
    by_contra hfurther
    obtain ⟨j, hj⟩ := List.getElem?_of_mem hfar
    have hle := hleast.least j far hj hserves
    have hfarTravel := floorsToTravel_eq far sourceFloor
    apply huntied
    refine ⟨record, car, hleast, ?_, far, hfar, hserves, ?_, ?_⟩
    · by_contra hside
      rw [if_neg hside] at htravel
      split at hfarTravel <;> omega
    · intro hside
      rw [if_pos hside] at hfarTravel
      split at htravel <;> omega
    · split at htravel <;> split at hfarTravel <;> omega

/-- Beta and Gamma are two floors from floor 3; Delta, below the ground, is three
floors away, which count as four. -/
def parkedShafts : ControllerState where
  cars := [parkedCar "Alpha" (-2) 10 9 4, parkedCar "Beta" (-2) 10 5 6,
    parkedCar "Gamma" (-2) 10 1 7, parkedCar "Delta" (-2) 10 (-1) 8]
  masterSet := [4, 5, 6, 7, 8]

theorem nearestSent_iff_tied :
    NearestSent parkedShafts 3 7 ⟨true, true, true⟩ := by
  apply (nearestSent_iff (by decide) (by decide)).mpr
  rintro ⟨record, near, hleast, -, far, hfar, -, hacross, htied⟩
  have hnear : labelDistance near 3 ≤ 2 :=
    hleast.least 1 (parkedCar "Beta" (-2) 10 5 6) rfl (by decide)
  have hfurther : ∀ car ∈ parkedShafts.cars, ¬ OnSourceSide car 3 →
      labelDistance car 3 = 4 := by
    decide
  rw [hfurther far hfar hacross] at htied
  omega

/-- Alpha on floor 3 and Beta on floor B1 of a building with a basement. -/
def aroundTheGround : ControllerState where
  cars := [
    { idleCar with
      lowestFloor := floorToString (-1)
      currentfloor := floorToString 3
      destinationfloor := floorToString 3 },
    { idleCar with
      name := .store 50 "Beta".toList
      lowestFloor := floorToString (-1)
      currentfloor := floorToString (-1)
      destinationfloor := floorToString (-1)
      connectionsocket := 6 }]
  masterSet := [4, 5, 6]

/-- Called from floor 1, Alpha comes down two floors, though Beta is one floor
away. -/
theorem further_car_is_sent :
    ¬ ∀ (state : ControllerState) (sourceFloor destFloor : Int)
        (outcome : CallOutcome),
      AllIdle state.cars sourceFloor destFloor →
      (∀ car ∈ state.cars, IsLabel car.currentfloor) →
      (handleElevatorCall state sourceFloor destFloor outcome).2.1 ≠ none →
      NearestSent state sourceFloor destFloor outcome := by
  intro hall
  have hnearest := hall aroundTheGround 1 5 ⟨true, true, true⟩ (by decide)
    (by decide) (by decide)
  obtain ⟨car, hcar, -, hmin⟩ := hnearest 0 (by decide)
  obtain rfl := Option.some.inj hcar
  exact absurd (hmin _ (List.mem_cons_of_mem _ (List.mem_singleton_self _))
    (by decide)) (by decide)

end Nearest

end Elevator
