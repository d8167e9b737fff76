/-
Trips.  The movement loop makes as many moves as the two floor numbers differ,
and each move takes the car one storey on.  Across ground level the numbers
differ by one more than the storeys, since there is no floor 0, and the car
goes one storey too far.
-/
import Elevator.Shaft
import Mathlib.Data.List.Iterate

namespace Elevator

open CText Transition

/-- The labels of the storeys from one floor to another, both included, in the
order in which a car passes them. -/
def route (source dest : Int) : List (CString 4) :=
  (List.range ((storey dest - storey source).natAbs + 1)).map fun i : Nat =>
    floorToString (floorAt (storey source + (storey dest - storey source).sign * i))

/-- The floors a car is seen on while the actions take place: each floor once
for as long as the car stays there. -/
def floorsSeen (car : CarState) : List CarAction → List (CString 4)
  | [] => [car.data.currentFloor]
  | action :: rest =>
      if (carStep car action).data.currentFloor = car.data.currentFloor then
        floorsSeen (carStep car action) rest
      else car.data.currentFloor :: floorsSeen (carStep car action) rest

/-- The label that a move of a trip leaves in `current_floor`. -/
def nextLabel (floordiff : Int) (label : CString 4) : CString 4 :=
  floorToString (movedFloor (stringToFloor label) (if 0 < floordiff then 1 else -1))

section Moves

variable {floordiff : Int}

/-- From a floor of the building a move leads to the next storey; what four
bytes hold of its label is the whole label, except beyond B99 and 999. -/
theorem nextLabel_floorAt {level : Int} (hfloor : IsFloor (floorAt level)) :
    nextLabel floordiff (floorToString (floorAt level)) =
      floorToString (floorAt (level + if 0 < floordiff then 1 else -1)) := by
  have hne := movedFloor_ne_zero hfloor.ne_zero (if 0 < floordiff then 1 else -1)
  have hstorey := storey_movedFloor hfloor.ne_zero (if 0 < floordiff then 1 else -1)
  rw [storey_floorAt] at hstorey
  rw [nextLabel, stringToFloor_floorToString hfloor, ← hstorey, floorAt_storey hne]

theorem nextLabel_ne {label : CString 4} (hlabel : IsLabel label) :
    nextLabel floordiff label ≠ label := by
  obtain ⟨floor, hfloor, rfl⟩ := hlabel
  intro heq
  have hnumber := congrArg stringToFloor heq
  rw [nextLabel, stringToFloor_floorToString hfloor] at hnumber
  have hne := movedFloor_ne_zero hfloor.ne_zero (if 0 < floordiff then 1 else -1)
  have hstorey := storey_movedFloor hfloor.ne_zero (if 0 < floordiff then 1 else -1)
  by_cases hmoved : IsFloor (movedFloor floor (if 0 < floordiff then 1 else -1))
  · rw [stringToFloor_floorToString hmoved] at hnumber
    rw [hnumber] at hstorey
    split_ifs at hstorey <;> omega
  · -- past the last label only its first three characters are left
    have hbeyond : movedFloor floor (if 0 < floordiff then 1 else -1) = 1000 ∧
          floor = 999 ∨
        movedFloor floor (if 0 < floordiff then 1 else -1) = -100 ∧
          floor = -99 := by
      simp only [IsFloor, storey] at *
      split_ifs at * <;> omega
    rcases hbeyond with ⟨hnext, rfl⟩ | ⟨hnext, rfl⟩
    · rw [hnext] at hnumber
      exact absurd hnumber (by decide)
    · rw [hnext] at hnumber
      exact absurd hnumber (by decide)

theorem iterate_nextLabel {level : Int} (k : Nat)
    (hfloors : ∀ j : Nat, j < k →
      IsFloor (floorAt (level + (if 0 < floordiff then 1 else -1) * j))) :
    (nextLabel floordiff)^[k] (floorToString (floorAt level)) =
      floorToString (floorAt (level + (if 0 < floordiff then 1 else -1) * k)) := by
  induction k with
  | zero => simp
  | succ k ih =>
      rw [Function.iterate_succ_apply',
        ih fun j hj => hfloors j (Nat.lt_succ_of_lt hj),
        nextLabel_floorAt (hfloors k (Nat.lt_succ_self k))]
      congr 2
      push_cast
      rw [Int.mul_add, Int.mul_one, Int.add_assoc]

end Moves

section Loop

variable {floordiff : Int}

def afterLap (car : CarState) (floordiff : Int) (i : Nat) : CarState :=
  { car with
    data := { car.data with
      currentFloor := nextLabel floordiff car.data.currentFloor
      status := statusNames .Closed }
    readFlag := 1
    process := moveLoop floordiff (i + 1) }

theorem run_lap {car : CarState} {i : Nat}
    (hpc : car.process = .setBetween floordiff i) :
    run carStep car (List.replicate 5 .process) = afterLap car floordiff i := by
  obtain ⟨data, shmSend, readFlag, lowest, highest, process, doorcontrol⟩ := car
  obtain rfl : process = _ := hpc
  rfl

theorem floorsSeen_lap {car : CarState} {i : Nat}
    (hpc : car.process = .setBetween floordiff i)
    (hlabel : IsLabel car.data.currentFloor) (rest : List CarAction) :
    floorsSeen car (List.replicate 5 .process ++ rest) =
      car.data.currentFloor :: floorsSeen (afterLap car floordiff i) rest := by
  obtain ⟨data, shmSend, readFlag, lowest, highest, process, doorcontrol⟩ := car
  obtain rfl : process = _ := hpc
  simp only [List.replicate, List.cons_append, List.nil_append, floorsSeen, carStep,
    processStep, edit_setStatus, edit_moveCurrent, if_true]
  exact if_neg (nextLabel_ne hlabel)

/-- The rest of the loop: what it leaves behind, and the floors it passes. -/
theorem run_moveLoop (k : Nat) {car : CarState} {i : Nat}
    (hpc : car.process = moveLoop floordiff i) (hleft : i + k = floordiff.natAbs)
    (hlabel : IsLabel car.data.currentFloor) :
    (run carStep car (List.replicate (5 * k) .process)).process =
        .serve DoorFrame.enter ∧
      (run carStep car (List.replicate (5 * k) .process)).data.currentFloor =
        (nextLabel floordiff)^[k] car.data.currentFloor ∧
      floorsSeen car (List.replicate (5 * k) .process) =
        List.iterate (nextLabel floordiff) car.data.currentFloor (k + 1) := by
  induction k generalizing car i with
  | zero =>
      rw [moveLoop, if_neg (by omega)] at hpc
      exact ⟨hpc, rfl, rfl⟩
  | succ k ih =>
      rw [moveLoop, if_pos (by omega)] at hpc
      have hnext : IsLabel (afterLap car floordiff i).data.currentFloor :=
        floorToString_isLabel _
      obtain ⟨hprocess, hfloor, hseen⟩ :=
        @ih (afterLap car floordiff i) (i + 1) rfl (by omega) hnext
      have hsplit : List.replicate (5 * (k + 1)) CarAction.process =
          List.replicate 5 .process ++ List.replicate (5 * k) .process := by
        rw [List.replicate_append_replicate]
        congr 1
        omega
      rw [hsplit, run_append, run_lap hpc, floorsSeen_lap hpc hlabel]
      exact ⟨hprocess, hfloor, congrArg (car.data.currentFloor :: ·) hseen⟩

end Loop

/-- A car about to set off: the process thread is at the top of its loop, the
doors are closed, and the destination is another floor of the shaft. -/
structure AtDeparture (car : CarState) : Prop where
  top : car.process = .top
  current : IsLabel car.data.currentFloor
  destination : IsLabel car.data.destinationFloor
  above : stringToFloor car.lowestFloor ≤ stringToFloor car.data.destinationFloor
  below : stringToFloor car.data.destinationFloor ≤ stringToFloor car.highestFloor
  away : car.data.destinationFloor ≠ car.data.currentFloor
  closed : car.data.status = statusNames .Closed

def CarState.floordiff (car : CarState) : Int :=
  stringToFloor car.data.destinationFloor - stringToFloor car.data.currentFloor

/-- The steps from the top of the loop to the end of the movement loop. -/
def trip (car : CarState) : List CarAction :=
  List.replicate (3 + 5 * car.floordiff.natAbs) .process

section Departure

variable {car : CarState}

theorem AtDeparture.clampDestination (hcar : AtDeparture car) :
    clampDestination car.lowestFloor car.highestFloor car.data = car.data := by
  simp only [Elevator.clampDestination, gt_iff_lt, if_neg (Int.not_lt.mpr hcar.below),
    if_neg (Int.not_lt.mpr hcar.above)]

theorem AtDeparture.readCarStatus (hcar : AtDeparture car) :
    readCarStatus car.data = some .Closed := by
  rw [Elevator.readCarStatus, hcar.closed, stringToStatus_statusNames]

/-- The destination and the doors are checked, and the loop is entered; the car
has not moved. -/
theorem AtDeparture.enterLoop (hcar : AtDeparture car) (rest : List CarAction) :
    run carStep car (List.replicate 3 .process) =
        { car with process := moveLoop car.floordiff 0 } ∧
      floorsSeen car (List.replicate 3 .process ++ rest) =
        floorsSeen { car with process := moveLoop car.floordiff 0 } rest := by
  have hclamp := hcar.clampDestination
  have haway := hcar.away
  have hclosed := hcar.readCarStatus
  have htop := hcar.top
  obtain ⟨data, shmSend, readFlag, lowest, highest, process, doorcontrol⟩ := car
  obtain rfl : process = _ := htop
  simp only at hclamp haway hclosed
  constructor
  · simp [List.replicate, carStep, processStep, hclamp, haway, hclosed,
      CarState.floordiff]
  · simp [List.replicate, floorsSeen, carStep, processStep, hclamp, haway, hclosed,
      CarState.floordiff]

/-- The whole trip: as many moves as the floor numbers differ. -/
theorem AtDeparture.trip (hcar : AtDeparture car) :
    (Transition.run carStep car (trip car)).process = .serve DoorFrame.enter ∧
      (Transition.run carStep car (trip car)).data.currentFloor =
        (nextLabel car.floordiff)^[car.floordiff.natAbs] car.data.currentFloor ∧
      Elevator.floorsSeen car (trip car) =
        List.iterate (nextLabel car.floordiff) car.data.currentFloor
          (car.floordiff.natAbs + 1) := by
  obtain ⟨hrun, hseen⟩ := hcar.enterLoop
    (List.replicate (5 * car.floordiff.natAbs) .process)
  rw [Elevator.trip, ← List.replicate_append_replicate, run_append, hrun, hseen]
  exact run_moveLoop _ rfl (Nat.zero_add _) hcar.current

/-- The floors between two floors of a building belong to it. -/
theorem isFloor_between {source dest : Int} (hsource : IsFloor source)
    (hdest : IsFloor dest) {j : Nat}
    (hj : j ≤ (storey dest - storey source).natAbs) :
    IsFloor (floorAt (storey source +
      (if 0 < dest - source then 1 else -1) * j)) := by
  have hle := storey_le_iff hsource.ne_zero hdest.ne_zero
  have hge := storey_le_iff hdest.ne_zero hsource.ne_zero
  split_ifs with hup
  · apply isFloor_of_storey_between hsource hdest (floorAt_ne_zero _) <;>
      rw [storey_floorAt] <;> omega
  · apply isFloor_of_storey_between hdest hsource (floorAt_ne_zero _) <;>
      rw [storey_floorAt] <;> omega

/-- Which way the moves go, as the sign of the storeys to go. -/
theorem sign_storey_sub {source dest : Int} (hsource : source ≠ 0) (hdest : dest ≠ 0)
    (haway : dest ≠ source) :
    (storey dest - storey source).sign = if 0 < dest - source then 1 else -1 := by
  have hle := storey_le_iff hsource hdest
  have hge := storey_le_iff hdest hsource
  split_ifs with hup
  · exact Int.sign_eq_one_of_pos (by omega)
  · exact Int.sign_eq_neg_one_of_neg (by omega)

/-- After as many moves as there are storeys to go, the car is there, and has
followed the route. -/
theorem iterate_nextLabel_storeys {source dest : Int} (hsource : IsFloor source)
    (hdest : IsFloor dest) (haway : dest ≠ source) :
    (nextLabel (dest - source))^[(storey dest - storey source).natAbs]
        (floorToString source) = floorToString dest ∧
      List.iterate (nextLabel (dest - source)) (floorToString source)
        ((storey dest - storey source).natAbs + 1) = route source dest := by
  have hsign := sign_storey_sub hsource.ne_zero hdest.ne_zero haway
  have hiterate (k : Nat) (hk : k ≤ (storey dest - storey source).natAbs) :
      (nextLabel (dest - source))^[k] (floorToString source) =
        floorToString (floorAt (storey source +
          (storey dest - storey source).sign * k)) := by
    rw [hsign, ← iterate_nextLabel k fun j hj => isFloor_between hsource hdest (by omega),
      floorAt_storey hsource.ne_zero]
  constructor
  · rw [hiterate _ (Nat.le_refl _), Int.sign_mul_natAbs, Int.add_comm,
      Int.sub_add_cancel, floorAt_storey hdest.ne_zero]
  · rw [← List.range_map_iterate, route]
    apply List.map_congr_left
    intro k hk
    exact hiterate k (Nat.lt_succ_iff.mp (List.mem_range.mp hk))

/-- The numbers differ by the storeys to go, or across ground level by one more:
there is no floor 0. -/
theorem natAbs_floordiff (source dest : Int) :
    (dest - source).natAbs = (storey dest - storey source).natAbs +
      if source < 0 ↔ dest < 0 then 0 else 1 := by
  simp only [storey]
  split_ifs <;> omega

/-- The movement loop comes to an end.  It ends at the destination, having
passed the floors in between in order and no others, exactly when the trip does
not cross ground level. -/
theorem trip_ends_at_destination_iff (hcar : AtDeparture car) :
    (run carStep car (trip car)).process = .serve DoorFrame.enter ∧
      ((run carStep car (trip car)).data.currentFloor = car.data.destinationFloor ∧
          floorsSeen car (trip car) =
            route (stringToFloor car.data.currentFloor)
              (stringToFloor car.data.destinationFloor) ↔
        (stringToFloor car.data.currentFloor < 0 ↔
          stringToFloor car.data.destinationFloor < 0)) := by
  obtain ⟨hprocess, hfloor, hseen⟩ := hcar.trip
  refine ⟨hprocess, ?_⟩
  rw [hfloor, hseen]
  have hsource := isFloor_stringToFloor hcar.current
  have hdest := isFloor_stringToFloor hcar.destination
  have haway : stringToFloor car.data.destinationFloor ≠
      stringToFloor car.data.currentFloor := fun heq =>
    hcar.away (hcar.destination.ext hcar.current heq)
  obtain ⟨hends, hroute⟩ := iterate_nextLabel_storeys hsource hdest haway
  rw [hcar.current.floorToString_stringToFloor] at hends hroute
  rw [hcar.destination.floorToString_stringToFloor] at hends
  rw [CarState.floordiff, natAbs_floordiff]
  split_ifs with hside
  · rw [Nat.add_zero]
    exact iff_of_true ⟨hends, hroute⟩ hside
  · -- the last move takes the car past the destination
    apply iff_of_false _ hside
    rintro ⟨hthere, -⟩
    rw [Function.iterate_succ_apply', hends] at hthere
    exact nextLabel_ne hcar.destination hthere

/-- A car in a shaft from B1 to 5 that has been ordered to another floor. -/
def orderedCar (source dest : Int) : CarState :=
  { startCar (floorToString (-1)) (floorToString 5) 1 with
    process := .top
    data := { initSharedData (floorToString source) with
      destinationFloor := floorToString dest } }

/-- Ordered from 2 to 4, a car stops on 4. -/
theorem trip_from_two_to_four :
    (run carStep (orderedCar 2 4) (trip (orderedCar 2 4))).data.currentFloor =
      floorToString 4 := by
  have hcar : AtDeparture (orderedCar 2 4) :=
    ⟨rfl, by decide, by decide, by decide, by decide, by decide, rfl⟩
  exact ((trip_ends_at_destination_iff hcar).2.mpr (by decide)).1

/-- Ordered from B1 to 1, the floor above it, a car goes on to 2. -/
theorem trip_from_b1_overshoots :
    ¬ ∀ car : CarState, AtDeparture car →
      (run carStep car (trip car)).data.currentFloor =
          car.data.destinationFloor ∧
        floorsSeen car (trip car) =
          route (stringToFloor car.data.currentFloor)
            (stringToFloor car.data.destinationFloor) := by
  intro hends
  have hthere := hends (orderedCar (-1) 1)
    ⟨rfl, by decide, by decide, by decide, by decide, by decide, rfl⟩
  exact absurd hthere.1 (by decide)

end Departure

end Elevator
