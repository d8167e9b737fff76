/-
One door cycle for each order.  The doors are asked to open in two ways, by
`shm_send` and by the end of a trip, and only the first call of `operate_door`
takes the request back.  An order gets exactly one cycle if it comes in turn.
-/
import Elevator.Attending

namespace Elevator

open CText Transition

def AtRest (car : CarState) : Prop :=
  car.process = .top ∧ car.shmSend ≠ 1 ∧
    car.data.destinationFloor = car.data.currentFloor

instance (car : CarState) : Decidable (AtRest car) :=
  inferInstanceAs (Decidable (_ ∧ _ ∧ _))

/-- Left to itself, the process thread comes to rest. -/
def ComesToRest (car : CarState) : Prop :=
  ∃ steps, AtRest (run carStep car (List.replicate steps .process))

/-- One cycle for each order: the cycles follow the orders floor by floor, none
is owed by a car at rest, and the car does come to rest. -/
structure ServedOnce (state : CarState × List CarEvent) : Prop where
  inOrder : cyclesOf state.2 <+: ordersOf state.2
  atRest : AtRest state.1 → cyclesOf state.2 = ordersOf state.2
  comesToRest : ComesToRest state.1

/-- A car parked on a floor of its shaft with its doors closed. -/
structure Parked (car : CarState) : Prop where
  process : car.process = .start ∨ car.process = .top ∧ car.readFlag = 1
  shmSend : car.shmSend ≠ 1
  status : car.data.status = statusNames .Closed
  here : car.data.destinationFloor = car.data.currentFloor
  label : IsLabel car.data.currentFloor
  serves : ServesFloor car car.data.currentFloor
  openButton : car.data.openButton = 0
  closeButton : car.data.closeButton = 0
  doorcontrol : car.doorcontrol = none

/-- The steps of the trip to the destination and of the cycle at its end. -/
def CarState.tripSteps (car : CarState) : Nat :=
  if car.data.destinationFloor = car.data.currentFloor then 0
  else 5 * car.floorsAhead.natAbs + 24

/-- The steps of the cycle that `shm_send` asks for. -/
def CarState.requestSteps (car : CarState) : Nat :=
  if car.shmSend = 1 then 24 else 0

/-- The steps the process thread takes to come to rest. -/
def CarState.stepsLeft (car : CarState) : Nat :=
  match car.process with
  | .start => car.tripSteps + car.requestSteps + 1
  | .top => car.tripSteps + car.requestSteps
  | .checkSend atDestination floordiff =>
      if atDestination then (if car.shmSend = 1 then 23 else 1)
      else 5 * floordiff.natAbs + 23 + car.requestSteps
  | .arrived frame => frame.stepsLeft + car.tripSteps + 2
  | .clearSend => car.tripSteps + 1
  | .checkClosed floordiff => 5 * floordiff.natAbs + 22 + car.requestSteps
  | .setBetween floordiff i =>
      5 * (floordiff.natAbs - i) + 21 + car.requestSteps
  | .lowerFlag floordiff i =>
      5 * (floordiff.natAbs - i) + 20 + car.requestSteps
  | .move floordiff i => 5 * (floordiff.natAbs - i) + 19 + car.requestSteps
  | .setClosed floordiff i =>
      5 * (floordiff.natAbs - i) + 18 + car.requestSteps
  | .raiseFlag floordiff i =>
      5 * (floordiff.natAbs - i) + 17 + car.requestSteps
  | .serve frame => frame.stepsLeft + 1 + car.requestSteps

theorem Attending.inOrder {state : CarState × List CarEvent}
    (hinv : Attending state) : cyclesOf state.2 <+: ordersOf state.2 := by
  obtain ⟨-, served, hdoing⟩ := hinv
  unfold Doing at hdoing
  split at hdoing
  case h_1 => exact hdoing.2.inOrder
  case h_2 => exact hdoing.2.inOrder
  case h_3 => exact hdoing.2.2.inOrder
  case h_4 => exact hdoing.2.inOrder
  case h_5 => exact hdoing.2.2.inOrder
  case h_6 => exact hdoing.2.2.inOrder
  case h_7 => exact hdoing.2.2.inOrder
  case h_8 => exact hdoing.2.2.inOrder
  case h_9 => exact hdoing.2.2.inOrder
  case h_10 => exact hdoing.2.2.inOrder
  case h_11 => exact hdoing.2.2.inOrder
  case h_12 =>
    obtain ⟨hhere, hserving⟩ := hdoing
    rw [hhere] at hserving
    exact hserving.inOrder

theorem Attending.atRest {state : CarState × List CarEvent}
    (hinv : Attending state) (hrest : AtRest state.1) :
    cyclesOf state.2 = ordersOf state.2 := by
  obtain ⟨hprocess, hsend, hhere⟩ := hrest
  obtain ⟨-, served, hdoing⟩ := hinv
  simp only [Doing, hprocess] at hdoing
  obtain ⟨-, hdoors, horders⟩ := hdoing
  rw [cyclesOf, hdoors, horders, CarState.ahead_of_here hhere,
    CarState.requested, if_neg hsend]
  simp

theorem CarState.tripSteps_of_here {car : CarState}
    (hhere : car.data.destinationFloor = car.data.currentFloor) :
    car.tripSteps = 0 :=
  if_pos hhere

theorem CarState.tripSteps_of_away {car : CarState}
    (haway : car.data.destinationFloor ≠ car.data.currentFloor) :
    car.tripSteps = 5 * car.floorsAhead.natAbs + 24 :=
  if_neg haway

/-- A door cycle does not lengthen the trip after it. -/
theorem CarState.tripSteps_doors (car : CarState) (frame : DoorFrame)
    (process : ProcessPc) :
    CarState.tripSteps { car with
      data := (operateDoorStep car.data frame).1, process := process } =
        car.tripSteps := by
  have hsame := operateDoorStep_sameButDoors car.data frame
  simp only [CarState.tripSteps, CarState.floorsAhead, hsame.currentFloor,
    hsame.destinationFloor]

section StepsLeft

variable {car : CarState} {log : List CarEvent} {floordiff : Int} {i : Nat}
  {frame : DoorFrame}

/-- With the destination reached and nothing requested, the car is at rest. -/
theorem stepsLeft_top (hserves : ServesFloor car car.data.destinationFloor)
    (hpc : car.process = .top) (hbusy : ¬ AtRest car) :
    (processStep car).stepsLeft < car.stepsLeft := by
  rw [processStep_top hserves hpc]
  simp only [CarState.stepsLeft, hpc]
  by_cases hhere : car.data.destinationFloor = car.data.currentFloor
  · have hsend : car.shmSend = 1 := by
      by_contra hsend
      exact hbusy ⟨hpc, hsend, hhere⟩
    simp [CarState.requestSteps, hhere, hsend]
  · rw [CarState.tripSteps_of_away hhere]
    simp only [hhere, decide_false, Bool.false_eq_true, if_false]
    change _ + 23 + car.requestSteps < _
    omega

theorem stepsLeft_checkSend {atDestination : Bool}
    (hpc : car.process = .checkSend atDestination floordiff)
    (hcompared : atDestination =
      decide (car.data.destinationFloor = car.data.currentFloor)) :
    (processStep car).stepsLeft < car.stepsLeft := by
  cases atDestination with
  | true =>
      have hhere := CarState.tripSteps_of_here (of_decide_eq_true hcompared.symm)
      by_cases hsend : car.shmSend = 1
      · rw [processStep_checkSend_requested hpc hsend]
        simp only [CarState.stepsLeft, hpc, if_pos hsend]
        change DoorFrame.enter.stepsLeft + car.tripSteps + 2 < 23
        rw [hhere]
        decide
      · rw [processStep_checkSend_idle hpc hsend]
        simp only [CarState.stepsLeft, hpc, if_neg hsend]
        change car.tripSteps + car.requestSteps < 1
        rw [hhere, CarState.requestSteps, if_neg hsend]
        decide
  | false =>
      rw [processStep_checkSend_away hpc]
      simp only [CarState.stepsLeft, hpc, Bool.false_eq_true, if_false]
      change _ + 22 + car.requestSteps < _
      omega

/-- Another floor costs five steps, and the last one makes way for the cycle. -/
theorem stepsLeft_raiseFlag (hpc : car.process = .raiseFlag floordiff i)
    (hcounting : i < floordiff.natAbs) :
    (processStep car).stepsLeft < car.stepsLeft := by
  by_cases hmore : i + 1 < floordiff.natAbs
  · rw [processStep_raiseFlag_more hpc hmore]
    simp only [CarState.stepsLeft, hpc]
    change _ + 21 + car.requestSteps < _
    omega
  · rw [processStep_raiseFlag_last hpc hmore]
    simp only [CarState.stepsLeft, hpc]
    change 20 + 1 + car.requestSteps < _
    omega

theorem stepsLeft_arrived (hpc : car.process = .arrived frame)
    (hless : ∀ next, (operateDoorStep car.data frame).2 = some next →
      next.stepsLeft < frame.stepsLeft) :
    (processStep car).stepsLeft < car.stepsLeft := by
  rw [processStep_arrived hpc]
  cases hframe : (operateDoorStep car.data frame).2 with
  | some next =>
      have hnext := hless next hframe
      simp only [Option.map_some, Option.getD_some, CarState.stepsLeft, hpc,
        CarState.tripSteps_doors]
      omega
  | none =>
      simp only [Option.map_none, Option.getD_none, CarState.stepsLeft, hpc,
        CarState.tripSteps_doors]
      omega

theorem stepsLeft_serve (hpc : car.process = .serve frame)
    (hhere : car.data.destinationFloor = car.data.currentFloor)
    (hless : ∀ next, (operateDoorStep car.data frame).2 = some next →
      next.stepsLeft < frame.stepsLeft) :
    (processStep car).stepsLeft < car.stepsLeft := by
  rw [processStep_serve hpc]
  cases hframe : (operateDoorStep car.data frame).2 with
  | some next =>
      have hnext := hless next hframe
      simp only [Option.map_some, Option.getD_some, CarState.stepsLeft, hpc]
      change next.stepsLeft + 1 + car.requestSteps < _
      omega
  | none =>
      simp only [Option.map_none, Option.getD_none, CarState.stepsLeft, hpc,
        CarState.tripSteps_doors, CarState.tripSteps_of_here hhere]
      change 0 + car.requestSteps < _
      omega

/-- A car that is not at rest comes one step closer to it. -/
theorem stepsLeft_processStep (hinv : Attending (car, log))
    (hbusy : ¬ AtRest car) :
    (processStep car).stepsLeft < car.stepsLeft := by
  obtain ⟨hcar, served, hdoing⟩ := hinv
  cases hpc : car.process with
  | start =>
      rw [processStep_start hpc]
      simp only [CarState.stepsLeft, hpc]
      exact Nat.lt_succ_self _
  | top => exact stepsLeft_top hcar.serves hpc hbusy
  | checkSend atDestination floordiff =>
      simp only [Doing, hpc] at hdoing
      exact stepsLeft_checkSend hpc hdoing.1.1
  | arrived frame =>
      simp only [Doing, hpc] at hdoing
      exact stepsLeft_arrived hpc fun next hnext => (hdoing.2.next hcar hnext).2
  | clearSend =>
      rw [processStep_clearSend hpc]
      simp only [CarState.stepsLeft, hpc]
      exact Nat.lt_succ_self _
  | checkClosed floordiff =>
      simp only [Doing, hpc] at hdoing
      obtain ⟨⟨haway, rfl⟩, hstatus, -⟩ := hdoing
      rw [processStep_checkClosed hpc hstatus (hcar.natAbs_floorsAhead_pos haway)]
      simp only [CarState.stepsLeft, hpc]
      change _ + 21 + car.requestSteps < _
      omega
  | setBetween floordiff i =>
      simp only [processStep, hpc, CarState.stepsLeft]
      change _ + 20 + car.requestSteps < _
      omega
  | lowerFlag floordiff i =>
      simp only [processStep, hpc, CarState.stepsLeft]
      change _ + 19 + car.requestSteps < _
      omega
  | move floordiff i =>
      simp only [processStep, hpc, CarState.stepsLeft]
      change _ + 18 + car.requestSteps < _
      omega
  | setClosed floordiff i =>
      simp only [processStep, hpc, CarState.stepsLeft]
      change _ + 17 + car.requestSteps < _
      omega
  | raiseFlag floordiff i =>
      simp only [Doing, hpc] at hdoing
      obtain ⟨⟨hcounting, -⟩, -⟩ := hdoing
      rw [hpc] at hcounting
      simp only [ProcessPc.Counting] at hcounting
      exact stepsLeft_raiseFlag hpc hcounting
  | serve frame =>
      simp only [Doing, hpc] at hdoing
      exact stepsLeft_serve hpc hdoing.1 fun next hnext =>
        (hdoing.2.next hcar hnext).2

end StepsLeft

theorem Attending.comesToRest {state : CarState × List CarEvent}
    (hinv : Attending state) : ComesToRest state.1 := by
  refine reaches_of_rank CarAction.process CarState.stepsLeft
    (fun car (hcar : ∃ log, Attending (car, log)) _ => ?_)
    (fun car hcar hbusy => ?_) ⟨state.2, hinv⟩
  · obtain ⟨log, hlog⟩ := hcar
    exact ⟨_, attending_process hlog⟩
  · obtain ⟨log, hlog⟩ := hcar
    exact stepsLeft_processStep hlog hbusy

theorem Attending.servedOnce {state : CarState × List CarEvent}
    (hinv : Attending state) : ServedOnce state :=
  ⟨hinv.inOrder, hinv.atRest, hinv.comesToRest⟩

theorem attending_parked {car : CarState} (hparked : Parked car) :
    Attending (car, []) := by
  obtain ⟨hprocess, hsend, hstatus, hhere, hlabel, hserves, hopen, hclose, hdoor⟩ :=
    hparked
  have howing : Owing [] [] (car.ahead ++ car.requested) := by
    rw [CarState.ahead_of_here hhere, CarState.requested, if_neg hsend]
    exact ⟨rfl, rfl⟩
  refine ⟨⟨hlabel, hhere ▸ hlabel, hhere ▸ hserves, by rw [hhere], hopen, hclose,
    hdoor, ?_⟩, [], ?_⟩
  · intro hreads
    rcases hprocess with hpc | ⟨-, hread⟩
    · simp [hpc, ProcessPc.reads] at hreads
    · exact hread
  · rcases hprocess with hpc | ⟨hpc, -⟩
    · simpa only [Doing, hpc] using ⟨hstatus, howing⟩
    · simpa only [Doing, hpc] using ⟨hstatus, howing⟩

/-- A parked car performs exactly one door cycle for each order, on its floor
and in the order of their arrival, as long as the orders come in turn. -/
theorem servedOnce_of_inTurn {car : CarState} (hparked : Parked car)
    (actions : List CarAction)
    (hguard : Along (logged carEvents)
      (fun state action => DoorsLeftAlone action ∧ InTurn state.1 action)
      (car, []) actions) :
    Always (logged carEvents) ServedOnce (car, []) actions :=
  always_of_invariant attending_step (fun _ hinv => hinv.servedOnce)
    (attending_parked hparked) hguard

/-- Ordered to floor 1, where it stands; to floor 3, while the doors are open;
and there once more, on the way. -/
def orderedInTurn : List CarAction :=
  [.process, .floor (floorToString 1)] ++ List.replicate 8 .process ++
    [.floor (floorToString 3)] ++ List.replicate 20 .process ++
    [.floor (floorToString 3)] ++ List.replicate 10 .process

/-- Each of the three orders gets its cycle. -/
theorem servedOnce_threeOrders :
    Always (logged carEvents) ServedOnce (demoCar, []) orderedInTurn :=
  servedOnce_of_inTurn
    ⟨.inl rfl, by decide, rfl, rfl, by decide, by decide, rfl, rfl, rfl⟩ _ <|
    (along_of_forall_mem (by
      simp [orderedInTurn, DoorsLeftAlone, or_imp, forall_and])).and (by decide)

/-- One order to floor 2 for the car on floor 1, and time to carry it out. -/
def orderedAway : List CarAction :=
  [.process, .floor (floorToString 2)] ++ List.replicate 51 .process

set_option maxRecDepth 1000 in
/-- The trip ends in a door cycle, and the request to open, which nothing has
cleared, brings on a second one. -/
theorem served_twice :
    (∀ action ∈ orderedAway, DoorsLeftAlone action) ∧
      AtRest (run (logged carEvents) (demoCar, []) orderedAway).1 ∧
      ordersOf (run (logged carEvents) (demoCar, []) orderedAway).2 =
        [floorToString 2] ∧
      cyclesOf (run (logged carEvents) (demoCar, []) orderedAway).2 =
        [floorToString 2, floorToString 2] ∧
      ¬ Always (logged carEvents) ServedOnce (demoCar, []) orderedAway := by
  refine ⟨?_, by decide, by decide, by decide, ?_⟩
  · simp [orderedAway, DoorsLeftAlone, or_imp, forall_and]
  · intro halways
    exact absurd (halways.final.atRest (by decide)) (by decide)

end Elevator
