/-
What a car owes.  The log of a car splits into the orders that have had their
door cycle and those that are owed one, and where the process thread stands
says which are owed.  Every step keeps the account as long as the orders come
in turn.
-/
import Elevator.DoorCycle
import Elevator.Settling
import Elevator.Shaft

namespace Elevator

open CText Transition

/-- Other processes press no button and write neither floors nor the status. -/
def DoorsLeftAlone : CarAction → Prop
  | .external edit => ∀ shm,
      (edit shm).status = shm.status ∧
      (edit shm).currentFloor = shm.currentFloor ∧
      (edit shm).destinationFloor = shm.destinationFloor ∧
      (edit shm).openButton = shm.openButton ∧
      (edit shm).closeButton = shm.closeButton
  | _ => True

/-- Inside the first call of `operate_door`, and before `shm_send` is cleared
after it. -/
def ProcessPc.answering : ProcessPc → Bool
  | .arrived _ | .clearSend => true
  | _ => false

/-- Another floor of the shaft, on the same side of ground level. -/
def Reachable (car : CarState) (label : CString 4) : Prop :=
  IsLabel label ∧ ServesFloor car label ∧ label ≠ car.data.currentFloor ∧
    (stringToFloor car.data.currentFloor < 0 ↔ stringToFloor label < 0)

instance (car : CarState) (label : CString 4) : Decidable (Reachable car label) :=
  inferInstanceAs (Decidable (_ ∧ _ ∧ _ ∧ _))

/-- An order comes in turn if it names the floor the car stands on or heads for
and finds no request to open; or if it names another floor, finds the car
answering the request before it, and is the first to do so. -/
def InTurn (car : CarState) : CarAction → Prop
  | .floor label =>
      label = car.data.destinationFloor ∧ car.shmSend ≠ 1 ∨
        car.process.answering = true ∧
          car.data.destinationFloor = car.data.currentFloor ∧
          Reachable car label
  | _ => True

instance inTurnDecidable (car : CarState) :
    (action : CarAction) → Decidable (InTurn car action)
  | .floor _ => inferInstanceAs (Decidable (_ ∧ _ ∨ _ ∧ _ ∧ _))
  | .process => isTrue trivial
  | .doorcontrol => isTrue trivial
  | .external _ => isTrue trivial

/-- Where `read_flag` is known to be raised. -/
def ProcessPc.reads : ProcessPc → Bool
  | .top | .checkSend _ _ | .arrived _ | .clearSend | .serve _ => true
  | _ => false

/-- No button is pressed, the open button is polled in vain, and the car and
its destination are floors of the shaft on one side of ground level. -/
structure Undisturbed (car : CarState) : Prop where
  current : IsLabel car.data.currentFloor
  destination : IsLabel car.data.destinationFloor
  serves : ServesFloor car car.data.destinationFloor
  sameSide : stringToFloor car.data.currentFloor < 0 ↔
    stringToFloor car.data.destinationFloor < 0
  openButton : car.data.openButton = 0
  closeButton : car.data.closeButton = 0
  doorcontrol : car.doorcontrol = none
  readFlag : car.process.reads = true → car.readFlag = 1

def CarState.floorsAhead (car : CarState) : Int :=
  stringToFloor car.data.destinationFloor - stringToFloor car.data.currentFloor

/-- The order that the request to open stands for. -/
def CarState.requested (car : CarState) : List (CString 4) :=
  if car.shmSend = 1 then [car.data.destinationFloor] else []

/-- The order that a trip will serve. -/
def CarState.ahead (car : CarState) : List (CString 4) :=
  if car.data.destinationFloor = car.data.currentFloor then []
  else [car.data.destinationFloor]

/-- No cycle has begun; of the orders, these are served and those owed. -/
structure Owing (log : List CarEvent) (served owed : List (CString 4)) :
    Prop where
  doors : doors log = ⟨0, served⟩
  orders : ordersOf log = served ++ owed

/-- The same inside a cycle, whose order counts as owed to its end. -/
structure Serving (shm : CarSharedData) (frame : DoorFrame)
    (log : List CarEvent) (served owed : List (CString 4)) : Prop where
  midCycle : ∃ shown, PartWay frame shm.status shown ∧
    doors log = showing served shown shm.currentFloor
  orders : ordersOf log = served ++ owed

/-- On a trip: as many moves are left as there are floors ahead. -/
def OnCourse (car : CarState) : Prop :=
  car.process.Counting ∧ car.floorsAhead = car.process.movesLeft

/-- What the orders owed are, by where the process thread stands. -/
def Doing (car : CarState) (log : List CarEvent) (served : List (CString 4)) :
    Prop :=
  match car.process with
  | .start | .top =>
      car.data.status = statusNames .Closed ∧
        Owing log served (car.ahead ++ car.requested)
  | .checkSend atDestination floordiff =>
      (atDestination = decide (car.data.destinationFloor = car.data.currentFloor) ∧
        floordiff = car.floorsAhead) ∧
        car.data.status = statusNames .Closed ∧
        Owing log served (car.ahead ++ car.requested)
  | .arrived frame =>
      car.shmSend = 1 ∧
        Serving car.data frame log served (car.data.currentFloor :: car.ahead)
  | .clearSend =>
      car.shmSend = 1 ∧ car.data.status = statusNames .Closed ∧
        Owing log served car.ahead
  | .checkClosed floordiff =>
      (car.data.destinationFloor ≠ car.data.currentFloor ∧
        floordiff = car.floorsAhead) ∧
        car.data.status = statusNames .Closed ∧
        Owing log served (car.data.destinationFloor :: car.requested)
  | .setBetween _ _ | .raiseFlag _ _ =>
      OnCourse car ∧ car.data.status = statusNames .Closed ∧
        Owing log served (car.data.destinationFloor :: car.requested)
  | .lowerFlag _ _ | .move _ _ | .setClosed _ _ =>
      OnCourse car ∧ car.data.status = statusNames .Between ∧
        Owing log served (car.data.destinationFloor :: car.requested)
  | .serve frame =>
      car.data.destinationFloor = car.data.currentFloor ∧
        Serving car.data frame log served
          (car.data.destinationFloor :: car.requested)

def Attending (state : CarState × List CarEvent) : Prop :=
  Undisturbed state.1 ∧ ∃ served, Doing state.1 state.2 served

theorem CarState.ahead_of_here {car : CarState}
    (hhere : car.data.destinationFloor = car.data.currentFloor) :
    car.ahead = [] :=
  if_pos hhere

theorem CarState.ahead_of_away {car : CarState}
    (haway : car.data.destinationFloor ≠ car.data.currentFloor) :
    car.ahead = [car.data.destinationFloor] :=
  if_neg haway

/-- Among floors of the shaft there are none ahead only on arrival. -/
theorem Undisturbed.floorsAhead_eq_zero {car : CarState} (hcar : Undisturbed car) :
    car.floorsAhead = 0 ↔
      car.data.destinationFloor = car.data.currentFloor := by
  constructor
  · intro hzero
    apply hcar.destination.ext hcar.current
    unfold CarState.floorsAhead at hzero
    omega
  · intro hhere
    rw [CarState.floorsAhead, hhere, Int.sub_self]

theorem Undisturbed.natAbs_floorsAhead_pos {car : CarState}
    (hcar : Undisturbed car)
    (haway : car.data.destinationFloor ≠ car.data.currentFloor) :
    0 < car.floorsAhead.natAbs := by
  have hne := mt hcar.floorsAhead_eq_zero.mp haway
  omega

/-- Inside a cycle, the cycles are still a prefix of the orders. -/
theorem Serving.inOrder {shm : CarSharedData} {frame : DoorFrame}
    {log : List CarEvent} {served owed : List (CString 4)}
    (hserving : Serving shm frame log served (shm.currentFloor :: owed)) :
    cyclesOf log <+: ordersOf log := by
  obtain ⟨⟨shown, hpart, hdoors⟩, horders⟩ := hserving
  rw [cyclesOf, hdoors, horders]
  refine (showing_partWay hpart served shm.currentFloor).trans ?_
  rw [List.prefix_append_right_inj]
  exact List.prefix_append [shm.currentFloor] owed

theorem Owing.inOrder {log : List CarEvent} {served owed : List (CString 4)}
    (howing : Owing log served owed) : cyclesOf log <+: ordersOf log := by
  rw [cyclesOf, howing.doors, howing.orders]
  exact List.prefix_append served owed

/-- The statuses of a car that moves change nothing. -/
theorem Owing.moving {log : List CarEvent} {served owed : List (CString 4)}
    (howing : Owing log served owed) {status : Status}
    (hmoving : status = .Between ∨ status = .Closed) (floor : CString 4) :
    Owing (log ++ [.showed (statusNames status) floor]) served owed where
  doors := by
    rw [doors_append, howing.doors, run_cons, run_nil]
    rcases hmoving with rfl | rfl
    · exact (watchDoors_moving served floor).1
    · exact (watchDoors_moving served floor).2
  orders := by
    rw [ordersOf_append, howing.orders]
    exact List.append_nil _

/-- A step that brings no order and shows no new status is not logged. -/
theorem logged_carEvents_quiet {car : CarState} {log : List CarEvent}
    {action : CarAction} (horders : (carOrders car action).2 = [])
    (hstatus : (carStep car action).data.status = car.data.status) :
    logged carEvents (car, log) action = (carStep car action, log) := by
  simp [logged, carEvents, horders, statusEvents_of_same hstatus]

theorem logged_carEvents_process (car : CarState) (log : List CarEvent) :
    logged carEvents (car, log) .process =
      (processStep car,
        log ++ statusEvents car.data (processStep car).data) := by
  simp [logged, carEvents, carOrders, carStep]

section ProcessSteps

variable {car : CarState} {log : List CarEvent} {served : List (CString 4)}
  {floordiff : Int} {i : Nat} {frame : DoorFrame}

theorem processStep_start (hpc : car.process = .start) :
    processStep car = { car with readFlag := 1, process := .top } := by
  simp only [processStep, hpc]

/-- The range check passes the destination. -/
theorem processStep_top (hserves : ServesFloor car car.data.destinationFloor)
    (hpc : car.process = .top) :
    processStep car = { car with
      process := .checkSend
        (decide (car.data.destinationFloor = car.data.currentFloor))
        car.floorsAhead } := by
  simp only [processStep, hpc, clampDestination_of_servesFloor hserves]
  rfl

theorem processStep_checkSend_requested
    (hpc : car.process = .checkSend true floordiff) (hsend : car.shmSend = 1) :
    processStep car = { car with process := .arrived .enter } := by
  simp [processStep, hpc, hsend]

theorem processStep_checkSend_idle
    (hpc : car.process = .checkSend true floordiff) (hsend : car.shmSend ≠ 1) :
    processStep car = { car with process := .top } := by
  simp [processStep, hpc, hsend]

theorem processStep_checkSend_away
    (hpc : car.process = .checkSend false floordiff) :
    processStep car = { car with process := .checkClosed floordiff } := by
  simp [processStep, hpc]

theorem processStep_arrived (hpc : car.process = .arrived frame) :
    processStep car = { car with
      data := (operateDoorStep car.data frame).1
      process := ((operateDoorStep car.data frame).2.map .arrived).getD
        .clearSend } := by
  simp only [processStep, hpc]

theorem processStep_clearSend (hpc : car.process = .clearSend) :
    processStep car = { car with shmSend := 0, process := .top } := by
  simp only [processStep, hpc]

theorem processStep_checkClosed (hpc : car.process = .checkClosed floordiff)
    (hstatus : car.data.status = statusNames .Closed)
    (hmoves : 0 < floordiff.natAbs) :
    processStep car = { car with process := .setBetween floordiff 0 } := by
  simp [processStep, hpc, readCarStatus, hstatus, moveLoop, hmoves]

theorem processStep_raiseFlag_more (hpc : car.process = .raiseFlag floordiff i)
    (hmore : i + 1 < floordiff.natAbs) :
    processStep car = { car with
      readFlag := 1, process := .setBetween floordiff (i + 1) } := by
  simp only [processStep, hpc, moveLoop, if_pos hmore]

theorem processStep_raiseFlag_last (hpc : car.process = .raiseFlag floordiff i)
    (hlast : ¬ i + 1 < floordiff.natAbs) :
    processStep car = { car with readFlag := 1, process := .serve .enter } := by
  simp only [processStep, hpc, moveLoop, if_neg hlast]

theorem processStep_serve (hpc : car.process = .serve frame) :
    processStep car = { car with
      data := (operateDoorStep car.data frame).1
      process := ((operateDoorStep car.data frame).2.map .serve).getD .top } := by
  simp only [processStep, hpc]

/-- A step of the process thread that shows no new status. -/
theorem attending_of_quiet {after : CarState} (hstep : processStep car = after)
    (hstatus : after.data.status = car.data.status)
    (hafter : Attending (after, log)) :
    Attending (logged carEvents (car, log) .process) := by
  rw [logged_carEvents_process, hstep, statusEvents_of_same hstatus,
    List.append_nil]
  exact hafter

theorem attending_start (hcar : Undisturbed car) (hpc : car.process = .start)
    (hdoing : Doing car log served) :
    Attending (logged carEvents (car, log) .process) := by
  simp only [Doing, hpc] at hdoing
  exact attending_of_quiet (processStep_start hpc) rfl
    ⟨{ hcar with readFlag := fun _ => rfl }, served, hdoing⟩

theorem attending_top (hcar : Undisturbed car) (hpc : car.process = .top)
    (hdoing : Doing car log served) :
    Attending (logged carEvents (car, log) .process) := by
  simp only [Doing, hpc] at hdoing
  have hread := hcar.readFlag (by rw [hpc]; rfl)
  exact attending_of_quiet (processStep_top hcar.serves hpc) rfl
    ⟨{ hcar with readFlag := fun _ => hread }, served, ⟨rfl, rfl⟩, hdoing⟩

theorem attending_checkSend (hcar : Undisturbed car) {atDestination : Bool}
    (hpc : car.process = .checkSend atDestination floordiff)
    (hdoing : Doing car log served) :
    Attending (logged carEvents (car, log) .process) := by
  simp only [Doing, hpc] at hdoing
  obtain ⟨⟨hcompared, rfl⟩, hstatus, howing⟩ := hdoing
  have hread := hcar.readFlag (by rw [hpc]; rfl)
  cases atDestination with
  | true =>
      have hhere := of_decide_eq_true hcompared.symm
      by_cases hsend : car.shmSend = 1
      · have howed : car.ahead ++ car.requested =
            car.data.currentFloor :: car.ahead := by
          simp [CarState.ahead_of_here hhere, CarState.requested, hsend, hhere]
        refine attending_of_quiet (processStep_checkSend_requested hpc hsend) rfl
          ⟨{ hcar with readFlag := fun _ => hread }, served, hsend, ?_, ?_⟩
        · exact ⟨[], hstatus ▸ partWay_enter, howing.doors⟩
        · exact howing.orders.trans (congrArg _ howed)
      · exact attending_of_quiet (processStep_checkSend_idle hpc hsend) rfl
          ⟨{ hcar with readFlag := fun _ => hread }, served, hstatus, howing⟩
  | false =>
      have haway := of_decide_eq_false hcompared.symm
      rw [CarState.ahead_of_away haway] at howing
      exact attending_of_quiet (processStep_checkSend_away hpc) rfl
        ⟨{ hcar with readFlag := fun h => absurd h (by simp [ProcessPc.reads]) },
          served, ⟨haway, rfl⟩, hstatus, howing⟩

theorem attending_clearSend (hcar : Undisturbed car)
    (hpc : car.process = .clearSend) (hdoing : Doing car log served) :
    Attending (logged carEvents (car, log) .process) := by
  simp only [Doing, hpc] at hdoing
  obtain ⟨-, hstatus, howing⟩ := hdoing
  have hread := hcar.readFlag (by rw [hpc]; rfl)
  refine attending_of_quiet (processStep_clearSend hpc) rfl
    ⟨{ hcar with readFlag := fun _ => hread }, served, hstatus, howing.doors, ?_⟩
  exact howing.orders.trans (congrArg _ (List.append_nil car.ahead).symm)

theorem attending_checkClosed (hcar : Undisturbed car)
    (hpc : car.process = .checkClosed floordiff)
    (hdoing : Doing car log served) :
    Attending (logged carEvents (car, log) .process) := by
  simp only [Doing, hpc] at hdoing
  obtain ⟨⟨haway, rfl⟩, hstatus, howing⟩ := hdoing
  have hmoves := hcar.natAbs_floorsAhead_pos haway
  refine attending_of_quiet (processStep_checkClosed hpc hstatus hmoves) rfl
    ⟨{ hcar with readFlag := fun h => absurd h (by simp [ProcessPc.reads]) },
      served, ⟨hmoves, ?_⟩, hstatus, howing⟩
  simp [ProcessPc.movesLeft, movesLeft, CarState.floorsAhead]

/-- A status that the process thread writes, other than the one there is. -/
theorem logged_showStatus {status : Status} {process : ProcessPc}
    (hstep : processStep car = { car with
      data := { car.data with status := statusNames status }
      process := process })
    (hstatus : car.data.status ≠ statusNames status) :
    logged carEvents (car, log) .process =
      ({ car with
          data := { car.data with status := statusNames status }
          process := process },
        log ++ [.showed (statusNames status) car.data.currentFloor]) := by
  have hevents : statusEvents car.data (processStep car).data =
      [.showed (statusNames status) car.data.currentFloor] := by
    simp [hstep, statusEvents, hstatus.symm]
  rw [logged_carEvents_process, hevents, hstep]

theorem attending_setBetween (hcar : Undisturbed car)
    (hpc : car.process = .setBetween floordiff i)
    (hdoing : Doing car log served) :
    Attending (logged carEvents (car, log) .process) := by
  simp only [Doing, hpc] at hdoing
  obtain ⟨hcourse, hstatus, howing⟩ := hdoing
  rw [OnCourse, hpc] at hcourse
  have hstep : processStep car = { car with
      data := { car.data with status := statusNames .Between }
      process := .lowerFlag floordiff i } := by
    simp [processStep, hpc]
  rw [logged_showStatus hstep (by rw [hstatus]; decide)]
  exact ⟨{ hcar with readFlag := fun h => absurd h (by simp [ProcessPc.reads]) },
    served, hcourse, rfl, howing.moving (.inl rfl) _⟩

theorem attending_lowerFlag (hcar : Undisturbed car)
    (hpc : car.process = .lowerFlag floordiff i)
    (hdoing : Doing car log served) :
    Attending (logged carEvents (car, log) .process) := by
  simp only [Doing, hpc] at hdoing
  obtain ⟨hcourse, hstatus, howing⟩ := hdoing
  rw [OnCourse, hpc] at hcourse
  have hstep : processStep car = { car with
      readFlag := 0, process := .move floordiff i } := by
    simp [processStep, hpc]
  exact attending_of_quiet hstep rfl
    ⟨{ hcar with readFlag := fun h => absurd h (by simp [ProcessPc.reads]) },
      served, hcourse, hstatus, howing⟩

/-- A move on the way to a destination on the same side of ground level is an
addition, and ends on that side. -/
theorem movedFloor_onCourse {fromFloor toFloor move : Int} (hfrom : IsFloor fromFloor)
    (hto : IsFloor toFloor) (hside : fromFloor < 0 ↔ toFloor < 0)
    (hmove : move = 1 ∧ fromFloor < toFloor ∨ move = -1 ∧ toFloor < fromFloor) :
    movedFloor fromFloor move = fromFloor + move ∧ IsFloor (fromFloor + move) ∧
      (fromFloor + move < 0 ↔ toFloor < 0) := by
  simp only [IsFloor, movedFloor] at *
  rcases hmove with ⟨rfl, hlt⟩ | ⟨rfl, hlt⟩ <;> split_ifs <;> omega

theorem attending_move (hcar : Undisturbed car)
    (hpc : car.process = .move floordiff i) (hdoing : Doing car log served) :
    Attending (logged carEvents (car, log) .process) := by
  simp only [Doing, hpc] at hdoing
  obtain ⟨⟨hcounting, hmoves⟩, hstatus, howing⟩ := hdoing
  rw [hpc] at hcounting hmoves
  simp only [ProcessPc.Counting, CarState.floorsAhead, ProcessPc.movesLeft,
    movesLeft] at hcounting hmoves
  obtain ⟨move, hmove⟩ : ∃ move : Int, move = if 0 < floordiff then 1 else -1 :=
    ⟨_, rfl⟩
  have honward : move = 1 ∧ stringToFloor car.data.currentFloor <
        stringToFloor car.data.destinationFloor ∨
      move = -1 ∧ stringToFloor car.data.destinationFloor <
        stringToFloor car.data.currentFloor := by
    split_ifs at hmove hmoves <;> omega
  obtain ⟨hadd, hfloor, hside⟩ := movedFloor_onCourse
    (isFloor_stringToFloor hcar.current) (isFloor_stringToFloor hcar.destination)
    hcar.sameSide honward
  have hdecode := stringToFloor_floorToString hfloor
  have hstep : processStep car = { car with
      data := { car.data with
        currentFloor :=
          floorToString (stringToFloor car.data.currentFloor + move) }
      process := .setClosed floordiff i } := by
    simp [processStep, hpc, ← hmove, hadd]
  refine attending_of_quiet hstep rfl ⟨{ hcar with
      current := isLabel_floorToString hfloor
      sameSide := by rwa [hdecode]
      readFlag := fun h => absurd h (by simp [ProcessPc.reads]) },
    served, ⟨hcounting, ?_⟩, hstatus, howing⟩
  simp only [CarState.floorsAhead, ProcessPc.movesLeft, movesLeft, hdecode]
  split_ifs at hmove hmoves ⊢ <;> omega

theorem attending_setClosed (hcar : Undisturbed car)
    (hpc : car.process = .setClosed floordiff i)
    (hdoing : Doing car log served) :
    Attending (logged carEvents (car, log) .process) := by
  simp only [Doing, hpc] at hdoing
  obtain ⟨hcourse, hstatus, howing⟩ := hdoing
  rw [OnCourse, hpc] at hcourse
  have hstep : processStep car = { car with
      data := { car.data with status := statusNames .Closed }
      process := .raiseFlag floordiff i } := by
    simp [processStep, hpc]
  rw [logged_showStatus hstep (by rw [hstatus]; decide)]
  exact ⟨{ hcar with readFlag := fun h => absurd h (by simp [ProcessPc.reads]) },
    served, hcourse, rfl, howing.moving (.inr rfl) _⟩

/-- The end of a trip, or its next floor. -/
theorem attending_raiseFlag (hcar : Undisturbed car)
    (hpc : car.process = .raiseFlag floordiff i)
    (hdoing : Doing car log served) :
    Attending (logged carEvents (car, log) .process) := by
  simp only [Doing, hpc] at hdoing
  obtain ⟨⟨hcounting, hmoves⟩, hstatus, howing⟩ := hdoing
  rw [hpc] at hcounting hmoves
  by_cases hmore : i + 1 < floordiff.natAbs
  · exact attending_of_quiet (processStep_raiseFlag_more hpc hmore) rfl
      ⟨{ hcar with readFlag := fun _ => rfl }, served, ⟨hmore, hmoves⟩, hstatus,
        howing⟩
  · have hhere : car.data.destinationFloor = car.data.currentFloor := by
      rw [← hcar.floorsAhead_eq_zero, hmoves]
      simp only [ProcessPc.Counting, ProcessPc.movesLeft, movesLeft] at hcounting ⊢
      split_ifs <;> omega
    refine attending_of_quiet (processStep_raiseFlag_last hpc hmore) rfl
      ⟨{ hcar with readFlag := fun _ => rfl }, served, hhere, ?_, howing.orders⟩
    exact ⟨[], hstatus ▸ partWay_enter, howing.doors⟩

theorem Serving.next {frame next : DoorFrame} {owed : List (CString 4)}
    (hcar : Undisturbed car) (hserving : Serving car.data frame log served owed)
    (hframe : (operateDoorStep car.data frame).2 = some next) :
    Serving (operateDoorStep car.data frame).1 next
        (log ++ statusEvents car.data (operateDoorStep car.data frame).1) served
        owed ∧
      next.stepsLeft < frame.stepsLeft := by
  obtain ⟨⟨shown, hpart, hdoors⟩, horders⟩ := hserving
  obtain ⟨-, -, hphase, hnext⟩ :=
    operateDoorStep_partWay hcar.openButton hcar.closeButton hpart
  rw [hframe] at hnext
  have hfloor := (operateDoorStep_sameButDoors car.data frame).currentFloor
  have hdoors' := doors_append_phase hdoors hfloor hphase
  rw [← hfloor] at hdoors'
  refine ⟨⟨⟨_, hnext.1, hdoors'⟩, ?_⟩, hnext.2⟩
  rw [ordersOf_append, ordersOf_statusEvents, List.append_nil, horders]

theorem Serving.finish {frame : DoorFrame} {owed : List (CString 4)}
    (hcar : Undisturbed car)
    (hserving : Serving car.data frame log served (car.data.currentFloor :: owed))
    (hframe : (operateDoorStep car.data frame).2 = none) :
    (operateDoorStep car.data frame).1.status = statusNames .Closed ∧
      Owing (log ++ statusEvents car.data (operateDoorStep car.data frame).1)
        (served ++ [car.data.currentFloor]) owed := by
  obtain ⟨⟨shown, hpart, hdoors⟩, horders⟩ := hserving
  obtain ⟨-, -, hphase, hnext⟩ :=
    operateDoorStep_partWay hcar.openButton hcar.closeButton hpart
  rw [hframe] at hnext
  have hfloor := (operateDoorStep_sameButDoors car.data frame).currentFloor
  have hdoors' := doors_append_phase hdoors hfloor hphase
  rw [hnext.2, showing_doorPhases] at hdoors'
  refine ⟨hnext.1, hdoors', ?_⟩
  rw [ordersOf_append, ordersOf_statusEvents, List.append_nil, horders]
  simp

/-- `operate_door` leaves the car as undisturbed as it was. -/
theorem Undisturbed.doorStep {frame : DoorFrame} {owed : List (CString 4)}
    (hcar : Undisturbed car) (hserving : Serving car.data frame log served owed)
    (hread : car.readFlag = 1) (process : ProcessPc) :
    Undisturbed { car with
      data := (operateDoorStep car.data frame).1, process := process } := by
  obtain ⟨⟨shown, hpart, -⟩, -⟩ := hserving
  obtain ⟨hopen, hclose, -, -⟩ :=
    operateDoorStep_partWay hcar.openButton hcar.closeButton hpart
  have hsame := operateDoorStep_sameButDoors car.data frame
  constructor
  case current => exact hsame.currentFloor ▸ hcar.current
  case destination => exact hsame.destinationFloor ▸ hcar.destination
  case serves =>
    show ServesFloor car (operateDoorStep car.data frame).1.destinationFloor
    rw [hsame.destinationFloor]
    exact hcar.serves
  case sameSide =>
    simp only [hsame.currentFloor, hsame.destinationFloor]
    exact hcar.sameSide
  case openButton => exact hopen
  case closeButton => exact hclose
  case doorcontrol => exact hcar.doorcontrol
  case readFlag => exact fun _ => hread

theorem attending_arrived (hcar : Undisturbed car)
    (hpc : car.process = .arrived frame) (hdoing : Doing car log served) :
    Attending (logged carEvents (car, log) .process) := by
  simp only [Doing, hpc] at hdoing
  obtain ⟨hsend, hserving⟩ := hdoing
  have hread := hcar.readFlag (by rw [hpc]; rfl)
  have hsame := operateDoorStep_sameButDoors car.data frame
  rw [logged_carEvents_process, processStep_arrived hpc]
  cases hframe : (operateDoorStep car.data frame).2 with
  | some next =>
      refine ⟨hcar.doorStep hserving hread _, served, hsend, ?_⟩
      simpa [CarState.ahead, hsame.currentFloor, hsame.destinationFloor] using
        (hserving.next hcar hframe).1
  | none =>
      obtain ⟨hclosed, howing⟩ := hserving.finish hcar hframe
      refine ⟨hcar.doorStep hserving hread _,
        served ++ [car.data.currentFloor], hsend, hclosed, ?_⟩
      simpa [CarState.ahead, hsame.currentFloor, hsame.destinationFloor] using
        howing

theorem attending_serve (hcar : Undisturbed car)
    (hpc : car.process = .serve frame) (hdoing : Doing car log served) :
    Attending (logged carEvents (car, log) .process) := by
  simp only [Doing, hpc] at hdoing
  obtain ⟨hhere, hserving⟩ := hdoing
  have hread := hcar.readFlag (by rw [hpc]; rfl)
  have hsame := operateDoorStep_sameButDoors car.data frame
  rw [logged_carEvents_process, processStep_serve hpc]
  cases hframe : (operateDoorStep car.data frame).2 with
  | some next =>
      refine ⟨hcar.doorStep hserving hread _, served, ?_, ?_⟩
      · simpa [hsame.currentFloor, hsame.destinationFloor] using hhere
      · simpa [CarState.requested, hsame.destinationFloor] using
          (hserving.next hcar hframe).1
  | none =>
      have hafter := hcar.doorStep hserving hread .top
      rw [hhere] at hserving
      obtain ⟨hclosed, howing⟩ := hserving.finish hcar hframe
      refine ⟨hafter, served ++ [car.data.currentFloor], hclosed, ?_⟩
      simpa [CarState.ahead, CarState.requested, hsame.currentFloor,
        hsame.destinationFloor, hhere] using howing

theorem attending_process (hinv : Attending (car, log)) :
    Attending (logged carEvents (car, log) .process) := by
  obtain ⟨hcar, served, hdoing⟩ := hinv
  cases hpc : car.process with
  | start => exact attending_start hcar hpc hdoing
  | top => exact attending_top hcar hpc hdoing
  | checkSend atDestination floordiff =>
      exact attending_checkSend hcar hpc hdoing
  | arrived frame => exact attending_arrived hcar hpc hdoing
  | clearSend => exact attending_clearSend hcar hpc hdoing
  | checkClosed floordiff => exact attending_checkClosed hcar hpc hdoing
  | setBetween floordiff i => exact attending_setBetween hcar hpc hdoing
  | lowerFlag floordiff i => exact attending_lowerFlag hcar hpc hdoing
  | move floordiff i => exact attending_move hcar hpc hdoing
  | setClosed floordiff i => exact attending_setClosed hcar hpc hdoing
  | raiseFlag floordiff i => exact attending_raiseFlag hcar hpc hdoing
  | serve frame => exact attending_serve hcar hpc hdoing

end ProcessSteps

section Orders

variable {car : CarState} {log : List CarEvent} {served owed : List (CString 4)}

theorem Owing.ordered (howing : Owing log served owed) (label : CString 4) :
    Owing (log ++ [.ordered label]) served (owed ++ [label]) where
  doors := by rw [doors_append_ordered, howing.doors]
  orders := by
    rw [ordersOf_append, howing.orders, ordersOf_ordered, List.append_assoc]

theorem Serving.ordered {shm : CarSharedData} {frame : DoorFrame}
    (hserving : Serving shm frame log served owed) (label : CString 4) :
    Serving shm frame (log ++ [.ordered label]) served (owed ++ [label]) where
  midCycle := by
    obtain ⟨shown, hpart, hdoors⟩ := hserving.midCycle
    exact ⟨shown, hpart, (doors_append_ordered log label).trans hdoors⟩
  orders := by
    rw [ordersOf_append, hserving.orders, ordersOf_ordered, List.append_assoc]

/-- The order repeats the destination and finds no request to open. -/
theorem attending_repeated (hinv : Attending (car, log))
    (hsend : car.shmSend ≠ 1) :
    Attending ({ car with shmSend := 1 },
      log ++ [.ordered car.data.destinationFloor]) := by
  obtain ⟨hcar, served, hdoing⟩ := hinv
  have hnone : car.requested = [] := if_neg hsend
  have hone : CarState.requested { car with shmSend := 1 } =
      [car.data.destinationFloor] := if_pos rfl
  have hahead : CarState.ahead { car with shmSend := 1 } = car.ahead := rfl
  refine ⟨{ hcar with }, served, ?_⟩
  simp only [Doing, hnone, List.append_nil] at hdoing
  simp only [Doing, hone, hahead]
  split at hdoing
  case h_1 => exact ⟨hdoing.1, hdoing.2.ordered _⟩
  case h_2 => exact ⟨hdoing.1, hdoing.2.ordered _⟩
  case h_3 => exact ⟨hdoing.1, hdoing.2.1, hdoing.2.2.ordered _⟩
  case h_4 => exact absurd hdoing.1 hsend
  case h_5 => exact absurd hdoing.1 hsend
  case h_6 => exact ⟨hdoing.1, hdoing.2.1, hdoing.2.2.ordered _⟩
  case h_7 => exact ⟨hdoing.1, hdoing.2.1, hdoing.2.2.ordered _⟩
  case h_8 => exact ⟨hdoing.1, hdoing.2.1, hdoing.2.2.ordered _⟩
  case h_9 => exact ⟨hdoing.1, hdoing.2.1, hdoing.2.2.ordered _⟩
  case h_10 => exact ⟨hdoing.1, hdoing.2.1, hdoing.2.2.ordered _⟩
  case h_11 => exact ⟨hdoing.1, hdoing.2.1, hdoing.2.2.ordered _⟩
  case h_12 => exact ⟨hdoing.1, hdoing.2.ordered _⟩

/-- The order is for another floor, while the car answers the last one. -/
theorem attending_answering (hinv : Attending (car, log))
    (hanswering : car.process.answering = true)
    (hhere : car.data.destinationFloor = car.data.currentFloor)
    {label : CString 4} (hreachable : Reachable car label) :
    Attending ({ car with
        data := { car.data with destinationFloor := label }, shmSend := 1 },
      log ++ [.ordered label]) := by
  obtain ⟨hcar, served, hdoing⟩ := hinv
  obtain ⟨hlabel, hserves, haway, hside⟩ := hreachable
  have hcar' : Undisturbed { car with
      data := { car.data with destinationFloor := label }, shmSend := 1 } :=
    { hcar with destination := hlabel, serves := hserves, sameSide := hside }
  have hnone : car.ahead = [] := CarState.ahead_of_here hhere
  refine ⟨hcar', served, ?_⟩
  cases hpc : car.process with
  | arrived frame =>
      simp only [Doing, hpc, hnone] at hdoing
      obtain ⟨⟨shown, hpart, hdoors⟩, horders⟩ := hdoing.2.ordered label
      refine ⟨rfl, ⟨shown, hpart, hdoors⟩, ?_⟩
      simpa [CarState.ahead, haway] using horders
  | clearSend =>
      simp only [Doing, hpc, hnone] at hdoing
      refine ⟨rfl, hdoing.2.1, ?_⟩
      simpa [CarState.ahead, haway] using hdoing.2.2.ordered label
  | _ => simp [hpc, ProcessPc.answering] at hanswering

theorem attending_floor (hinv : Attending (car, log)) {label : CString 4}
    (hguard : InTurn car (.floor label)) :
    Attending (logged carEvents (car, log) (.floor label)) := by
  have hlogged : logged carEvents (car, log) (.floor label) =
      (receiveFloor car label, log ++ [.ordered label]) := by
    have hstatus : (receiveFloor car label).data.status = car.data.status := by
      simp [receiveFloor_data]
    simp [logged, carEvents, carOrders, carStep, statusEvents_of_same hstatus]
  rw [hlogged]
  rcases hguard with ⟨rfl, hsend⟩ | ⟨hanswering, hhere, hreachable⟩
  · have hstep : receiveFloor car car.data.destinationFloor =
        { car with shmSend := 1 } := by
      simp [receiveFloor]
    rw [hstep]
    exact attending_repeated hinv hsend
  · have hreads : car.process.reads = true := by
      cases hpc : car.process <;> simp [hpc, ProcessPc.answering] at hanswering <;>
        rfl
    have hstep : receiveFloor car label = { car with
        data := { car.data with destinationFloor := label }, shmSend := 1 } := by
      have hread : car.readFlag = 1 := hinv.1.readFlag hreads
      simp [receiveFloor, hread]
    rw [hstep]
    exact attending_answering hinv hanswering hhere hreachable

theorem attending_external (hinv : Attending (car, log))
    {edit : CarSharedData → CarSharedData}
    (hguard : DoorsLeftAlone (.external edit)) :
    Attending (logged carEvents (car, log) (.external edit)) := by
  obtain ⟨hcar, served, hdoing⟩ := hinv
  obtain ⟨hstatus, hcurrent, hdestination, hopen, hclose⟩ := hguard car.data
  have hquiet : logged carEvents (car, log) (.external edit) =
      (carStep car (.external edit), log) := logged_carEvents_quiet rfl hstatus
  rw [hquiet]
  refine ⟨?_, served, ?_⟩
  · constructor
    case current => exact hcurrent ▸ hcar.current
    case destination => exact hdestination ▸ hcar.destination
    case serves =>
      show ServesFloor car (edit car.data).destinationFloor
      rw [hdestination]
      exact hcar.serves
    case sameSide =>
      simp only [carStep, hcurrent, hdestination]
      exact hcar.sameSide
    case openButton => exact hopen.trans hcar.openButton
    case closeButton => exact hclose.trans hcar.closeButton
    case doorcontrol => exact hcar.doorcontrol
    case readFlag => exact hcar.readFlag
  · have hserving {frame : DoorFrame} {owed : List (CString 4)}
        (h : Serving car.data frame log served owed) :
        Serving (edit car.data) frame log served owed := by
      obtain ⟨⟨shown, hpart, hdoors⟩, horders⟩ := h
      exact ⟨⟨shown, hstatus ▸ hpart, hcurrent ▸ hdoors⟩, horders⟩
    simp only [Doing, carStep, CarState.ahead, CarState.requested, OnCourse,
      CarState.floorsAhead, hstatus, hcurrent, hdestination] at hdoing ⊢
    split at hdoing
    case h_4 => exact ⟨hdoing.1, hserving hdoing.2⟩
    case h_12 => exact ⟨hdoing.1, hserving hdoing.2⟩
    all_goals exact hdoing

end Orders

theorem attending_step (state : CarState × List CarEvent) (action : CarAction)
    (hinv : Attending state)
    (hguard : DoorsLeftAlone action ∧ InTurn state.1 action) :
    Attending (logged carEvents state action) := by
  obtain ⟨car, log⟩ := state
  cases action with
  | process => exact attending_process hinv
  | floor label => exact attending_floor hinv hguard.2
  | external edit => exact attending_external hinv hguard.1
  | doorcontrol =>
      -- the poll finds no button pressed
      have hdoor : car.doorcontrol = none := hinv.1.doorcontrol
      have hopen : car.data.openButton = 0 := hinv.1.openButton
      have hstep : carStep car .doorcontrol = car := by
        simp [carStep, doorcontrolStep, hdoor, readSharedMemory, hopen]
      rw [logged_carEvents_quiet rfl (by rw [hstep]), hstep]
      exact hinv

end Elevator
