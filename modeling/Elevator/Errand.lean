/-
A car with an errand: its doors are still to open on its destination.  Every
step of the process thread brings it closer to the moment when they have closed
there, and with an order that is taken then the next errand begins.
-/
import Elevator.OrderCycle
import Elevator.LinkedShaft

namespace Elevator

open CText Transition

/-- The doors have closed, and `operate_door` is about to return. -/
def DoorFrame.Ending (frame : DoorFrame) : Prop :=
  frame.currentStatus = .Closed ∧ frame.pc ∈ [.readOpen, .readClose, .report]

instance (frame : DoorFrame) : Decidable frame.Ending :=
  inferInstanceAs (Decidable (_ ∧ _))

/-- The door cycle on the destination is still to come, or has not ended. -/
def CarState.Due (car : CarState) : Prop :=
  match car.process with
  | .start | .top | .checkSend _ _ =>
      car.data.destinationFloor ≠ car.data.currentFloor ∨ car.shmSend = 1
  | .arrived frame =>
      if frame.Ending then car.data.destinationFloor ≠ car.data.currentFloor
      else car.data.destinationFloor = car.data.currentFloor
  | .clearSend => car.data.destinationFloor ≠ car.data.currentFloor
  | .serve frame => ¬ frame.Ending
  | _ => True

def AttendsOrders (car : CarState) : Prop :=
  ∃ log, Attending (car, log)

/-- The doors are to open on the destination, at once or after the end of the
cycle on the floor before it. -/
inductive Errand (car : CarState) : Prop where
  | going (hattends : AttendsOrders car) (hdue : car.Due)
  | leaving (frame : DoorFrame) (hpc : car.process = .serve frame)
      (hending : frame.Ending) (hattends : AttendsOrders { car with process := .top })
      (hdue : CarState.Due { car with process := .top })

/-- The car stands on its destination with its doors closed, and stores an order
that it gets. -/
structure Ready (car : CarState) : Prop where
  attends : AttendsOrders car
  here : car.data.destinationFloor = car.data.currentFloor
  readFlag : car.readFlag = 1
  place : (car.process = .start ∨ car.process = .top) ∨
    ∃ frame : DoorFrame, frame.Ending ∧
      (car.process = .arrived frame ∨ car.process = .serve frame)

/-- The steps to the end of the errand, and of the cycle that `shm_send` asks
for after it. -/
def CarState.errandSteps (car : CarState) : Nat :=
  match car.process with
  | .serve frame => frame.stepsLeft + 1 + (car.tripSteps + car.requestSteps)
  | _ => car.stepsLeft

/-- As many steps as an errand takes at most in a shaft. -/
def stopSteps (lowest highest : CString 4) : Nat :=
  5 * (stringToFloor highest - stringToFloor lowest).natAbs + 52

section Doors

variable {shm : CarSharedData} {frame : DoorFrame} {shown : List Status}

/-- At the end of a cycle nothing is written any more. -/
theorem operateDoorStep_ending (hopen : shm.openButton = 0)
    (hclose : shm.closeButton = 0) (hstatus : shm.status = statusNames .Closed)
    (hending : frame.Ending) :
    (operateDoorStep shm frame).1 = shm ∧
      ∀ next ∈ (operateDoorStep shm frame).2,
        next.Ending ∧ next.stepsLeft < frame.stepsLeft := by
  obtain ⟨pc, current, next⟩ := frame
  obtain ⟨rfl, hpc⟩ := hending
  obtain ⟨status, currentFloor, destinationFloor, openButton, closeButton⟩ := shm
  simp only at hopen hclose hstatus hpc
  subst hopen hclose hstatus
  cases pc <;>
    simp_all [operateDoorStep, readSharedMemory, DoorFrame.Ending,
      DoorFrame.stepsLeft, DoorFrame.following]

theorem PartWay.closed (hpart : PartWay frame shm.status shown)
    (hending : frame.Ending) : shm.status = statusNames .Closed := by
  obtain ⟨pc, current, next⟩ := frame
  obtain ⟨rfl, hpc⟩ := hending
  obtain ⟨-, hshown⟩ := hpart
  cases pc <;> simp_all

theorem DoorFrame.Ending.stepsLeft_le (hending : frame.Ending) :
    frame.stepsLeft ≤ 3 := by
  obtain ⟨pc, current, next⟩ := frame
  obtain ⟨rfl, hpc⟩ := hending
  cases pc <;> simp_all [DoorFrame.stepsLeft]

/-- Before that the cycle goes on, and its end begins where the status changes
from `Closing` to `Closed`. -/
theorem operateDoorStep_not_ending (hopen : shm.openButton = 0)
    (hclose : shm.closeButton = 0) (hpart : PartWay frame shm.status shown)
    (hending : ¬ frame.Ending) :
    ∃ next, (operateDoorStep shm frame).2 = some next ∧
      (next.Ending ↔ shm.status = statusNames .Closing ∧
        (operateDoorStep shm frame).1.status = statusNames .Closed) := by
  obtain ⟨hphase, hshown⟩ := hpart
  obtain ⟨pc, current, next⟩ := frame
  cases pc <;> simp at hshown <;> obtain ⟨hstatus, rfl⟩ := hshown <;>
    cases current <;>
    simp_all [operateDoorStep, readCarStatus, readSharedMemory, DoorFrame.Ending,
      Status.preceding, DoorFrame.following]

end Doors

section Steps

variable {car : CarState}

theorem AttendsOrders.undisturbed (hattends : AttendsOrders car) : Undisturbed car := by
  obtain ⟨log, hcar, -⟩ := hattends
  exact hcar

theorem AttendsOrders.process (hattends : AttendsOrders car) :
    AttendsOrders (processStep car) := by
  obtain ⟨log, hlog⟩ := hattends
  have hafter := attending_process hlog
  rw [logged_carEvents_process] at hafter
  exact ⟨_, hafter⟩

theorem AttendsOrders.external (hattends : AttendsOrders car)
    {edit : CarSharedData → CarSharedData}
    (hguard : DoorsLeftAlone (.external edit)) :
    AttendsOrders (carStep car (.external edit)) := by
  obtain ⟨log, hlog⟩ := hattends
  exact ⟨_, attending_external hlog hguard⟩

theorem owing_ordered (owed : List (CString 4)) :
    Owing (owed.map .ordered) [] owed := by
  induction owed using List.reverseRecOn with
  | nil => exact ⟨rfl, rfl⟩
  | append_singleton owed label ih =>
      rw [List.map_append]
      exact ih.ordered label

/-- At the top of the loop a car that is undisturbed attends its orders if its doors
are closed. -/
theorem Undisturbed.attends (hcar : Undisturbed car)
    (hpc : car.process = .start ∨ car.process = .top)
    (hstatus : car.data.status = statusNames .Closed) : AttendsOrders car := by
  have howing := owing_ordered (car.ahead ++ car.requested)
  refine ⟨(car.ahead ++ car.requested).map .ordered, hcar, [], ?_⟩
  rcases hpc with hpc | hpc
  · simpa only [Doing, hpc] using ⟨hstatus, howing⟩
  · simpa only [Doing, hpc] using ⟨hstatus, howing⟩

/-- The second call of `operate_door` comes at the end of a trip. -/
theorem AttendsOrders.errandSteps (hattends : AttendsOrders car) :
    car.errandSteps = car.stepsLeft := by
  obtain ⟨log, -, served, hdoing⟩ := hattends
  unfold CarState.errandSteps
  split
  · next frame hpc =>
      simp only [Doing, hpc] at hdoing
      simp only [CarState.stepsLeft, hpc, CarState.tripSteps_of_here hdoing.1,
        Nat.zero_add]
  · rfl

theorem CarState.Due.busy (hdue : car.Due) : ¬ AtRest car := by
  rintro ⟨hpc, hsend, hhere⟩
  simp only [CarState.Due, hpc] at hdue
  exact hdue.elim (fun haway => haway hhere) hsend

/-- What a step of the process thread makes of an errand: it goes on, or the doors
have just closed on the destination. -/
inductive StepOfErrand (car : CarState) : Prop where
  | onward (herrand : Errand (processStep car))
      (hstatus : ¬ (car.data.status = statusNames .Closing ∧
        (processStep car).data.status = statusNames .Closed))
  | done (hready : Ready (processStep car))
      (hstatus : car.data.status = statusNames .Closing ∧
        (processStep car).data.status = statusNames .Closed)
      (hmore : 1 < car.errandSteps)

theorem StepOfErrand.of_due (hattends : AttendsOrders car)
    (hdue : (processStep car).Due)
    (hstatus : car.data.status ≠ statusNames .Closing) : StepOfErrand car :=
  .onward (.going hattends.process hdue) fun hclosing => hstatus hclosing.1

theorem StepOfErrand.of_cycle (hattends : AttendsOrders car) {frame : DoorFrame}
    (hpc : car.process = .arrived frame ∨ car.process = .serve frame)
    (hhere : car.data.destinationFloor = car.data.currentFloor)
    (hpart : ∃ shown, PartWay frame car.data.status shown)
    (hending : ¬ frame.Ending) : StepOfErrand car := by
  obtain ⟨shown, hpart⟩ := hpart
  have hcar := hattends.undisturbed
  have hsame := operateDoorStep_sameButDoors car.data frame
  obtain ⟨next, hnext, hcloses⟩ :=
    operateDoorStep_not_ending hcar.openButton hcar.closeButton hpart hending
  have hdata : (processStep car).data = (operateDoorStep car.data frame).1 := by
    rcases hpc with hpc | hpc <;> rw [processStep_data, hpc]
  have hplace : (processStep car).process = .arrived next ∨
      (processStep car).process = .serve next := by
    rcases hpc with hpc | hpc
    · left
      rw [processStep_arrived hpc]
      simp [hnext]
    · right
      rw [processStep_serve hpc]
      simp [hnext]
  have hthere : (processStep car).data.destinationFloor =
      (processStep car).data.currentFloor := by
    rw [hdata, hsame.destinationFloor, hsame.currentFloor]
    exact hhere
  have hreads : (processStep car).readFlag = 1 := by
    apply hattends.process.undisturbed.readFlag
    rcases hplace with hplace | hplace <;> rw [hplace] <;> rfl
  by_cases hclosed : next.Ending
  · apply StepOfErrand.done ⟨hattends.process, hthere, hreads,
      Or.inr ⟨next, hclosed, hplace⟩⟩
    · rw [hdata]
      exact hcloses.mp hclosed
    · obtain ⟨-, -, -, hgoes⟩ :=
        operateDoorStep_partWay hcar.openButton hcar.closeButton hpart
      rw [hnext] at hgoes
      rw [hattends.errandSteps]
      rcases hpc with hpc | hpc <;> simp only [CarState.stepsLeft, hpc] <;> omega
  · apply StepOfErrand.onward (.going hattends.process ?_)
    · rw [hdata]
      exact fun h => hclosed (hcloses.mpr h)
    · rcases hplace with hplace | hplace <;> simp only [CarState.Due, hplace]
      · rw [if_neg hclosed]
        exact hthere
      · exact hclosed

/-- The thread tells whether it is on its destination: an order that is pending is
served there, and an order for another floor is driven to. -/
theorem AttendsOrders.step_checkSend (hattends : AttendsOrders car) (hdue : car.Due)
    {atDestination : Bool} {floordiff : Int}
    (hpc : car.process = .checkSend atDestination floordiff) : StepOfErrand car := by
  obtain ⟨log, hcar, served, hdoing⟩ := id hattends
  simp only [Doing, hpc] at hdoing
  obtain ⟨⟨hcompared, -⟩, hstatus, -⟩ := hdoing
  apply StepOfErrand.of_due hattends _ (by simp [hstatus])
  cases atDestination with
  | true =>
      have hhere := of_decide_eq_true hcompared.symm
      simp only [CarState.Due, hpc, hhere, ne_eq, not_true, false_or] at hdue
      rw [processStep_checkSend_requested hpc hdue]
      exact hhere
  | false =>
      rw [processStep_checkSend_away hpc]
      trivial

/-- In the first call of `operate_door`: its cycle is what is due, or it is over
and the next order is. -/
theorem AttendsOrders.step_arrived (hattends : AttendsOrders car) (hdue : car.Due)
    {frame : DoorFrame} (hpc : car.process = .arrived frame) : StepOfErrand car := by
  obtain ⟨log, hcar, served, hdoing⟩ := id hattends
  simp only [Doing, hpc] at hdoing
  obtain ⟨-, ⟨shown, hpart, -⟩, -⟩ := hdoing
  by_cases hending : frame.Ending
  · simp only [CarState.Due, hpc, if_pos hending] at hdue
    have hclosed := hpart.closed hending
    apply StepOfErrand.of_due hattends _ (by simp [hclosed])
    obtain ⟨hdata, hgoes⟩ := operateDoorStep_ending hcar.openButton
      hcar.closeButton hclosed hending
    rw [processStep_arrived hpc, hdata]
    cases hframe : (operateDoorStep car.data frame).2 with
    | none => exact hdue
    | some next =>
        simp only [CarState.Due, Option.map_some, Option.getD_some,
          if_pos (hgoes next hframe).1]
        exact hdue
  · simp only [CarState.Due, hpc, if_neg hending] at hdue
    exact .of_cycle hattends (.inl hpc) hdue ⟨shown, hpart⟩ hending

/-- After a move the car drives on, or opens its doors. -/
theorem AttendsOrders.step_raiseFlag (hattends : AttendsOrders car)
    {floordiff : Int} {i : Nat} (hpc : car.process = .raiseFlag floordiff i) :
    StepOfErrand car := by
  obtain ⟨log, hcar, served, hdoing⟩ := id hattends
  simp only [Doing, hpc] at hdoing
  apply StepOfErrand.of_due hattends _ (by simp [hdoing.2.1])
  by_cases hmore : i + 1 < floordiff.natAbs
  · rw [processStep_raiseFlag_more hpc hmore]
    trivial
  · rw [processStep_raiseFlag_last hpc hmore]
    simp only [CarState.Due]
    decide

/-- A step towards the door cycle that is due, or in it. -/
theorem AttendsOrders.step (hattends : AttendsOrders car) (hdue : car.Due) :
    StepOfErrand car := by
  obtain ⟨log, hcar, served, hdoing⟩ := id hattends
  cases hpc : car.process with
  | start =>
      simp only [Doing, hpc] at hdoing
      apply StepOfErrand.of_due hattends
      · rw [processStep_start hpc]
        simpa only [CarState.Due, hpc] using hdue
      · simp [hdoing.1]
  | top =>
      simp only [Doing, hpc] at hdoing
      apply StepOfErrand.of_due hattends
      · rw [processStep_top hcar.serves hpc]
        simpa only [CarState.Due, hpc] using hdue
      · simp [hdoing.1]
  | checkSend atDestination floordiff => exact hattends.step_checkSend hdue hpc
  | arrived frame => exact hattends.step_arrived hdue hpc
  | clearSend =>
      simp only [Doing, hpc] at hdoing
      apply StepOfErrand.of_due hattends
      · rw [processStep_clearSend hpc]
        simp only [CarState.Due, hpc] at hdue
        exact Or.inl hdue
      · simp [hdoing.2.1]
  | checkClosed floordiff =>
      simp only [Doing, hpc] at hdoing
      obtain ⟨⟨haway, rfl⟩, hstatus, -⟩ := hdoing
      apply StepOfErrand.of_due hattends _ (by simp [hstatus])
      rw [processStep_checkClosed hpc hstatus (hcar.natAbs_floorsAhead_pos haway)]
      trivial
  | setBetween floordiff i | lowerFlag floordiff i | move floordiff i
    | setClosed floordiff i =>
      simp only [Doing, hpc] at hdoing
      apply StepOfErrand.of_due hattends
      · simp only [processStep, hpc, CarState.Due]
      · simp [hdoing.2.1]
  | raiseFlag floordiff i => exact hattends.step_raiseFlag hpc
  | serve frame =>
      simp only [Doing, hpc] at hdoing
      obtain ⟨hhere, ⟨shown, hpart, -⟩, -⟩ := hdoing
      simp only [CarState.Due, hpc] at hdue
      exact .of_cycle hattends (.inr hpc) hhere ⟨shown, hpart⟩ hdue

/-- A step after the end of the cycle, on the way back to the top of the loop. -/
theorem leaving_step {frame : DoorFrame} (hpc : car.process = .serve frame)
    (hending : frame.Ending) (hattends : AttendsOrders { car with process := .top })
    (hdue : CarState.Due { car with process := .top }) :
    StepOfErrand car ∧ (processStep car).errandSteps < car.errandSteps := by
  obtain ⟨log, hcar, served, hdoing⟩ := id hattends
  have hclosed : car.data.status = statusNames .Closed := by
    simp only [Doing] at hdoing
    exact hdoing.1
  obtain ⟨hdata, hgoes⟩ := @operateDoorStep_ending car.data frame hcar.openButton
    hcar.closeButton hclosed hending
  have hstep := processStep_serve hpc
  rw [hdata] at hstep
  cases hframe : (operateDoorStep car.data frame).2 with
  | none =>
      rw [hframe, Option.map_none, Option.getD_none] at hstep
      constructor
      · apply StepOfErrand.onward (.going _ _)
        · simp [hclosed]
        · rw [hstep]
          exact hattends
        · rw [hstep]
          exact hdue
      · rw [hstep]
        simp only [CarState.errandSteps, hpc]
        change car.tripSteps + car.requestSteps < _
        omega
  | some next =>
      rw [hframe, Option.map_some, Option.getD_some] at hstep
      obtain ⟨hnext, hless⟩ := hgoes next hframe
      constructor
      · apply StepOfErrand.onward (.leaving next _ hnext _ _)
        · simp [hclosed]
        · rw [hstep]
        · rw [hstep]
          exact hattends
        · rw [hstep]
          exact hdue
      · rw [hstep]
        simp only [CarState.errandSteps, hpc]
        change next.stepsLeft + 1 + (car.tripSteps + car.requestSteps) < _
        omega

/-- Every step of the process thread brings the end of the errand closer. -/
theorem Errand.process (herrand : Errand car) :
    StepOfErrand car ∧ (processStep car).errandSteps < car.errandSteps := by
  cases herrand with
  | going hattends hdue =>
      refine ⟨hattends.step hdue, ?_⟩
      obtain ⟨log, hlog⟩ := id hattends
      rw [hattends.errandSteps, hattends.process.errandSteps]
      exact stepsLeft_processStep hlog hdue.busy
  | leaving frame hpc hending hattends hdue => exact leaving_step hpc hending hattends hdue

/-- The destination is not written on the way to it. -/
theorem Errand.destination_process (herrand : Errand car) :
    (processStep car).data.destinationFloor = car.data.destinationFloor := by
  cases herrand with
  | going hattends hdue =>
      exact processStep_destination_of_servesFloor hattends.undisturbed.serves
  | leaving frame hpc hending hattends hdue =>
      exact processStep_destinationFloor (by simp [hpc])

end Steps

section Orders

variable {car : CarState} {label : CString 4}

theorem Ready.closed (hready : Ready car) :
    car.data.status = statusNames .Closed := by
  obtain ⟨⟨log, -, served, hdoing⟩, -, -, hplace⟩ := hready
  rcases hplace with (hpc | hpc) | ⟨frame, hending, hpc | hpc⟩ <;>
    simp only [Doing, hpc] at hdoing
  · exact hdoing.1
  · exact hdoing.1
  · obtain ⟨-, ⟨shown, hpart, -⟩, -⟩ := hdoing
    exact hpart.closed hending
  · obtain ⟨-, ⟨shown, hpart, -⟩, -⟩ := hdoing
    exact hpart.closed hending

theorem CarState.tripSteps_le (car : CarState) :
    car.tripSteps ≤ 5 * car.floorsAhead.natAbs + 24 := by
  unfold CarState.tripSteps
  split <;> omega

/-- The trip to the floor of an order that is stored, and the cycle that it asks
for. -/
theorem errandSteps_receiveFloor (hread : car.readFlag = 1) (label : CString 4) :
    (receiveFloor car label).tripSteps ≤
        5 * (stringToFloor label - stringToFloor car.data.currentFloor).natAbs + 24 ∧
      (receiveFloor car label).requestSteps = 24 := by
  have hstep : receiveFloor car label = { car with
      data := { car.data with destinationFloor := label }, shmSend := 1 } := by
    simp [receiveFloor, hread]
  have htrip := CarState.tripSteps_le (receiveFloor car label)
  rw [hstep] at htrip ⊢
  exact ⟨htrip, rfl⟩

/-- A car that is ready takes an order: it has an errand again.  In its first call
of `operate_door` it must be for another floor, since `shm_send` is cleared
after that. -/
theorem Ready.takes (hready : Ready car) (hlabel : IsLabel label)
    (hserves : ServesFloor car label)
    (hside : stringToFloor car.data.currentFloor < 0 ↔ stringToFloor label < 0)
    (haway : label ≠ car.data.currentFloor ∨
      car.process = .start ∨ car.process = .top) :
    Errand (receiveFloor car label) ∧
      (receiveFloor car label).errandSteps ≤
        5 * (stringToFloor label - stringToFloor car.data.currentFloor).natAbs + 52 := by
  have hclosed := hready.closed
  obtain ⟨hattends, hhere, hread, hplace⟩ := hready
  have hcar := hattends.undisturbed
  have hstep : receiveFloor car label = { car with
      data := { car.data with destinationFloor := label }, shmSend := 1 } := by
    simp [receiveFloor, hread]
  have hafter (process : ProcessPc) : Undisturbed { car with
      data := { car.data with destinationFloor := label }
      shmSend := 1
      process := process } :=
    { hcar with
      destination := hlabel, serves := hserves, sameSide := hside
      readFlag := fun _ => hread }
  obtain ⟨htrip, hrequest⟩ := errandSteps_receiveFloor hread label
  have hpc : (receiveFloor car label).process = car.process :=
    receiveFloor_process car label
  rcases hplace with hplace | ⟨frame, hending, hplace | hplace⟩
  · constructor
    · apply Errand.going
      · rw [hstep]
        exact (hafter car.process).attends hplace hclosed
      · rw [hstep]
        rcases hplace with hplace | hplace <;>
          simp only [CarState.Due, hplace, or_true]
    · rcases hplace with hplace | hplace <;> rw [← hpc] at hplace <;>
        simp only [CarState.errandSteps, CarState.stepsLeft, hplace, hrequest] <;>
        omega
  · have hother : label ≠ car.data.currentFloor := by
      apply haway.resolve_right
      simp [hplace]
    have hframe := hending.stepsLeft_le
    constructor
    · apply Errand.going
      · obtain ⟨log, hlog⟩ := hattends
        rw [hstep]
        exact ⟨_, attending_answering hlog (by rw [hplace]; rfl) hhere
          ⟨hlabel, hserves, hother, hside⟩⟩
      · rw [hstep]
        simp only [CarState.Due, hplace, if_pos hending]
        exact hother
    · rw [← hpc] at hplace
      simp only [CarState.errandSteps, CarState.stepsLeft, hplace]
      omega
  · have hframe := hending.stepsLeft_le
    constructor
    · apply Errand.leaving frame (hpc.trans hplace) hending
      · rw [hstep]
        exact (hafter .top).attends (.inr rfl) hclosed
      · rw [hstep]
        exact Or.inr rfl
    · rw [← hpc] at hplace
      simp only [CarState.errandSteps, hplace, hrequest]
      omega

/-- Other processes that leave the doors alone change nothing about it. -/
theorem DoorsLeftAlone.due {edit : CarSharedData → CarSharedData}
    (hguard : DoorsLeftAlone (.external edit)) (hdue : car.Due) :
    (carStep car (.external edit)).Due := by
  obtain ⟨-, hcurrent, hdestination, -, -⟩ := hguard car.data
  simpa only [CarState.Due, carStep, hcurrent, hdestination] using hdue

theorem DoorsLeftAlone.errandSteps {edit : CarSharedData → CarSharedData}
    (hguard : DoorsLeftAlone (.external edit)) :
    (carStep car (.external edit)).errandSteps = car.errandSteps := by
  obtain ⟨-, hcurrent, hdestination, -, -⟩ := hguard car.data
  have htrip : (carStep car (.external edit)).tripSteps = car.tripSteps := by
    simp only [CarState.tripSteps, CarState.floorsAhead, carStep, hcurrent,
      hdestination]
  unfold CarState.errandSteps CarState.stepsLeft
  rw [htrip]
  rfl

theorem Errand.external (herrand : Errand car)
    {edit : CarSharedData → CarSharedData}
    (hguard : DoorsLeftAlone (.external edit)) :
    Errand (carStep car (.external edit)) := by
  cases herrand with
  | going hattends hdue => exact .going (hattends.external hguard) (hguard.due hdue)
  | leaving frame hpc hending hattends hdue =>
      exact .leaving frame hpc hending (hattends.external hguard) (hguard.due hdue)

theorem Ready.external (hready : Ready car)
    {edit : CarSharedData → CarSharedData}
    (hguard : DoorsLeftAlone (.external edit)) :
    Ready (carStep car (.external edit)) := by
  obtain ⟨-, hcurrent, hdestination, -, -⟩ := hguard car.data
  refine ⟨hready.attends.external hguard, ?_, hready.readFlag, hready.place⟩
  simp only [carStep, hcurrent, hdestination]
  exact hready.here

end Orders

end Elevator
