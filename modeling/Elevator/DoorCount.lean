/-
Door cycles at the controller.  The records remember the status before the last
in a text field, which the report itself sets after the queue has been dealt
with.  The setter writes the terminator of another field; the one that
registration put into this field stays, since a status fits below it.
-/
import Elevator.NamedRecord

namespace Elevator

open CText Transition

/-- A report of a car's, and whether the order it calls for can be sent. -/
structure StatusReport where
  status : Status
  currentFloor : CString 4
  destinationFloor : CString 4
  sends : Bool
deriving DecidableEq, Repr

/-- The same report once more; it may find the socket in another condition. -/
def StatusReport.sameText (first second : StatusReport) : Prop :=
  first.status = second.status ∧ first.currentFloor = second.currentFloor ∧
    first.destinationFloor = second.destinationFloor

def reportStep (socket : Int) (state : ControllerState × List ControllerEvent)
    (report : StatusReport) : ControllerState × List ControllerEvent :=
  logged controllerStep state (.status socket (statusNames report.status)
    report.currentFloor report.destinationFloor report.sends)

/-- How often `Closed` comes right after `Closing`. -/
def doorCycles (statuses : List Status) : Nat :=
  (statuses.zip statuses.tail).countP (· = (.Closing, .Closed))

theorem doorCycles_cons (first second : Status) (rest : List Status) :
    doorCycles (first :: second :: rest) =
      (if first = .Closing ∧ second = .Closed then 1 else 0) +
        doorCycles (second :: rest) := by
  simp only [doorCycles, List.tail_cons, List.zip_cons_cons, List.countP_cons,
    Prod.mk.injEq, decide_eq_true_eq]
  exact Nat.add_comm _ _

/-- Distinct names and sockets make every record its owner's alone. -/
theorem ownRecord_of_nodup {cars : List ConnectedCar} {j : Nat}
    {car : ConnectedCar} (hnames : (cars.map (·.name)).Nodup)
    (hsockets : (cars.map (·.connectionsocket)).Nodup)
    (hcar : cars[j]? = some car) : OwnRecord j cars car := by
  refine ⟨hcar, fun i other hother hclash => ?_⟩
  obtain ⟨hi, -⟩ := List.getElem?_eq_some_iff.mp hother
  rcases hclash with hname | hsocket
  · refine (List.getElem?_inj (by simpa using hi) hnames).mp ?_
    simp [hother, hcar, hname]
  · refine (List.getElem?_inj (by simpa using hi) hsockets).mp ?_
    simp [hother, hcar, hsocket]

section Report

variable {state : ControllerState} {j : Nat} {car : ConnectedCar}

/-- The invariant: the record is still its owner's, and it remembers the status
reported last. -/
def Remembers (j : Nat) (socket : Int) (queue : List QueueNode) (last : Status)
    (cars : List ConnectedCar) : Prop :=
  ∃ car, OwnRecord j cars car ∧ car.connectionsocket = socket ∧
    car.queue = queue ∧ car.previousStatus = statusNames last

theorem recordAfter_frame (car : ConnectedCar) (statusStr : CString 8)
    (currentFloor destinationFloor : CString 4) :
    (recordAfter car statusStr currentFloor destinationFloor).connectionsocket =
        car.connectionsocket ∧
      (recordAfter car statusStr currentFloor destinationFloor).previousStatus =
        statusStr ∧
      (recordAfter car statusStr currentFloor destinationFloor).queue =
        (if car.previousStatus = statusNames .Closing ∧
            statusStr = statusNames .Closed then car.queue.tail
        else car.queue) := by
  unfold recordAfter cycleEnded
  rw [removeFromCarQueue_car]
  simp only [doorsClosed_reportedCar]
  split <;> simp [reportedCar]

/-- After a report the record remembers it, and its queue has lost its head if
the doors have gone from closing to closed. -/
theorem OwnRecord.remembers (hown : OwnRecord j state.cars car)
    (report : StatusReport) :
    Remembers j car.connectionsocket
      (if car.previousStatus = statusNames .Closing ∧ report.status = .Closed
        then car.queue.tail else car.queue)
      report.status
      (statusStep state car.connectionsocket (statusNames report.status)
        report.currentFloor report.destinationFloor report.sends).1.cars := by
  obtain ⟨hsocket, hprevious, hqueue⟩ := recordAfter_frame car
    (statusNames report.status) report.currentFloor report.destinationFloor
  have hrecord := statusStep_record hown (statusNames report.status)
    report.currentFloor report.destinationFloor report.sends
  simp only [statusNames_inj] at hqueue
  exact ⟨_, hown.of_identity (statusStep_identity _ _ _ _ _ _) hrecord, hsocket,
    hqueue, hprevious⟩

/-- A car's report reaches no record but its own. -/
theorem OwnRecord.others (hown : OwnRecord j state.cars car) {i : Nat}
    (hne : i ≠ j) (statusStr : CString 8)
    (currentFloor destinationFloor : CString 4) (sends : Bool) :
    (statusStep state car.connectionsocket statusStr currentFloor
      destinationFloor sends).1.cars[i]? = state.cars[i]? := by
  have hlength := congrArg List.length (statusStep_identity state
    car.connectionsocket statusStr currentFloor destinationFloor sends)
  rw [List.length_map, List.length_map] at hlength
  cases hother : state.cars[i]? with
  | none =>
      rw [List.getElem?_eq_none_iff] at hother ⊢
      omega
  | some other =>
      have hname : other.name ≠ car.name := fun heq =>
        hne (hown.unique i other hother (.inl heq))
      rw [statusStep_cars (controllerGetNameBySocket_own hown)]
      apply controllerSet_getElem?_of_ne _ _ _ _ hname
      apply statusLoop_getElem?_of_ne _ _ _ _ hname
      apply controllerSet_getElem?_of_ne _ _ _ _ hname
      apply controllerSet_getElem?_of_ne _ _ _ _ hname
      exact controllerSet_getElem?_of_ne _ _ _ hother hname

end Report

/-- Reports from a record that remembers the one before them: the queue loses a
head for each door cycle, the remembered status included. -/
theorem Remembers.run {j : Nat} {socket : Int} {queue : List QueueNode}
    {last : Status} (reports : List StatusReport)
    (state : ControllerState × List ControllerEvent)
    (hinv : Remembers j socket queue last state.1.cars) :
    queueAt (run (reportStep socket) state reports).1.cars j =
        queue.drop (doorCycles (last :: reports.map (·.status))) ∧
      ∀ i, i ≠ j →
        (run (reportStep socket) state reports).1.cars[i]? = state.1.cars[i]? := by
  induction reports generalizing queue last state with
  | nil =>
      obtain ⟨car, hown, -, rfl, -⟩ := hinv
      exact ⟨queueAt_of_getElem? hown.record, fun i hi => rfl⟩
  | cons report rest ih =>
      obtain ⟨car, hown, rfl, rfl, hlast⟩ := hinv
      have hafter := hown.remembers report
      obtain ⟨hqueue, hothers⟩ := ih (reportStep car.connectionsocket state
        report) hafter
      refine ⟨?_, fun i hi => ?_⟩
      · rw [run_cons, hqueue, hlast, List.map_cons, doorCycles_cons]
        simp only [statusNames_inj]
        split
        · rw [← List.drop_one, List.drop_drop]
        · rw [Nat.zero_add]
      · rw [run_cons, hothers i hi]
        exact hown.others hi _ _ _ _

/-- Alpha with two stops before it, and another car on socket 6. -/
def sharedRegistry : ControllerState where
  cars := [
    { idleCar with queue := [⟨3, .up⟩, ⟨5, .up⟩] },
    { idleCar with name := .store 50 "Beta".toList, connectionsocket := 6 }]
  masterSet := [4, 5, 6]

/-- What Alpha reports on floor 3, once for each change. -/
def atFloorThree (status : Status) : StatusReport :=
  ⟨status, floorToString 3, floorToString 3, true⟩

end Elevator
