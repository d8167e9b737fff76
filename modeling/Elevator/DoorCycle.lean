/-
Door cycles.  An observer of the car counts the cycles it sees; a call of
`operate_door` that no button disturbs shows one whole cycle and returns.
-/
import Elevator.Car

namespace Elevator

open CText Transition

/-- What an observer of the car records: the orders it receives, and each
change of its status with the floor it shows. -/
inductive CarEvent where
  | ordered (label : CString 4)
  | showed (status : CString 8) (floor : CString 4)
deriving DecidableEq, Repr

def statusEvents (before after : CarSharedData) : List CarEvent :=
  if after.status = before.status then []
  else [.showed after.status after.currentFloor]

def carEvents (car : CarState) (action : CarAction) :
    CarState × List CarEvent :=
  (carStep car action,
    (carOrders car action).2.map .ordered ++
      statusEvents car.data (carStep car action).data)

def ordersOf (log : List CarEvent) : List (CString 4) :=
  log.filterMap fun
    | .ordered label => some label
    | .showed _ _ => none

def doorPhases : List Status := [.Opening, .Open, .Closing, .Closed]

/-- The observer: how many phases of a cycle it has seen, and the floors on
which it has seen a whole one. -/
structure DoorWatch where
  shown : Nat
  served : List (CString 4)
deriving DecidableEq, Repr

def watchDoors (watch : DoorWatch) : CarEvent → DoorWatch
  | .ordered _ => watch
  | .showed status floor =>
      if some status = doorPhases[watch.shown]?.map statusNames then
        if watch.shown = 3 then ⟨0, watch.served ++ [floor]⟩
        else ⟨watch.shown + 1, watch.served⟩
      else if status = statusNames .Opening then ⟨1, watch.served⟩
      else ⟨0, watch.served⟩

def doors (log : List CarEvent) : DoorWatch :=
  run watchDoors ⟨0, []⟩ log

/-- The floors on which a whole cycle has been seen. -/
def cyclesOf (log : List CarEvent) : List (CString 4) :=
  (doors log).served

/-- The phase shown before this one. -/
def Status.preceding : Status → Status
  | .Opening => .Closed
  | .Open => .Opening
  | .Closing => .Open
  | .Closed => .Closing
  | .Between => .Between

/-- The phases of the cycle shown before this one. -/
def Status.shownBefore : Status → List Status
  | .Opening => []
  | .Open => [.Opening]
  | .Closing => [.Opening, .Open]
  | .Closed => [.Opening, .Open, .Closing]
  | .Between => []

/-- `operate_door` is part way through its cycle: `shown` are the phases it has
shown, and the status still shows the last of them. -/
def PartWay (frame : DoorFrame) (status : CString 8) (shown : List Status) :
    Prop :=
  frame.currentStatus ≠ .Between ∧
    match frame.pc with
    | .checkStatus | .writeStatus =>
        status = statusNames frame.currentStatus.preceding ∧
          shown = frame.currentStatus.shownBefore
    | .readOpen | .readClose | .report =>
        status = statusNames frame.currentStatus ∧
          shown = frame.currentStatus.shownBefore ++ [frame.currentStatus]
    | _ => False

/-- The steps left to a call of `operate_door` that no button disturbs. -/
def DoorFrame.stepsLeft (frame : DoorFrame) : Nat :=
  (match frame.currentStatus with
    | .Opening => 15
    | .Open => 10
    | .Closing => 5
    | _ => 0) +
  (match frame.pc with
    | .checkStatus => 5
    | .writeStatus => 4
    | .readOpen => 3
    | .readClose => 2
    | .report => 1
    | _ => 0)

def showing (served : List (CString 4)) (shown : List Status)
    (floor : CString 4) : DoorWatch :=
  run watchDoors ⟨0, served⟩
    (shown.map fun phase => .showed (statusNames phase) floor)

@[simp] theorem ordersOf_append (first second : List CarEvent) :
    ordersOf (first ++ second) = ordersOf first ++ ordersOf second :=
  List.filterMap_append

@[simp] theorem ordersOf_ordered (label : CString 4) :
    ordersOf [.ordered label] = [label] := rfl

@[simp] theorem ordersOf_statusEvents (before after : CarSharedData) :
    ordersOf (statusEvents before after) = [] := by
  unfold statusEvents
  split <;> rfl

theorem statusEvents_of_same {before after : CarSharedData}
    (hstatus : after.status = before.status) :
    statusEvents before after = [] :=
  if_pos hstatus

theorem doors_append (first second : List CarEvent) :
    doors (first ++ second) = run watchDoors (doors first) second :=
  run_append watchDoors _ first second

@[simp] theorem doors_append_ordered (log : List CarEvent) (label : CString 4) :
    doors (log ++ [.ordered label]) = doors log := by
  rw [doors_append]
  rfl

theorem watchDoors_moving (served : List (CString 4)) (floor : CString 4) :
    watchDoors ⟨0, served⟩ (.showed (statusNames .Between) floor) =
        ⟨0, served⟩ ∧
      watchDoors ⟨0, served⟩ (.showed (statusNames .Closed) floor) =
        ⟨0, served⟩ := by
  constructor <;> simp [watchDoors, doorPhases]

theorem showing_append (served : List (CString 4)) (shown : List Status)
    (phase : Status) (floor : CString 4) :
    showing served (shown ++ [phase]) floor =
      watchDoors (showing served shown floor)
        (.showed (statusNames phase) floor) := by
  simp [showing, run_append]

@[simp] theorem showing_doorPhases (served : List (CString 4))
    (floor : CString 4) :
    showing served doorPhases floor = ⟨0, served ++ [floor]⟩ := by
  simp [showing, watchDoors, doorPhases]

/-- A cycle that has shown some of its phases counts once or not at all. -/
theorem showing_partWay {frame : DoorFrame} {status : CString 8}
    {shown : List Status} (hpart : PartWay frame status shown)
    (served : List (CString 4)) (floor : CString 4) :
    (showing served shown floor).served <+: served ++ [floor] := by
  obtain ⟨hphase, hshown⟩ := hpart
  have hcases : shown = frame.currentStatus.shownBefore ∨
      shown = frame.currentStatus.shownBefore ++ [frame.currentStatus] := by
    cases hpc : frame.pc <;> simp [hpc] at hshown <;> simp [hshown]
  cases hcurrent : frame.currentStatus <;> simp [hcurrent] at hphase hcases <;>
    rcases hcases with rfl | rfl <;>
    simp [Status.shownBefore, showing, watchDoors, doorPhases]

theorem partWay_enter : PartWay .enter (statusNames .Closed) [] := by
  simp [PartWay, DoorFrame.enter, Status.preceding, Status.shownBefore]

/-- One undisturbed step of `operate_door`: it goes on with what it has shown
and what it shows now, or it has shown the whole cycle. -/
theorem operateDoorStep_partWay {shm : CarSharedData} {frame : DoorFrame}
    {shown : List Status} (hopen : shm.openButton = 0)
    (hclose : shm.closeButton = 0)
    (hpart : PartWay frame shm.status shown) :
    let after := operateDoorStep shm frame
    let showing := if after.1.status = shm.status then shown
      else shown ++ [frame.currentStatus]
    after.1.openButton = 0 ∧ after.1.closeButton = 0 ∧
      (after.1.status ≠ shm.status →
        after.1.status = statusNames frame.currentStatus) ∧
      match after.2 with
      | some next =>
          PartWay next after.1.status showing ∧ next.stepsLeft < frame.stepsLeft
      | none => after.1.status = statusNames .Closed ∧ showing = doorPhases := by
  obtain ⟨hphase, hshown⟩ := hpart
  obtain ⟨pc, current, next⟩ := frame
  cases pc <;> simp at hshown <;> obtain ⟨hstatus, rfl⟩ := hshown <;>
    cases current <;>
    simp_all [operateDoorStep, readCarStatus, readSharedMemory, PartWay,
      Status.preceding, Status.shownBefore, DoorFrame.stepsLeft,
      DoorFrame.following, doorPhases]

/-- What the observer sees of a step that may show the next phase. -/
theorem doors_append_phase {log : List CarEvent} {served : List (CString 4)}
    {shown : List Status} {phase : Status} {before after : CarSharedData}
    (hdoors : doors log = showing served shown before.currentFloor)
    (hfloor : after.currentFloor = before.currentFloor)
    (hphase : after.status ≠ before.status → after.status = statusNames phase) :
    doors (log ++ statusEvents before after) =
      showing served
        (if after.status = before.status then shown else shown ++ [phase])
        before.currentFloor := by
  rw [doors_append, hdoors]
  by_cases hsame : after.status = before.status
  · rw [statusEvents_of_same hsame, if_pos hsame, run_nil]
  · rw [statusEvents, if_neg hsame, if_neg hsame, hphase hsame, hfloor,
      showing_append, run_cons, run_nil]

end Elevator
