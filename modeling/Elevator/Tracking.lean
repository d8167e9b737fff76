/-
What the scheduler remembers of a car besides its queue: the direction in which
it moves and the status it is in.  Three functions read these members, and
after `queue_init` none writes them.
-/
import Elevator.SweepOrder
import Elevator.PendingStop
import Elevator.Routing

namespace Elevator

open CText Transition

/-- What a registration finds in its local record: a car that is idle, without
stops. -/
def IdleRecord : Type :=
  { fresh : ConnectedCar // fresh.queue = [] ∧ fresh.currentDirection = .idle }

/-- The messages that the controller handles. -/
inductive SchedulerMessage where
  | car (socket : Int) (name : CString 50) (lowestFloor highestFloor : CString 4)
      (fresh : IdleRecord)
  | status (socket : Int) (statusStr : CString 8)
      (currentFloor destinationFloor : CString 4) (sends : Bool)
  | call (socket : Int) (source destination : CString 4) (outcome : CallOutcome)

def SchedulerMessage.input : SchedulerMessage → ControllerInput
  | .car socket name lowestFloor highestFloor fresh =>
      .car socket name lowestFloor highestFloor fresh.1
  | .status socket statusStr currentFloor destinationFloor sends =>
      .status socket statusStr currentFloor destinationFloor sends
  | .call socket source destination outcome =>
      .call socket source destination outcome

/-- The record that a report on a socket is entered in. -/
def reportedRecord (cars : List ConnectedCar) (socket : Int) :
    Option (Nat × ConnectedCar) := do
  let name ← controllerGetNameBySocket cars socket
  let record ← cars.findIdx? fun car => car.name = name
  let car ← cars[record]?
  return (record, car)

/-- The controller, with the status that each record was last reported in. -/
structure TrackedController where
  registry : ControllerState
  lastReport : List (Option (CString 8))

def TrackedController.reports (state : TrackedController) :
    SchedulerMessage → List (Option (CString 8))
  | .car _ _ _ _ _ => state.lastReport ++ [none]
  | .status socket statusStr _ _ _ =>
      match reportedRecord state.registry.cars socket with
      | some (record, _) => state.lastReport.set record (some statusStr)
      | none => state.lastReport
  | .call _ _ _ _ => state.lastReport

def trackedStep (state : TrackedController) (message : SchedulerMessage) :
    TrackedController where
  registry := (controllerStep state.registry message.input).1
  lastReport := state.reports message

def headDirection : List QueueNode → Direction
  | [] => .idle
  | head :: _ => head.direction

/-- The summary of a record that was last reported in a status is current. -/
structure SummaryCurrent (car : ConnectedCar) (statusStr : CString 8) : Prop where
  direction : car.currentDirection = headDirection car.queue
  status : car.elevatorStatus = stringToStatus statusStr

def TrackedCars (cars : List ConnectedCar)
    (lastReport : List (Option (CString 8))) : Prop :=
  ∀ (j : Nat) (car : ConnectedCar) (statusStr : CString 8), cars[j]? = some car →
    lastReport[j]? = some (some statusStr) → SummaryCurrent car statusStr

/-- Of every record that has been reported, the summary is current. -/
def Tracked (state : TrackedController) : Prop :=
  TrackedCars state.registry.cars state.lastReport

/-- When the summaries stay current.  A call goes to a car that has not
reported, or there is no memory for its stops; a report gives the status that
the record was registered with, and leaves the record without stops. -/
def KeepsTrack (state : TrackedController) : SchedulerMessage → Prop
  | .car _ _ _ _ _ => True
  | .status socket statusStr _ _ _ =>
      ∀ found ∈ reportedRecord state.registry.cars socket,
        found.2.elevatorStatus = stringToStatus statusStr ∧
          (found.2.queue = [] ∨
            CompletesCycle statusStr found.2 ∧ found.2.queue.tail = [])
  | .call _ source destination outcome =>
      outcome.allocated = true →
        ∀ best ∈ bestCar state.registry.cars (stringToFloor source)
          (stringToFloor destination),
        ∀ statusStr, state.lastReport[best.1]? ≠ some (some statusStr)

section Records

variable {cars : List ConnectedCar} {record : Nat} {old : ConnectedCar}

/-- Where a report goes is where its sender's name stands first. -/
theorem statusStep_set {state : ControllerState} (hnone : NoneClosed state.cars)
    {socket : Int} (hfound : reportedRecord state.cars socket = some (record, old))
    (statusStr : CString 8) (currentFloor destinationFloor : CString 4)
    (sends : Bool) :
    state.cars[record]? = some old ∧
      (statusStep state socket statusStr currentFloor destinationFloor
          sends).1.cars =
        state.cars.set record
          (recordAfter old statusStr currentFloor destinationFloor) := by
  simp only [reportedRecord, Option.bind_eq_bind, Option.bind_eq_some_iff,
    Option.pure_def, Option.some.injEq, Prod.mk.injEq] at hfound
  obtain ⟨name, hname, found, hindex, car, hcar, rfl, rfl⟩ := hfound
  refine ⟨hcar, ?_⟩
  rw [statusStep_cars_eq _ _ _ _ hnone hname]
  rcases updateNamed_cases state.cars name
      (recordAfter · statusStr currentFloor destinationFloor) with
    ⟨hunnamed, -⟩ | ⟨record, first, hrecord, hfirst, -, hset⟩
  · rw [firstNamed, List.find?_eq_bind_findIdx?_getElem?, hindex,
      Option.bind_some, hcar] at hunnamed
    cases hunnamed
  · rw [hindex, Option.some.injEq] at hrecord
    subst hrecord
    rw [hcar, Option.some.injEq] at hfirst
    rw [hset, hfirst]

theorem statusStep_unknown {state : ControllerState} {socket : Int}
    (hfound : reportedRecord state.cars socket = none) (statusStr : CString 8)
    (currentFloor destinationFloor : CString 4) (sends : Bool) :
    statusStep state socket statusStr currentFloor destinationFloor sends =
      (state, []) := by
  apply statusStep_none
  by_contra hknown
  obtain ⟨name, hname⟩ := Option.ne_none_iff_exists'.mp hknown
  obtain ⟨car, hcar, -, hcarName⟩ := controllerGetNameBySocket_eq_some hname
  have hsome : (state.cars.findIdx? fun car => car.name = name).isSome := by
    rw [List.findIdx?_isSome, List.any_eq_true]
    exact ⟨car, hcar, decide_eq_true hcarName⟩
  obtain ⟨record, hindex⟩ := Option.isSome_iff_exists.mp hsome
  have hlt := (List.findIdx?_eq_some_iff_getElem.mp hindex).1
  simp [reportedRecord, hname, hindex, hlt] at hfound

/-- A request that is queued is queued with one record. -/
theorem callStep_set {state : ControllerState} {source destination : CString 4}
    {outcome : CallOutcome} (hallocated : outcome.allocated = true)
    (hbest : bestCar state.cars (stringToFloor source)
      (stringToFloor destination) = some (record, old)) (socket : Int) :
    ∃ ordered, (callStep state socket source destination outcome).1.cars =
      state.cars.set record { old with
        queue := (addToCarQueue true old (stringToFloor source)
          (stringToFloor destination)).1.queue
        destinationfloor := ordered } := by
  obtain ⟨ordered, hcars⟩ := sendNextDestination_cars state record
    (addToCarQueue true old (stringToFloor source)
      (stringToFloor destination)).1 outcome.orderSent
  refine ⟨ordered, ?_⟩
  rw [callStep_cars hallocated hbest, hcars, addToCarQueue_frame]

/-- After one record has changed, the summaries are current if its own is. -/
theorem trackedCars_set_iff {lastReport after : List (Option (CString 8))}
    (htracked : TrackedCars cars lastReport) (hold : cars[record]? = some old)
    (hothers : ∀ j, j ≠ record → after[j]? = lastReport[j]?)
    (new : ConnectedCar) :
    TrackedCars (cars.set record new) after ↔
      ∀ statusStr, after[record]? = some (some statusStr) →
        SummaryCurrent new statusStr := by
  have hlt := (List.getElem?_eq_some_iff.mp hold).1
  constructor
  · intro hafter statusStr hreport
    exact hafter record new statusStr (List.getElem?_set_self hlt) hreport
  · intro hnew j car statusStr hcar hreport
    by_cases hj : j = record
    · subst hj
      rw [List.getElem?_set_self hlt, Option.some.injEq] at hcar
      rw [← hcar]
      exact hnew statusStr hreport
    · rw [List.getElem?_set_ne fun h => hj h.symm] at hcar
      rw [hothers j hj] at hreport
      exact htracked j car statusStr hcar hreport

end Records

/-- The car never moves in a direction, and each of its stops has one. -/
structure Undirected (car : ConnectedCar) : Prop where
  idle : car.currentDirection = .idle
  stops : ∀ stop ∈ car.queue, stop.direction ≠ .idle

/-- Of a car that never moves, only an empty queue is summarised rightly. -/
theorem Undirected.summaryCurrent_iff {car : ConnectedCar} (hcar : Undirected car)
    (statusStr : CString 8) :
    SummaryCurrent car statusStr ↔
      car.queue = [] ∧ car.elevatorStatus = stringToStatus statusStr := by
  constructor
  · rintro ⟨hdirection, hstatus⟩
    refine ⟨?_, hstatus⟩
    cases hqueue : car.queue with
    | nil => rfl
    | cons head rest =>
        rw [hcar.idle, hqueue] at hdirection
        exact absurd hdirection.symm
          (hcar.stops head (hqueue ▸ List.mem_cons_self))
  · rintro ⟨hqueue, hstatus⟩
    exact ⟨by rw [hcar.idle, hqueue, headDirection], hstatus⟩

theorem Undirected.recordAfter {car : ConnectedCar} (hcar : Undirected car)
    (statusStr : CString 8) (currentFloor destinationFloor : CString 4) :
    Undirected (recordAfter car statusStr currentFloor destinationFloor) ∧
      (recordAfter car statusStr currentFloor destinationFloor).elevatorStatus =
        car.elevatorStatus := by
  have hqueue := (recordAfter_frame car statusStr currentFloor
    destinationFloor).2.2
  have hsame : (Elevator.recordAfter car statusStr currentFloor
        destinationFloor).currentDirection = car.currentDirection ∧
      (Elevator.recordAfter car statusStr currentFloor
        destinationFloor).elevatorStatus = car.elevatorStatus := by
    unfold Elevator.recordAfter cycleEnded
    rw [removeFromCarQueue_car]
    split <;> exact ⟨rfl, rfl⟩
  refine ⟨⟨hsame.1.trans hcar.idle, fun stop hstop => ?_⟩, hsame.2⟩
  rw [hqueue] at hstop
  split at hstop
  · exact hcar.stops stop (List.mem_of_mem_tail hstop)
  · exact hcar.stops stop hstop

theorem recordAfter_queue_eq_nil_iff (car : ConnectedCar)
    (statusStr : CString 8) (currentFloor destinationFloor : CString 4) :
    (recordAfter car statusStr currentFloor destinationFloor).queue = [] ↔
      car.queue = [] ∨ CompletesCycle statusStr car ∧ car.queue.tail = [] := by
  by_cases hcycle : CompletesCycle statusStr car
  · rw [queue_recordAfter hcycle]
    cases car.queue <;> simp [hcycle]
  · have hqueue := (recordAfter_frame car statusStr currentFloor
      destinationFloor).2.2.trans (if_neg hcycle)
    rw [hqueue]
    simp [hcycle]

theorem Undirected.queued {car : ConnectedCar} (hcar : Undirected car)
    (sourceFloor destFloor : Int) (ordered : CString 4) :
    Undirected { car with
      queue := (addToCarQueue true car sourceFloor destFloor).1.queue
      destinationfloor := ordered } := by
  refine ⟨hcar.idle, fun stop hstop => ?_⟩
  rcases mem_addToCarQueue hstop with hold | ⟨-, hnew⟩
  · exact hcar.stops stop hold
  · rw [hnew]
    exact requestDirection_ne_idle sourceFloor destFloor

/-- What holds of the records whatever messages come in. -/
structure TrackInv (state : TrackedController) : Prop where
  length : state.lastReport.length = state.registry.cars.length
  undirected : ∀ car ∈ state.registry.cars, Undirected car
  noneClosed : NoneClosed state.registry.cars

/-- What a message can do to the list of records, and what it takes for the
summaries to stay current. -/
inductive TrackChange (state after : TrackedController) (keeps : Prop) : Prop where
  | registered (car : ConnectedCar) (hcar : Undirected car)
      (hcars : after.registry.cars = state.registry.cars ++ [car])
      (hreports : after.lastReport = state.lastReport ++ [none]) (hkeeps : keeps)
  | unchanged (hcars : after.registry.cars = state.registry.cars)
      (hreports : after.lastReport = state.lastReport) (hkeeps : keeps)
  | updated (record : Nat) (old new : ConnectedCar)
      (hold : state.registry.cars[record]? = some old) (hnew : Undirected new)
      (hcars : after.registry.cars = state.registry.cars.set record new)
      (hothers : ∀ j, j ≠ record → after.lastReport[j]? = state.lastReport[j]?)
      (hlength : after.lastReport.length = state.lastReport.length)
      (hkeeps : keeps ↔ ∀ statusStr,
        after.lastReport[record]? = some (some statusStr) →
          new.queue = [] ∧ new.elevatorStatus = stringToStatus statusStr)

theorem trackChange_status {state : TrackedController} (hinv : TrackInv state)
    (socket : Int) (statusStr : CString 8) (currentFloor destinationFloor : CString 4)
    (sends : Bool) :
    let message : SchedulerMessage :=
      .status socket statusStr currentFloor destinationFloor sends
    TrackChange state (trackedStep state message) (KeepsTrack state message) := by
  intro message
  cases hfound : reportedRecord state.registry.cars socket with
  | none =>
      have hstep := statusStep_unknown hfound statusStr currentFloor
        destinationFloor sends
      apply TrackChange.unchanged
      · exact congrArg (fun result => result.1.cars) hstep
      · simp only [message, trackedStep, TrackedController.reports, hfound]
      · simp [message, KeepsTrack, hfound]
  | some found =>
      obtain ⟨record, old⟩ := found
      obtain ⟨hold, hcars⟩ := statusStep_set hinv.noneClosed hfound statusStr
        currentFloor destinationFloor sends
      have hlt : record < state.lastReport.length := by
        rw [hinv.length]
        exact (List.getElem?_eq_some_iff.mp hold).1
      obtain ⟨hnew, hstatus⟩ := (hinv.undirected old
        (List.mem_of_getElem? hold)).recordAfter statusStr currentFloor
          destinationFloor
      have hreports : (trackedStep state message).lastReport =
          state.lastReport.set record (some statusStr) := by
        simp only [message, trackedStep, TrackedController.reports, hfound]
      refine .updated record old _ hold hnew hcars ?_ ?_ ?_
      · intro j hj
        rw [hreports, List.getElem?_set_ne fun h => hj h.symm]
      · rw [hreports, List.length_set]
      · simp [message, KeepsTrack, hfound, hreports, List.getElem?_set_self hlt,
          recordAfter_queue_eq_nil_iff, hstatus, and_comm]

theorem trackChange_call {state : TrackedController} (hinv : TrackInv state)
    (socket : Int) (source destination : CString 4) (outcome : CallOutcome) :
    let message : SchedulerMessage := .call socket source destination outcome
    TrackChange state (trackedStep state message) (KeepsTrack state message) := by
  intro message
  cases hbest : bestCar state.registry.cars (stringToFloor source)
      (stringToFloor destination) with
  | none =>
      refine .unchanged (callStep_refused socket outcome (.inl hbest)).1 rfl ?_
      simp [message, KeepsTrack, hbest]
  | some found =>
      obtain ⟨record, old⟩ := found
      cases hallocated : outcome.allocated with
      | false =>
          refine .unchanged (callStep_refused socket outcome
            (.inr hallocated)).1 rfl ?_
          simp [message, KeepsTrack, hallocated]
      | true =>
          have hold := getElem?_of_bestCar hbest
          obtain ⟨ordered, hcars⟩ := callStep_set hallocated hbest socket
          have hnew := (hinv.undirected old (List.mem_of_getElem? hold)).queued
            (stringToFloor source) (stringToFloor destination) ordered
          obtain ⟨head, rest, hqueue, -⟩ := addToCarQueue_ne_nil old
            (stringToFloor source) (stringToFloor destination)
          refine .updated record old _ hold hnew hcars (fun _ _ => rfl) rfl ?_
          -- whatever the record was reported in, its queue is not empty now
          simp [message, KeepsTrack, hbest, hallocated, hqueue, trackedStep,
            TrackedController.reports]

theorem trackChange (state : TrackedController) (hinv : TrackInv state)
    (message : SchedulerMessage) :
    TrackChange state (trackedStep state message) (KeepsTrack state message) := by
  cases message with
  | car socket name lowestFloor highestFloor fresh =>
      let newCar := registeredCar socket name lowestFloor highestFloor fresh.1
      have hnew : Undirected newCar := by
        refine ⟨fresh.2.2, fun stop hstop => ?_⟩
        have hempty : newCar.queue = [] := fresh.2.1
        rw [hempty] at hstop
        cases hstop
      exact .registered newCar hnew rfl rfl trivial
  | status socket statusStr currentFloor destinationFloor sends =>
      exact trackChange_status hinv socket statusStr currentFloor destinationFloor
        sends
  | call socket source destination outcome =>
      exact trackChange_call hinv socket source destination outcome

theorem TrackInv.step {state : TrackedController} (hinv : TrackInv state)
    (message : SchedulerMessage) : TrackInv (trackedStep state message) := by
  have hnone : NoneClosed (trackedStep state message).registry.cars :=
    NoneClosed.step state.registry message.input hinv.noneClosed
  refine ⟨?_, ?_, hnone⟩
  · cases trackChange state hinv message with
    | registered car hcar hcars hreports _ =>
        rw [hcars, hreports, List.length_append, List.length_append, hinv.length]
        rfl
    | unchanged hcars hreports _ => rw [hcars, hreports, hinv.length]
    | updated record old new hold hnew hcars hothers hlength _ =>
        rw [hcars, hlength, List.length_set, hinv.length]
  · intro car hmem
    cases trackChange state hinv message with
    | registered new hnew hcars _ _ =>
        rw [hcars] at hmem
        rcases List.mem_append.mp hmem with hold | hlast
        · exact hinv.undirected car hold
        · rw [List.mem_singleton.mp hlast]
          exact hnew
    | unchanged hcars _ _ =>
        rw [hcars] at hmem
        exact hinv.undirected car hmem
    | updated record old new _ hnew hcars _ _ _ =>
        rw [hcars] at hmem
        rcases List.mem_or_eq_of_mem_set hmem with hold | rfl
        · exact hinv.undirected car hold
        · exact hnew

/-- One message keeps the summaries current exactly if the condition holds. -/
theorem tracked_step_iff {state : TrackedController} (hinv : TrackInv state)
    (htracked : Tracked state) (message : SchedulerMessage) :
    Tracked (trackedStep state message) ↔ KeepsTrack state message := by
  rw [Tracked]
  cases trackChange state hinv message with
  | registered car _ hcars hreports hkeeps =>
      refine iff_of_true ?_ hkeeps
      rw [hcars, hreports]
      intro j old statusStr hold hreport
      have hj : j < state.lastReport.length := by
        by_contra hlast
        rw [List.getElem?_append_right (Nat.le_of_not_lt hlast)] at hreport
        rw [List.getElem?_singleton] at hreport
        split at hreport <;> simp at hreport
      rw [List.getElem?_append_left hj] at hreport
      rw [List.getElem?_append_left (hinv.length ▸ hj)] at hold
      exact htracked j old statusStr hold hreport
  | unchanged hcars hreports hkeeps =>
      refine iff_of_true ?_ hkeeps
      rw [hcars, hreports]
      exact htracked
  | updated record old new hold hnew hcars hothers _ hkeeps =>
      rw [hcars, hkeeps, trackedCars_set_iff htracked hold hothers]
      exact forall_congr' fun statusStr => imp_congr_right fun _ =>
        hnew.summaryCurrent_iff statusStr

def startTracking : TrackedController where
  registry := { cars := [], masterSet := [] }
  lastReport := []

/-- Alpha registers, reports closed doors on floor 1, and gets a call from
floor 3. -/
def alphaCalled : List SchedulerMessage :=
  [.car 4 idleCar.name idleCar.lowestFloor idleCar.highestFloor
      ⟨idleCar, rfl, rfl⟩,
    .status 4 (statusNames .Closed) (floorToString 1) (floorToString 1) true,
    .call 5 (floorToString 3) (floorToString 5) ⟨true, true, true⟩]

end Elevator
