/-
Which indices into `status_names` the threads of a car evaluate.  Those of
`edit_shared_memory` and the phase kept by `operate_door` are numbers of
statuses in every run; the status read at the head of its loop is looked up as
`stringToStatus` reports it.
-/
import Elevator.StatusNumbers

namespace Elevator

open CText LookupTable Transition

namespace Numbered

/-- A step that takes a thread of the car through the check at the head of the
loop in `operate_door`. -/
def CarState.AboutToLookUp (car : CarState) : CarAction → Prop
  | .process =>
      match car.process with
      | .arrived frame | .serve frame => frame.pc = .checkStatus
      | _ => False
  | .doorcontrol =>
      match car.doorcontrol with
      | some frame => frame.pc = .checkStatus
      | none => False
  | _ => False

/-- Where the step looks the status up, the segment holds one of the names. -/
def FindsName (car : CarState) (action : CarAction) : Prop :=
  car.AboutToLookUp action → isValidStatus car.data.status = true

theorem inTable_iff {index : Int} :
    InTable statusNames index ↔ 0 ≤ index ∧ index ≤ 4 := by
  have hlength : (statusNames.length : Int) = 5 := rfl
  rw [InTable, hlength]
  omega

theorem readCarStatus_inTable_iff {shm : CarSharedData} :
    InTable statusNames (readCarStatus shm) ↔ isValidStatus shm.status = true := by
  rw [readCarStatus, stringToStatus, inTable_search_iff, mem_statusNames_iff]

theorem DoorFrame.lookups_inTable_iff {frame : DoorFrame}
    {door : Elevator.DoorFrame} (hframe : frame.Represents door)
    (shm : CarSharedData) :
    (∀ index ∈ frame.lookups shm, InTable statusNames index) ↔
      (frame.pc = .checkStatus → isValidStatus shm.status = true) := by
  have hcurrent : InTable statusNames frame.currentStatus := by
    rw [hframe.currentStatus]
    exact number_inTable _
  unfold DoorFrame.lookups
  cases frame.pc with
  | checkStatus => simp [readCarStatus_inTable_iff, hcurrent]
  | writeStatus | report => simp [hcurrent]
  | _ => simp

variable {car : CarState} {model : Elevator.CarState}

/-- The step lemma: of all that a step evaluates, only the status read can be
outside. -/
theorem carStep_inTable_iff (hcar : car.Represents model) (action : CarAction) :
    (∀ index ∈ (carStep car action).2, InTable statusNames index) ↔
      FindsName car action := by
  rw [(carStep_represents hcar action).2]
  cases action with
  | process =>
      have hprocess := hcar.process
      simp only [CarState.lookups, FindsName, CarState.AboutToLookUp]
      generalize car.process = process at hprocess ⊢
      generalize model.process = place at hprocess
      cases hprocess with
      | arrived hframe | serve hframe =>
          exact DoorFrame.lookups_inTable_iff hframe car.data
      | setBetween floordiff i | setClosed floordiff i =>
          simp [number_inTable]
      | _ => simp
  | doorcontrol =>
      have hdoor := hcar.doorcontrol
      simp only [CarState.lookups, FindsName, CarState.AboutToLookUp]
      generalize car.doorcontrol = frame at hdoor ⊢
      generalize model.doorcontrol = door at hdoor
      cases hdoor with
      | none => simp
      | some hframe => exact DoorFrame.lookups_inTable_iff hframe car.data
  | floor label | external edit =>
      simp [CarState.lookups, FindsName, CarState.AboutToLookUp]

/-- The invariant of every run: the car is in a state of the model with
statuses. -/
def CarState.Sound (car : CarState) : Prop := ∃ model, car.Represents model

theorem sound_startCar (lowest highest : CString 4) (readFlag : Int) :
    (startCar lowest highest readFlag).Sound :=
  ⟨_, represents_startCar lowest highest readFlag⟩

theorem CarState.Sound.step (hsound : car.Sound) (action : CarAction) :
    (carStep car action).1.Sound := by
  obtain ⟨model, hcar⟩ := hsound
  exact ⟨_, (carStep_represents hcar action).1⟩

/-- An action of another process leaves the status alone or makes it one of
`texts`. -/
def WritesStatus (texts : CString 8 → Prop) : CarAction → Prop
  | .external edit =>
      ∀ shm, (edit shm).status = shm.status ∨ texts (edit shm).status
  | _ => True

theorem isValidStatus_operateDoorStep {shm : CarSharedData}
    (hstatus : isValidStatus shm.status = true) (door : Elevator.DoorFrame) :
    isValidStatus (Elevator.operateDoorStep shm door).1.status = true := by
  rw [operateDoorStep_data]
  cases door.pc with
  | writeStatus => exact isValidStatus_statusNames door.currentStatus
  | report =>
      dsimp only
      split
      · exact hstatus
      · exact isValidStatus_statusNames door.currentStatus
  | _ => exact hstatus

/-- The car itself writes none but the five names. -/
theorem isValidStatus_carStep {texts : CString 8 → Prop}
    (htexts : ∀ text, texts text → isValidStatus text = true)
    (hstatus : isValidStatus model.data.status = true) {action : CarAction}
    (haction : WritesStatus texts action) :
    isValidStatus (Elevator.carStep model action).data.status = true := by
  cases action with
  | process =>
      rw [Elevator.carStep, processStep_data]
      cases model.process with
      | top =>
          dsimp only
          rw [clampDestination_frame]
          exact hstatus
      | arrived door | serve door =>
          exact isValidStatus_operateDoorStep hstatus door
      | setBetween floordiff i => exact isValidStatus_statusNames .Between
      | setClosed floordiff i => exact isValidStatus_statusNames .Closed
      | _ => exact hstatus
  | doorcontrol =>
      simp only [Elevator.carStep, Elevator.doorcontrolStep]
      split
      · split <;> exact hstatus
      · exact isValidStatus_operateDoorStep hstatus _
  | floor label =>
      rw [Elevator.carStep, receiveFloor_data]
      exact hstatus
  | external edit =>
      rcases haction model.data with hsame | hwritten
      · simpa [Elevator.carStep, hsame] using hstatus
      · exact htexts _ hwritten

/-- In a run, every index is evaluated in the range of the five names exactly
when every string looked up is one of them. -/
theorem forall_inTable_iff (lowest highest : CString 4) (readFlag : Int)
    (actions : List CarAction) :
    (∀ index ∈ (run (logged carStep) (startCar lowest highest readFlag, [])
        actions).2, InTable statusNames index) ↔
      Along (fun car action => (carStep car action).1) FindsName
        (startCar lowest highest readFlag) actions := by
  rw [forall_mem_logged_iff, and_iff_right (by simp)]
  have hiff : ∀ (car : CarState) (action : CarAction), car.Sound →
      ((∀ index ∈ (carStep car action).2, InTable statusNames index) ↔
        FindsName car action) := by
    rintro car action ⟨model, hcar⟩
    exact carStep_inTable_iff hcar action
  exact along_iff_of_invariant (fun _ action hsound => hsound.step action) hiff
    (sound_startCar lowest highest readFlag) actions

/-- Away from that check, and so in `edit_shared_memory`, every index is in
range in every run, whatever other processes write. -/
theorem inTable_elsewhere (lowest highest : CString 4) (readFlag : Int)
    (actions : List CarAction) :
    Along (fun car action => (carStep car action).1)
      (fun car action => ¬ car.AboutToLookUp action →
        ∀ index ∈ (carStep car action).2, InTable statusNames index)
      (startCar lowest highest readFlag) actions := by
  have himp : ∀ (car : CarState) (action : CarAction), car.Sound → True →
      ¬ car.AboutToLookUp action →
        ∀ index ∈ (carStep car action).2, InTable statusNames index := by
    rintro car action ⟨model, hcar⟩ - helsewhere
    exact (carStep_inTable_iff hcar action).mpr fun hlooks =>
      absurd hlooks helsewhere
  exact along_of_invariant (fun _ action hsound _ => hsound.step action) himp
    (sound_startCar lowest highest readFlag)
    (along_of_forall_mem fun _ _ => trivial)

/-- The invariant where other processes write none but the five names. -/
def CarState.ShowsStatus (car : CarState) : Prop :=
  car.Sound ∧ isValidStatus car.data.status = true

theorem CarState.ShowsStatus.step {texts : CString 8 → Prop}
    (htexts : ∀ text, texts text → isValidStatus text = true)
    (hshows : car.ShowsStatus) {action : CarAction}
    (haction : WritesStatus texts action) : (carStep car action).1.ShowsStatus := by
  obtain ⟨⟨model, hcar⟩, hstatus⟩ := hshows
  have hafter := (carStep_represents hcar action).1
  refine ⟨⟨_, hafter⟩, ?_⟩
  rw [hcar.data] at hstatus
  rw [hafter.data]
  exact isValidStatus_carStep htexts hstatus haction

/-- Where other processes write none but the five names, every string looked
up is one of them. -/
theorem along_findsName {texts : CString 8 → Prop}
    (htexts : ∀ text, texts text → isValidStatus text = true)
    (lowest highest : CString 4) (readFlag : Int) {actions : List CarAction}
    (hwrites : ∀ action ∈ actions, WritesStatus texts action) :
    Along (fun car action => (carStep car action).1) FindsName
      (startCar lowest highest readFlag) actions := by
  have hstart : (startCar lowest highest readFlag).ShowsStatus :=
    ⟨sound_startCar lowest highest readFlag, isValidStatus_statusNames .Closed⟩
  exact along_of_invariant
    (fun _ _ hshows haction => hshows.step htexts haction)
    (fun _ _ hshows _ _ => hshows.2) hstart (along_of_forall_mem hwrites)

/-- The open button is pressed and the status made `text`; the thread that
polls the button enters `operate_door` and looks the status up. -/
def lookedUp (text : CString 8) : List CarAction :=
  [.external fun shm => (Elevator.editSharedMemory shm .setOpen 0 .Opening).1,
    .external fun shm => { shm with status := text }, .doorcontrol, .doorcontrol]

theorem lookedUp_writesStatus {texts : CString 8 → Prop} {text : CString 8}
    (htext : texts text) : ∀ action ∈ lookedUp text, WritesStatus texts action := by
  simp [lookedUp, WritesStatus, htext]

/-- The indices of a run are in range exactly when each string that a thread
looks up in it is one of the five names; and they are in every run in which
other processes write strings of a kind exactly when that kind has none but
the five. -/
theorem statusLookups_inRange_iff (lowest highest : CString 4) (readFlag : Int) :
    (∀ actions : List CarAction,
      (∀ index ∈ (run (logged carStep) (startCar lowest highest readFlag, [])
          actions).2, 0 ≤ index ∧ index ≤ 4) ↔
        Along (fun car action => (carStep car action).1) FindsName
          (startCar lowest highest readFlag) actions) ∧
      ∀ texts : CString 8 → Prop,
        (∀ actions : List CarAction,
          (∀ action ∈ actions, WritesStatus texts action) →
            ∀ index ∈ (run (logged carStep)
              (startCar lowest highest readFlag, []) actions).2,
              0 ≤ index ∧ index ≤ 4) ↔
          ∀ text, texts text → isValidStatus text = true := by
  simp only [← inTable_iff, forall_inTable_iff, implies_true, true_and]
  intro texts
  constructor
  · intro hall text htext
    have halong := hall (lookedUp text) (lookedUp_writesStatus htext)
    -- the last of the four steps is the lookup
    exact halong.2.2.2.1 rfl
  · intro htexts actions hwrites
    exact along_findsName htexts lowest highest readFlag hwrites

/-- The string of the safety system's own test is looked up as -1. -/
theorem unknown_status_indexes_outside :
    (run (logged carStep)
        (startCar (floorToString 1) (floorToString 5) 0, [])
        (lookedUp (.store 8 "Asdfghj".toList))).2 = [-1, 0] ∧
      ¬ ∀ (lowest highest : CString 4) (readFlag : Int)
          (actions : List CarAction),
        ∀ index ∈ (run (logged carStep) (startCar lowest highest readFlag, [])
          actions).2, 0 ≤ index ∧ index ≤ 4 := by
  refine ⟨by decide, fun hall => ?_⟩
  exact absurd (hall (floorToString 1) (floorToString 5) 0
    (lookedUp (.store 8 "Asdfghj".toList))) (by decide)

end Numbered

end Elevator
