/-
The safety system: its validity checks and one pass of its loop body over the
shared segment.  A pass is described once, by the mode it leaves behind; what
the monitor guarantees is read off that description.
-/
import Elevator.SharedMemory

namespace Elevator

open CText

/-- A floor string is taken to be valid when it has at most three characters
and, after an optional leading `B`, only digits. -/
def isValidFloor {size : Nat} (floor : CString size) : Bool :=
  match floor.chars with
  | 'B' :: rest =>
      if 3 < ('B' :: rest).length then false else rest.all Char.isDigit
  | text => if 3 < text.length then false else text.all Char.isDigit

def isValidStatus (status : CString 8) : Bool :=
  Status.all.any fun i => status = statusNames i

inductive SafetyMessage where
  | emergencyStop
  | overload
  | dataConsistency
  | floorConsistency
  | statusConsistency
  | buttonConsistency
  | doorStatusConsistency
deriving DecidableEq, Repr

def SafetyMessage.text : SafetyMessage → String
  | .emergencyStop => "The emergency stop button has been pressed!\n"
  | .overload => "The overload sensor has been tripped!\n"
  | .dataConsistency => "Data consistency error!\n"
  | .floorConsistency => "Floor consistency error!\n"
  | .statusConsistency => "Status consistency error!\n"
  | .buttonConsistency => "Button consistency error!\n"
  | .doorStatusConsistency => "Door Status consistency error!\n"

def floorsInvalid (shm : CarSharedData) : Bool :=
  !isValidFloor shm.currentFloor || !isValidFloor shm.destinationFloor

/-- The range test of the flags.  `emergency_mode` is not among them. -/
def flagsInvalid (shm : CarSharedData) : Bool :=
  1 < shm.openButton || 1 < shm.closeButton || 1 < shm.doorObstruction ||
    1 < shm.overload || 1 < shm.emergencyStop || 1 < shm.individualServiceMode

/-- An obstruction while the doors are neither opening nor closing. -/
def doorStatusInvalid (shm : CarSharedData) : Bool :=
  shm.doorObstruction = 1 && shm.status ≠ statusNames .Opening &&
    shm.status ≠ statusNames .Closing

def dataInvalid (shm : CarSharedData) : Bool :=
  floorsInvalid shm || !isValidStatus shm.status || flagsInvalid shm ||
    doorStatusInvalid shm

/-- Doors that close on an obstruction are sent back to opening. -/
def reopenOnObstruction (shm : CarSharedData) : CarSharedData :=
  if shm.doorObstruction = 1 ∧ shm.status = statusNames .Closing then
    { shm with status := statusNames .Opening, openButton := 1 }
  else shm

/-- A guarded report: print the message and enter emergency mode. -/
def reportIf (guard : CarSharedData → Bool) (message : SafetyMessage)
    (state : CarSharedData × List SafetyMessage) :
    CarSharedData × List SafetyMessage :=
  if guard state.1 then
    ({ state.1 with emergencyMode := 1 }, state.2 ++ [message])
  else state

/-- One pass of the loop body, with what it prints. -/
def safetyPass (shm : CarSharedData) : CarSharedData × List SafetyMessage :=
  let reopened := (reopenOnObstruction shm, [])
  let stopped := reportIf
    (fun shm => shm.emergencyStop = 1 && shm.emergencyMode = 0)
    .emergencyStop reopened
  let overloaded := reportIf
    (fun shm => shm.overload = 1 && shm.emergencyMode = 0) .overload stopped
  if overloaded.1.emergencyMode ≠ 1 then
    let checked := reportIf dataInvalid .dataConsistency overloaded
    let floors := reportIf floorsInvalid .floorConsistency checked
    let status := reportIf (fun shm => !isValidStatus shm.status)
      .statusConsistency floors
    let buttons := reportIf flagsInvalid .buttonConsistency status
    reportIf doorStatusInvalid .doorStatusConsistency buttons
  else overloaded

/-- The circumstances in which a pass enters emergency mode, judged after the
obstruction has been dealt with. -/
def raisesEmergency (shm : CarSharedData) : Bool :=
  ((shm.emergencyStop = 1 || shm.overload = 1) && shm.emergencyMode = 0) ||
    (shm.emergencyMode ≠ 1 && dataInvalid shm)

theorem reportIf_data (guard : CarSharedData → Bool) (message : SafetyMessage)
    (state : CarSharedData × List SafetyMessage) :
    (reportIf guard message state).1 = { state.1 with
      emergencyMode := if guard state.1 then 1 else state.1.emergencyMode } := by
  cases hguard : guard state.1 <;> simp [reportIf, hguard]

section Mode

variable (shm : CarSharedData) (mode : UInt8)

@[simp] theorem floorsInvalid_mode :
    floorsInvalid { shm with emergencyMode := mode } = floorsInvalid shm := rfl

@[simp] theorem flagsInvalid_mode :
    flagsInvalid { shm with emergencyMode := mode } = flagsInvalid shm := rfl

@[simp] theorem doorStatusInvalid_mode :
    doorStatusInvalid { shm with emergencyMode := mode } =
      doorStatusInvalid shm := rfl

@[simp] theorem dataInvalid_mode :
    dataInvalid { shm with emergencyMode := mode } = dataInvalid shm := rfl

end Mode

/-- The five reports of the consistency block amount to the first of them: the
others repeat parts of its condition. -/
theorem consistencyReports_data (state : CarSharedData × List SafetyMessage) :
    (reportIf doorStatusInvalid .doorStatusConsistency <|
      reportIf flagsInvalid .buttonConsistency <|
      reportIf (fun shm => !isValidStatus shm.status) .statusConsistency <|
      reportIf floorsInvalid .floorConsistency <|
      reportIf dataInvalid .dataConsistency state).1 =
    { state.1 with
      emergencyMode := if dataInvalid state.1 then 1
        else state.1.emergencyMode } := by
  simp only [reportIf_data, floorsInvalid_mode, flagsInvalid_mode,
    doorStatusInvalid_mode]
  unfold dataInvalid
  cases floorsInvalid state.1 <;> cases isValidStatus state.1.status <;>
    cases flagsInvalid state.1 <;> cases doorStatusInvalid state.1 <;> simp

/-- The pass in one piece: it reopens an obstructed door, and the only other
field it can write is `emergency_mode`. -/
theorem safetyPass_data (shm : CarSharedData) :
    (safetyPass shm).1 = { reopenOnObstruction shm with
      emergencyMode := if raisesEmergency (reopenOnObstruction shm) then 1
        else (reopenOnObstruction shm).emergencyMode } := by
  simp only [safetyPass]
  generalize reopenOnObstruction shm = reopened
  rw [apply_ite Prod.fst, consistencyReports_data]
  simp only [reportIf_data, dataInvalid_mode, raisesEmergency]
  by_cases hone : reopened.emergencyMode = 1
  · simp [hone]
  · by_cases hzero : reopened.emergencyMode = 0
    · by_cases hstop : reopened.emergencyStop = 1
      · simp [hzero, hstop]
      · by_cases hload : reopened.overload = 1
        · simp [hzero, hstop, hload]
        · simp [hzero, hstop, hload]
    · simp [hone, hzero]

/-- Sending the doors back shows in the status and the open button only. -/
theorem reopenOnObstruction_frame (shm : CarSharedData) :
    reopenOnObstruction shm =
      { shm with
        status := (reopenOnObstruction shm).status
        openButton := (reopenOnObstruction shm).openButton } := by
  unfold reopenOnObstruction
  split <;> rfl

@[simp] theorem reopenOnObstruction_mode (shm : CarSharedData) :
    (reopenOnObstruction shm).emergencyMode = shm.emergencyMode := by
  rw [reopenOnObstruction_frame]

theorem safetyPass_floors (shm : CarSharedData) :
    (safetyPass shm).1.currentFloor = shm.currentFloor ∧
      (safetyPass shm).1.destinationFloor = shm.destinationFloor := by
  rw [safetyPass_data, reopenOnObstruction_frame]
  exact ⟨rfl, rfl⟩

theorem isValidStatus_iff (text : CString 8) :
    isValidStatus text = true ↔ ∃ status, text = statusNames status := by
  simp only [isValidStatus, List.any_eq_true, decide_eq_true_eq]
  constructor
  · rintro ⟨status, _, heq⟩
    exact ⟨status, heq⟩
  · rintro ⟨status, heq⟩
    exact ⟨status, by cases status <;> simp [Status.all], heq⟩

theorem isValidStatus_statusNames (status : Status) :
    isValidStatus (statusNames status) = true :=
  (isValidStatus_iff _).mpr ⟨status, rfl⟩

theorem safetyPass_individualServiceMode (shm : CarSharedData) :
    (safetyPass shm).1.individualServiceMode = shm.individualServiceMode := by
  rw [safetyPass_data, reopenOnObstruction_frame]

theorem safetyPass_emergencyMode (shm : CarSharedData) :
    (safetyPass shm).1.emergencyMode =
      if raisesEmergency (reopenOnObstruction shm) then 1
      else shm.emergencyMode := by
  simp [safetyPass_data]

/-- The part of the checks that looks at the form of the segment's fields, not
at what goes on. -/
structure WellFormed (shm : CarSharedData) : Prop where
  floors : floorsInvalid shm = false
  status : isValidStatus shm.status = true
  flags : flagsInvalid shm = false

theorem WellFormed.reopened {shm : CarSharedData} (hform : WellFormed shm) :
    WellFormed (reopenOnObstruction shm) := by
  unfold reopenOnObstruction
  split
  · obtain ⟨hfloors, -, hflags⟩ := hform
    refine ⟨hfloors, isValidStatus_statusNames .Opening, ?_⟩
    simp only [flagsInvalid, Bool.or_eq_false_iff, decide_eq_false_iff_not,
      UInt8.not_lt] at hflags ⊢
    simp_all
  · exact hform

theorem WellFormed.pass {shm : CarSharedData} (hform : WellFormed shm) :
    WellFormed (safetyPass shm).1 := by
  obtain ⟨hfloors, hstatus, hflags⟩ := hform.reopened
  rw [safetyPass_data]
  exact ⟨hfloors, hstatus, hflags⟩

theorem doorStatusInvalid_reopened (shm : CarSharedData) :
    doorStatusInvalid (reopenOnObstruction shm) = doorStatusInvalid shm := by
  unfold reopenOnObstruction
  split
  case isTrue h => simp [doorStatusInvalid, h.2]
  case isFalse h => rfl

/-- Nothing in the segment for which a pass would enter emergency mode. -/
def NoCause (shm : CarSharedData) : Prop :=
  shm.emergencyStop ≠ 1 ∧ shm.overload ≠ 1 ∧ doorStatusInvalid shm = false

instance (shm : CarSharedData) : Decidable (NoCause shm) :=
  inferInstanceAs (Decidable (_ ∧ _ ∧ _))

/-- On a well-formed segment a pass leaves emergency mode off exactly when
there is no cause for it. -/
theorem safetyPass_stays_off_iff {shm : CarSharedData} (hform : WellFormed shm)
    (hoff : shm.emergencyMode = 0) :
    (safetyPass shm).1.emergencyMode = 0 ↔ NoCause shm := by
  have hdata : dataInvalid (reopenOnObstruction shm) = doorStatusInvalid shm := by
    rw [← doorStatusInvalid_reopened shm]
    simp [dataInvalid, hform.reopened.floors, hform.reopened.status,
      hform.reopened.flags]
  have hstop : (reopenOnObstruction shm).emergencyStop = shm.emergencyStop := by
    rw [reopenOnObstruction_frame]
  have hload : (reopenOnObstruction shm).overload = shm.overload := by
    rw [reopenOnObstruction_frame]
  rw [safetyPass_emergencyMode, raisesEmergency, reopenOnObstruction_mode, hdata,
    hstop, hload, hoff, NoCause]
  by_cases hone : shm.emergencyStop = 1
  · simp [hone]
  · by_cases htwo : shm.overload = 1
    · simp [htwo]
    · simp [hone, htwo]

theorem mem_reportIf {guard : CarSharedData → Bool}
    {message reported : SafetyMessage}
    {state : CarSharedData × List SafetyMessage} :
    reported ∈ (reportIf guard message state).2 ↔
      reported ∈ state.2 ∨ guard state.1 = true ∧ reported = message := by
  cases hguard : guard state.1 <;> simp [reportIf, hguard]

/-- What a pass over a well-formed segment can print: a button, a sensor, or an
obstruction at the wrong moment. -/
theorem safetyPass_reports {shm : CarSharedData} (hform : WellFormed shm)
    {reported : SafetyMessage} (hmem : reported ∈ (safetyPass shm).2) :
    reported = .emergencyStop ∨ reported = .overload ∨
      doorStatusInvalid shm = true ∧
        (reported = .dataConsistency ∨ reported = .doorStatusConsistency) := by
  have hreopened := hform.reopened
  rw [← doorStatusInvalid_reopened]
  simp only [safetyPass] at hmem
  generalize reopenOnObstruction shm = reopened at hmem hreopened
  obtain ⟨hfloors, hstatus, hflags⟩ := hreopened
  rw [apply_ite Prod.snd] at hmem
  split at hmem
  · simp only [mem_reportIf, reportIf_data, floorsInvalid_mode,
      flagsInvalid_mode, doorStatusInvalid_mode, hfloors, hstatus, hflags,
      dataInvalid, List.not_mem_nil, Bool.false_or, Bool.not_true,
      Bool.or_false, Bool.false_eq_true, false_and, or_false, false_or] at hmem
    rcases hmem with ((hstop | hload) | hdata) | hdoor
    · exact Or.inl hstop.2
    · exact Or.inr (Or.inl hload.2)
    · exact Or.inr (Or.inr ⟨hdata.1, Or.inl hdata.2⟩)
    · exact Or.inr (Or.inr ⟨hdoor.1, Or.inr hdoor.2⟩)
  · simp only [mem_reportIf, List.not_mem_nil, false_or] at hmem
    rcases hmem with hstop | hload
    · exact Or.inl hstop.2
    · exact Or.inr (Or.inl hload.2)

/-- A state with nothing for the monitor to object to. -/
structure Consistent (shm : CarSharedData) : Prop where
  emergencyMode : shm.emergencyMode = 0
  currentFloor : isValidFloor shm.currentFloor = true
  destinationFloor : isValidFloor shm.destinationFloor = true
  status : ∃ status, shm.status = statusNames status
  openButton : shm.openButton ≤ 1
  closeButton : shm.closeButton ≤ 1
  doorObstruction : shm.doorObstruction ≤ 1
  overload : shm.overload ≤ 1
  emergencyStop : shm.emergencyStop ≤ 1
  individualServiceMode : shm.individualServiceMode ≤ 1
  notStopped : shm.emergencyStop ≠ 1
  notOverloaded : shm.overload ≠ 1
  obstruction : shm.doorObstruction = 1 →
    shm.status = statusNames .Opening ∨ shm.status = statusNames .Closing

/-- What the monitor is there for: emergency mode, or nothing wrong. -/
def Monitored (shm : CarSharedData) : Prop :=
  shm.emergencyMode = 1 ∨ Consistent shm

theorem dataInvalid_eq_false_iff (shm : CarSharedData) :
    dataInvalid shm = false ↔
      (isValidFloor shm.currentFloor = true ∧
        isValidFloor shm.destinationFloor = true) ∧
      (∃ status, shm.status = statusNames status) ∧
      (((((shm.openButton ≤ 1 ∧ shm.closeButton ≤ 1) ∧
        shm.doorObstruction ≤ 1) ∧ shm.overload ≤ 1) ∧
        shm.emergencyStop ≤ 1) ∧ shm.individualServiceMode ≤ 1) ∧
      (shm.doorObstruction = 1 →
        shm.status = statusNames .Opening ∨ shm.status = statusNames .Closing) := by
  rw [← isValidStatus_iff]
  simp only [dataInvalid, floorsInvalid, flagsInvalid, doorStatusInvalid,
    Bool.or_eq_false_iff, Bool.and_eq_false_iff, Bool.not_eq_false',
    decide_eq_false_iff_not, UInt8.not_lt, ne_eq, not_not, and_assoc,
    or_assoc, imp_iff_not_or]

theorem consistent_iff (shm : CarSharedData) :
    Consistent shm ↔ shm.emergencyMode = 0 ∧ dataInvalid shm = false ∧
      shm.emergencyStop ≠ 1 ∧ shm.overload ≠ 1 := by
  rw [dataInvalid_eq_false_iff]
  constructor
  · intro h
    exact ⟨h.emergencyMode, ⟨⟨h.currentFloor, h.destinationFloor⟩, h.status,
      ⟨⟨⟨⟨⟨h.openButton, h.closeButton⟩, h.doorObstruction⟩, h.overload⟩,
        h.emergencyStop⟩, h.individualServiceMode⟩, h.obstruction⟩,
      h.notStopped, h.notOverloaded⟩
  · rintro ⟨hmode, ⟨⟨hcurrent, hdest⟩, hstatus, ⟨⟨⟨⟨⟨hopen, hclose⟩, hdoor⟩,
      hload⟩, hstop⟩, hservice⟩, hobstruction⟩, hnotStopped, hnotOverloaded⟩
    exact ⟨hmode, hcurrent, hdest, hstatus, hopen, hclose, hdoor, hload, hstop,
      hservice, hnotStopped, hnotOverloaded, hobstruction⟩

/-- A pass does its duty exactly when `emergency_mode` held 0 or 1 before it,
or one of the consistency checks fires.  Any other value of the mode switches
both the stop guards, which ask for 0, and the repair of the mode itself off:
the range check of the flags leaves `emergency_mode` out. -/
theorem safetyPass_monitored_iff (shm : CarSharedData) :
    Monitored (safetyPass shm).1 ↔
      shm.emergencyMode = 0 ∨ shm.emergencyMode = 1 ∨
        dataInvalid (reopenOnObstruction shm) = true := by
  have hmode := reopenOnObstruction_mode shm
  rw [Monitored, consistent_iff, safetyPass_data, dataInvalid_mode]
  generalize reopenOnObstruction shm = reopened at *
  rw [← hmode]
  cases hraised : raisesEmergency reopened with
  | true =>
      simp only [raisesEmergency, Bool.or_eq_true, Bool.and_eq_true,
        decide_eq_true_eq] at hraised
      simp only [↓reduceIte, true_or, true_iff]
      rcases hraised with ⟨_, hzero⟩ | ⟨_, hdata⟩
      · exact Or.inl hzero
      · exact Or.inr (Or.inr hdata)
  | false =>
      simp only [raisesEmergency, Bool.or_eq_false_iff, Bool.and_eq_false_iff,
        decide_eq_false_iff_not, ne_eq, not_not] at hraised
      obtain ⟨hcauses, hchecked⟩ := hraised
      simp only [Bool.false_eq_true, ↓reduceIte]
      constructor
      · rintro (hone | ⟨hzero, _⟩)
        · exact Or.inr (Or.inl hone)
        · exact Or.inl hzero
      · rintro (hzero | hone | hdata)
        · have hclear := hcauses.resolve_right (not_not.mpr hzero)
          have hne : reopened.emergencyMode ≠ 1 := by rw [hzero]; decide
          exact Or.inr ⟨hzero, hchecked.resolve_left hne, hclear.1, hclear.2⟩
        · exact Or.inl hone
        · rw [hdata] at hchecked
          exact Or.inl (hchecked.resolve_right (by decide))

/-- A corrupted mode that the pass neither repairs nor reports, and under which
it also overlooks the stop button. -/
theorem safetyPass_overlooks_mode :
    ¬ Monitored (safetyPass { initSharedData (floorToString 1) with
      emergencyMode := 2, emergencyStop := 1 }).1 := by
  rintro (hmode | hconsistent)
  · exact absurd hmode (by decide)
  · exact absurd hconsistent.emergencyMode (by decide)

end Elevator
