/-
The two modes of the car.  The command that starts individual service ends the
emergency before it takes away what the emergency was raised for, and it ends
the emergency in another critical section than the one that starts the service:
the monitor can act in the first gap, another command in the second.
-/
import Elevator.Car
import Elevator.Internal

namespace Elevator

open CText Transition

/-- One `service_on` command and the monitor take turns at the segment. -/
inductive ServiceAction where
  | command
  | pass
deriving DecidableEq, Repr

def serviceStep (state : CarSharedData × InternalPc) :
    ServiceAction → CarSharedData × InternalPc
  | .command => internalStep state.1 state.2
  | .pass => ((safetyPass state.1).1, state.2)

theorem serviceStep_command (state : CarSharedData × InternalPc) :
    serviceStep state .command = internalStep state.1 state.2 := rfl

theorem serviceStep_pass (state : CarSharedData × InternalPc) :
    serviceStep state .pass = ((safetyPass state.1).1, state.2) := rfl

/-- The edits of the command that come after the emergency has been ended. -/
def InternalPc.emergencyEnded (pc : InternalPc) : Prop :=
  pc = .clearEmergencyStop ∨ pc = .clearOverload ∨
    pc = .clearDoorObstruction ∨ pc = .finished

instance (pc : InternalPc) : Decidable pc.emergencyEnded :=
  inferInstanceAs (Decidable (_ ∨ _ ∨ _ ∨ _))

/-- A pass after the emergency has been ended finds no cause for another. -/
def CausesCleared (state : CarSharedData × InternalPc) (action : ServiceAction) :
    Prop :=
  action = .pass → state.2.emergencyEnded → NoCause state.1

instance (state : CarSharedData × InternalPc) (action : ServiceAction) :
    Decidable (CausesCleared state action) :=
  inferInstanceAs (Decidable (_ → _ → _))

/-- What the command has done so far is still in force. -/
def EmergencyOff (state : CarSharedData × InternalPc) : Prop :=
  state.2.emergencyEnded → state.1.emergencyMode = 0

/-- The invariant of the command's own part: the segment stays well formed, and
service mode is on once it has been set. -/
structure Activating (state : CarSharedData × InternalPc) : Prop where
  wellFormed : WellFormed state.1
  place : state.2 = .setService ∨ state.1.individualServiceMode = 1 ∧
    (state.2 = .clearEmergency ∨ state.2.emergencyEnded)

theorem WellFormed.edit {shm : CarSharedData} (hform : WellFormed shm)
    {pc : InternalPc}
    (hplace : pc = .setService ∨ pc = .clearEmergency ∨ pc.emergencyEnded) :
    WellFormed (internalStep shm pc).1 := by
  obtain ⟨hfloors, hstatus, hflags⟩ := hform
  have hflags' : flagsInvalid (internalStep shm pc).1 = false := by
    simp only [flagsInvalid, Bool.or_eq_false_iff, decide_eq_false_iff_not,
      UInt8.not_lt] at hflags ⊢
    rcases hplace with rfl | rfl | rfl | rfl | rfl | rfl <;>
      simp [internalStep, editSharedMemory, hflags]
  refine ⟨?_, ?_, hflags'⟩
  · rcases hplace with rfl | rfl | rfl | rfl | rfl | rfl <;> exact hfloors
  · rw [internalStep_status]
    exact hstatus

theorem Activating.step {state : CarSharedData × InternalPc}
    (hinv : Activating state) (action : ServiceAction) :
    Activating (serviceStep state action) := by
  rcases state with ⟨shm, pc⟩
  have hform : WellFormed shm := hinv.wellFormed
  have hplace := hinv.place
  cases action with
  | command =>
      rw [serviceStep_command]
      refine ⟨hform.edit ?_, ?_⟩
      · rcases hplace with h | ⟨-, h | h⟩
        · exact Or.inl h
        · exact Or.inr (Or.inl h)
        · exact Or.inr (Or.inr h)
      · right
        rcases hplace with rfl | ⟨hon, rfl | rfl | rfl | rfl | rfl⟩ <;>
          simp_all [internalStep, InternalPc.emergencyEnded, editSharedMemory]
  | pass =>
      have hservice := safetyPass_individualServiceMode shm
      rw [serviceStep_pass]
      exact ⟨hform.pass, by rwa [hservice]⟩

theorem emergencyOff_step {state : CarSharedData × InternalPc}
    {action : ServiceAction} (hinv : Activating state) (hoff : EmergencyOff state)
    (hguard : CausesCleared state action) :
    EmergencyOff (serviceStep state action) := by
  rcases state with ⟨shm, pc⟩
  cases action with
  | command =>
      intro hended
      show (internalStep shm pc).1.emergencyMode = 0
      rw [internalStep_emergencyMode]
      split
      case isTrue h => rfl
      case isFalse hne =>
        rcases hinv.place with h | ⟨-, h | h⟩
        · cases h
          simp [serviceStep, internalStep, InternalPc.emergencyEnded] at hended
        · exact absurd h hne
        · exact hoff h
  | pass =>
      intro hended
      have hform : WellFormed shm := hinv.wellFormed
      have hmode : shm.emergencyMode = 0 := hoff hended
      have hnone : NoCause shm := hguard rfl hended
      simp only [serviceStep_pass]
      exact (safetyPass_stays_off_iff hform hmode).mpr hnone

theorem causesCleared_of_emergencyOff {state : CarSharedData × InternalPc}
    {action : ServiceAction} (hinv : Activating state) (hoff : EmergencyOff state)
    (hafter : EmergencyOff (serviceStep state action)) :
    CausesCleared state action := by
  rintro rfl hended
  simp only [EmergencyOff, serviceStep_pass] at hafter
  have hmode := hafter hended
  exact (safetyPass_stays_off_iff hinv.wellFormed (hoff hended)).mp hmode

/-- Neither the command nor the monitor ends an emergency raised after the
command ended the one before. -/
theorem emergencyOff_persists (state : CarSharedData × InternalPc)
    (action : ServiceAction) (hafter : EmergencyOff (serviceStep state action)) :
    EmergencyOff state := by
  rcases state with ⟨shm, pc⟩
  intro hended
  cases action with
  | command =>
      have hnext : (internalStep shm pc).2.emergencyEnded := by
        rcases hended with h | h | h | h <;>
          simp [show pc = _ from h, internalStep, InternalPc.emergencyEnded]
      have hmode := hafter hnext
      have hne : pc ≠ .clearEmergency := by
        rcases hended with h | h | h | h <;>
          simp [show pc = _ from h]
      rwa [serviceStep, internalStep_emergencyMode, if_neg hne] at hmode
  | pass =>
      simp only [EmergencyOff, serviceStep_pass, safetyPass_emergencyMode]
        at hafter
      have hmode := hafter hended
      split at hmode
      · exact absurd hmode (by decide)
      · exact hmode

/-- A finished `service_on` has taken effect exactly when no pass of the
monitor fell between the end of the emergency and the clearing of a cause for
it: the order of the edits leaves the causes in place for a while. -/
theorem serviceOn_takes_effect_iff {shm : CarSharedData}
    (hform : WellFormed shm) (actions : List ServiceAction)
    (hfinished : (run serviceStep (shm, internalMain "service_on".toList)
      actions).2 = .finished) :
    ((run serviceStep (shm, internalMain "service_on".toList)
          actions).1.individualServiceMode = 1 ∧
        (run serviceStep (shm, internalMain "service_on".toList)
          actions).1.emergencyMode = 0) ↔
      Along serviceStep CausesCleared (shm, internalMain "service_on".toList)
        actions := by
  have hstart : Activating (shm, internalMain "service_on".toList) :=
    ⟨hform, Or.inl rfl⟩
  have hexact : Always serviceStep EmergencyOff
      (shm, internalMain "service_on".toList) actions ↔
        Along serviceStep CausesCleared
          (shm, internalMain "service_on".toList) actions := by
    apply always_iff_along_of_invariant
      (fun state => Activating state ∧ EmergencyOff state)
    · intro state action hinv hguard
      exact ⟨hinv.1.step action, emergencyOff_step hinv.1 hinv.2 hguard⟩
    · exact fun state hinv => hinv.2
    · intro state action hinv hafter
      exact causesCleared_of_emergencyOff hinv.1 hinv.2 hafter
    · refine ⟨hstart, fun hended => ?_⟩
      simp [InternalPc.emergencyEnded, internalMain, getOperation,
        Input.start] at hended
  rw [← hexact, always_iff_final emergencyOff_persists]
  generalize hlast : run serviceStep (shm, internalMain "service_on".toList)
    actions = last at hfinished ⊢
  have hinv : Activating last := by
    rw [← hlast]
    exact run_of_invariant Activating (fun state action hinv => hinv.step action)
      hstart actions
  constructor
  · exact fun heffect _ => heffect.2
  · intro hoff
    have hended : last.2.emergencyEnded := Or.inr (Or.inr (Or.inr hfinished))
    refine ⟨?_, hoff hended⟩
    rcases hinv.place with h | ⟨hon, -⟩
    · rw [hfinished] at h
      cases h
    · exact hon

def stoppedSegment : CarSharedData :=
  { initSharedData (floorToString 1) with emergencyStop := 1, emergencyMode := 1 }

theorem stoppedSegment_wellFormed : WellFormed stoppedSegment :=
  ⟨by decide, by decide, by decide⟩

/-- Passes that come before the emergency is ended, or after its cause has been
cleared, do no harm. -/
theorem serviceOn_takes_effect_early_and_late :
    (run serviceStep (stoppedSegment, internalMain "service_on".toList)
        [.command, .pass, .command, .command, .pass, .command,
          .command]).1.individualServiceMode = 1 ∧
      (run serviceStep (stoppedSegment, internalMain "service_on".toList)
        [.command, .pass, .command, .command, .pass, .command,
          .command]).1.emergencyMode = 0 :=
  (serviceOn_takes_effect_iff stoppedSegment_wellFormed _ (by decide)).mpr
    (by decide)

/-- One pass between the second edit and the third raises the emergency again,
and the command finishes with it on. -/
theorem serviceOn_raised_again :
    WellFormed stoppedSegment ∧
      (run serviceStep (stoppedSegment, internalMain "service_on".toList)
        [.command, .command, .pass, .command, .command, .command]).2 =
          .finished ∧
      (run serviceStep (stoppedSegment, internalMain "service_on".toList)
        [.command, .command, .pass, .command, .command,
          .command]).1.emergencyMode = 1 :=
  ⟨stoppedSegment_wellFormed, by decide, by decide⟩

/-- A car, and the commands of its internal controls that have been started. -/
structure ControlledCar where
  car : CarState
  controls : List InternalPc
deriving DecidableEq, Repr

/-- Who takes the next step: a thread of the car, the safety system, a new
command, or the command started as number `i`. -/
inductive ControlAction where
  | process
  | doorcontrol
  | floor (label : CString 4)
  | safety
  | start (operation : List Char)
  | internal (i : Nat)
deriving DecidableEq, Repr

def controlStep (state : ControlledCar) : ControlAction → ControlledCar
  | .process => { state with car := processStep state.car }
  | .doorcontrol => { state with car := doorcontrolStep state.car }
  | .floor label => { state with car := receiveFloor state.car label }
  | .safety =>
      { state with
        car := { state.car with data := (safetyPass state.car.data).1 } }
  | .start operation =>
      { state with controls := state.controls ++ [internalMain operation] }
  | .internal i =>
      match state.controls[i]? with
      | none => state
      | some pc => {
          car := { state.car with data := (internalStep state.car.data pc).1 }
          controls := state.controls.set i (internalStep state.car.data pc).2 }

/-- A step that lifts an emergency is taken in service mode. -/
def LiftedInService (state : ControlledCar) (action : ControlAction) : Prop :=
  state.car.data.emergencyMode = 1 →
    (controlStep state action).car.data.emergencyMode = 0 →
      state.car.data.individualServiceMode = 1

instance (state : ControlledCar) (action : ControlAction) :
    Decidable (LiftedInService state action) :=
  inferInstanceAs (Decidable (_ → _ → _))

/-- No command ends the service while another stands between its first edit,
which starts the service, and its second, which ends the emergency. -/
def ServiceKept (state : ControlledCar) : ControlAction → Prop
  | .internal i =>
      state.controls[i]? = some .clearService →
        .clearEmergency ∉ state.controls
  | _ => True

instance serviceKeptDecidable (state : ControlledCar) :
    (action : ControlAction) → Decidable (ServiceKept state action)
  | .internal _ => inferInstanceAs (Decidable (_ → _))
  | .process => isTrue trivial
  | .doorcontrol => isTrue trivial
  | .floor _ => isTrue trivial
  | .safety => isTrue trivial
  | .start _ => isTrue trivial

/-- The invariant: where a command is about to end the emergency, the service
it started is on. -/
def EndsInService (state : ControlledCar) : Prop :=
  .clearEmergency ∈ state.controls → state.car.data.individualServiceMode = 1

/-- The steps that are not accesses of a command leave the service mode alone,
and an emergency that is on stays on. -/
theorem controlStep_modes_of_ne_internal (state : ControlledCar)
    {action : ControlAction} (hother : ∀ i, action ≠ .internal i) :
    (controlStep state action).car.data.individualServiceMode =
        state.car.data.individualServiceMode ∧
      (state.car.data.emergencyMode = 1 →
        (controlStep state action).car.data.emergencyMode = 1) := by
  cases action with
  | process =>
      obtain ⟨hmode, hservice⟩ := processStep_modes state.car
      simp only [controlStep]
      exact ⟨hservice, hmode.trans⟩
  | doorcontrol =>
      have hsame := doorcontrolStep_sameButDoors state.car
      simp only [controlStep]
      exact ⟨hsame.individualServiceMode, hsame.emergencyMode.trans⟩
  | floor label => simp [controlStep, receiveFloor_data]
  | safety =>
      simp only [controlStep, safetyPass_individualServiceMode,
        safetyPass_emergencyMode, true_and]
      intro hon
      rw [hon, ite_self]
  | start operation => exact ⟨rfl, id⟩
  | internal i => exact absurd rfl (hother i)

/-- A command comes to stand at its second edit through its first only. -/
theorem clearEmergency_mem_controlStep {state : ControlledCar} {i : Nat}
    {pc : InternalPc} (hpc : state.controls[i]? = some pc)
    (hmem : .clearEmergency ∈ (controlStep state (.internal i)).controls) :
    pc = .setService ∨ .clearEmergency ∈ state.controls := by
  simp only [controlStep, hpc] at hmem
  rcases List.mem_or_eq_of_mem_set hmem with hold | hnew
  · exact Or.inr hold
  · exact Or.inl (internalStep_clearEmergency hnew.symm)

theorem EndsInService.step (state : ControlledCar) (action : ControlAction)
    (hinv : EndsInService state) (hguard : ServiceKept state action) :
    EndsInService (controlStep state action) := by
  intro hmem
  cases action with
  | internal i =>
      cases hpc : state.controls[i]? with
      | none =>
          simp only [controlStep, hpc] at hmem ⊢
          exact hinv hmem
      | some pc =>
          have hplace := clearEmergency_mem_controlStep hpc hmem
          simp only [controlStep, hpc, internalStep_individualServiceMode]
          split_ifs with hset hclear
          · rfl
          · subst hclear
            exact absurd (hplace.resolve_left hset) (hguard hpc)
          · exact hinv (hplace.resolve_left hset)
  | start operation =>
      refine hinv ?_
      rcases List.mem_append.mp hmem with hold | hnew
      · exact hold
      · exact absurd (List.mem_singleton.mp hnew).symm
          (internalMain_ne_clearEmergency operation)
  | process | doorcontrol | floor label | safety =>
      have hcontrols : .clearEmergency ∈ state.controls := by
        simpa only [controlStep] using hmem
      rw [(controlStep_modes_of_ne_internal state
        (fun i => ControlAction.noConfusion)).1]
      exact hinv hcontrols

theorem EndsInService.lifted {state : ControlledCar} (hinv : EndsInService state)
    (action : ControlAction) : LiftedInService state action := by
  intro hon hoff
  by_cases hinternal : ∃ i, action = .internal i
  · obtain ⟨i, rfl⟩ := hinternal
    cases hpc : state.controls[i]? with
    | none =>
        simp only [controlStep, hpc, hon] at hoff
        exact absurd hoff (by decide)
    | some pc =>
        simp only [controlStep, hpc, internalStep_emergencyMode] at hoff
        split at hoff
        case isTrue hclear =>
          exact hinv (hclear ▸ List.mem_of_getElem? hpc)
        case isFalse hne =>
          rw [hon] at hoff
          exact absurd hoff (by decide)
  · have hstays := (controlStep_modes_of_ne_internal state
      (not_exists.mp hinternal)).2 hon
    rw [hstays] at hoff
    exact absurd hoff (by decide)

/-- In every run, from any state of the car, in which no command ends the
service in the gap of another, emergencies are lifted in service mode only. -/
theorem liftedInService_of_serviceKept (car : CarState)
    (actions : List ControlAction)
    (hguard : Along controlStep ServiceKept ⟨car, []⟩ actions) :
    Along controlStep LiftedInService ⟨car, []⟩ actions := by
  have hstart : EndsInService ⟨car, []⟩ := fun hmem => by cases hmem
  exact along_of_invariant EndsInService.step
    (fun state action hinv _ => hinv.lifted action) hstart hguard

/-- The emergency stop is pressed and noticed; two passengers then use the
service key, one to turn the service on and one to turn it off. -/
def serviceKeys : List ControlAction :=
  [.start "stop".toList, .internal 0, .safety, .start "service_on".toList,
    .start "service_off".toList]

/-- The service ends before the command that starts it, or after that command
has ended the emergency. -/
theorem liftedInService_apart :
    Along controlStep LiftedInService ⟨demoCar, []⟩
        (serviceKeys ++ [.internal 2, .internal 1, .internal 1, .process]) ∧
      Along controlStep LiftedInService ⟨demoCar, []⟩
        (serviceKeys ++ [.internal 1, .internal 1, .internal 2]) :=
  ⟨liftedInService_of_serviceKept _ _ (by decide),
    liftedInService_of_serviceKept _ _ (by decide)⟩

/-- In the gap of the command that starts the service another ends it, and the
emergency is lifted all the same. -/
theorem lifted_out_of_service :
    ¬ Along controlStep LiftedInService ⟨demoCar, []⟩
        (serviceKeys ++ [.internal 1, .internal 2, .internal 1]) ∧
      (run controlStep ⟨demoCar, []⟩ (serviceKeys ++
        [.internal 1, .internal 2, .internal 1])).car.data.individualServiceMode =
          0 ∧
      (run controlStep ⟨demoCar, []⟩ (serviceKeys ++
        [.internal 1, .internal 2, .internal 1])).car.data.emergencyMode = 0 :=
  ⟨by decide, by decide, by decide⟩

end Elevator
