/-
A command that drives by hand among the other processes.  It looks at the
service mode, twice at the status, and then edits, each in a critical section of
its own; the status is compared with the two that are ruled out, not with the
one that is meant.
-/
import Elevator.ManualDriving
import Elevator.ServiceMode

namespace Elevator

open CText Transition

def InternalPc.distance : InternalPc → Option Int
  | .checkService floor => some floor
  | .checkOpen floor => some floor
  | .checkBetween floor => some floor
  | .moveDestination floor => some floor
  | _ => none

def InternalPc.isLastCheck : InternalPc → Bool
  | .checkBetween _ => true
  | _ => false

def InternalPc.isEdit : InternalPc → Bool
  | .moveDestination _ => true
  | _ => false

/-- A state in which a car may be driven by hand. -/
def ReadyToDrive (shm : CarSharedData) : Prop :=
  shm.individualServiceMode = 1 ∧ shm.status = statusNames .Closed

instance (shm : CarSharedData) : Decidable (ReadyToDrive shm) :=
  inferInstanceAs (Decidable (_ ∧ _))

/-- A command to drive leaves the segment as it is, or it is a state in which
the car may be driven and all it changes is the destination. -/
def DrivesWhenReady (state : ControlledCar) : ControlAction → Prop
  | .internal i =>
      ∀ pc floor, state.controls[i]? = some pc → pc.distance = some floor →
        (controlStep state (.internal i)).car.data = state.car.data ∨
          ReadyToDrive state.car.data ∧ ∃ label,
            (controlStep state (.internal i)).car.data =
              { state.car.data with destinationFloor := label }
  | _ => True

/-- A command has made its last check and not yet its edit. -/
def AtEdit (state : ControlledCar) : Prop :=
  ∃ pc ∈ state.controls, pc.isEdit = true

instance (state : ControlledCar) : Decidable (AtEdit state) :=
  inferInstanceAs (Decidable (∃ pc ∈ state.controls, _))

/-- The last check of a command is refused, or made in a state in which the car
may be driven; and as long as a command stands between its last check and its
edit, the service is not ended, and the car and the monitor leave the status
at `Closed`. -/
def StaysReady (state : ControlledCar) : ControlAction → Prop
  | .internal i =>
      (state.controls[i]?.any InternalPc.isLastCheck = true →
        readCarStatus state.car.data ≠ some .Between →
          ReadyToDrive state.car.data) ∧
      (state.controls[i]? = some .clearService → ¬ AtEdit state)
  | .process =>
      AtEdit state → (processStep state.car).data.status = statusNames .Closed
  | .doorcontrol =>
      AtEdit state → (doorcontrolStep state.car).data.status = statusNames .Closed
  | .safety =>
      AtEdit state → (safetyPass state.car.data).1.status = statusNames .Closed
  | .floor _ => True
  | .start _ => True

instance staysReadyDecidable (state : ControlledCar) :
    (action : ControlAction) → Decidable (StaysReady state action)
  | .internal _ => inferInstanceAs (Decidable ((_ → _ → _) ∧ (_ → _)))
  | .process => inferInstanceAs (Decidable (_ → _))
  | .doorcontrol => inferInstanceAs (Decidable (_ → _))
  | .safety => inferInstanceAs (Decidable (_ → _))
  | .floor _ => isTrue trivial
  | .start _ => isTrue trivial

/-- The invariant: a command at its edit finds the car ready. -/
def EditsReady (state : ControlledCar) : Prop :=
  AtEdit state → ReadyToDrive state.car.data

theorem internalMain_isEdit (operation : List Char) :
    (internalMain operation).isEdit = false := by
  unfold internalMain
  split
  · rfl
  · cases getOperation operation with
    | none => rfl
    | some opp => cases opp <;> rfl

/-- A command comes to stand at its edit through its last check only. -/
theorem internalStep_isEdit {shm : CarSharedData} {pc : InternalPc}
    (hedit : (internalStep shm pc).2.isEdit = true) :
    ∃ floor, pc = .checkBetween floor ∧ readCarStatus shm ≠ some .Between := by
  cases pc with
  | checkBetween floor =>
      refine ⟨floor, rfl, fun hbetween => ?_⟩
      simp only [internalStep, if_pos hbetween] at hedit
      cases hedit
  | checkMoving | checkService floor | checkOpen floor =>
      simp only [internalStep] at hedit
      split at hedit <;> cases hedit
  | _ => cases hedit

/-- An access of a command to drive that is not its edit is a read. -/
theorem internalStep_of_distance {pc : InternalPc} {floor : Int}
    (hdistance : pc.distance = some floor) (shm : CarSharedData) :
    (internalStep shm pc).1 = shm ∨
      pc = .moveDestination floor ∧ ∃ label,
        (internalStep shm pc).1 = { shm with destinationFloor := label } := by
  cases pc with
  | checkService other | checkOpen other | checkBetween other => exact Or.inl rfl
  | moveDestination other =>
      obtain rfl := Option.some.inj hdistance
      exact Or.inr ⟨rfl, _, rfl⟩
  | _ => cases hdistance

theorem controlStep_internal {state : ControlledCar} {i : Nat} {pc : InternalPc}
    (hpc : state.controls[i]? = some pc) :
    (controlStep state (.internal i)).car.data = (internalStep state.car.data pc).1 ∧
      (controlStep state (.internal i)).controls =
        state.controls.set i (internalStep state.car.data pc).2 := by
  simp [controlStep, hpc]

/-- No command comes to stand at its edit by a step of another process. -/
theorem atEdit_controlStep_of_ne_internal {state : ControlledCar}
    {action : ControlAction} (hother : ∀ i, action ≠ .internal i)
    (hedit : AtEdit (controlStep state action)) : AtEdit state := by
  cases action with
  | start operation =>
      obtain ⟨pc, hpc, hisEdit⟩ := hedit
      rcases List.mem_append.mp hpc with hold | hnew
      · exact ⟨pc, hold, hisEdit⟩
      · rw [List.mem_singleton.mp hnew, internalMain_isEdit] at hisEdit
        cases hisEdit
  | internal i => exact absurd rfl (hother i)
  | process | doorcontrol | floor label | safety =>
      simp only [AtEdit, controlStep] at hedit
      exact hedit

theorem EditsReady.step (state : ControlledCar) (action : ControlAction)
    (hinv : EditsReady state) (hguard : StaysReady state action) :
    EditsReady (controlStep state action) := by
  intro hedit
  by_cases hinternal : ∃ i, action = .internal i
  · obtain ⟨i, rfl⟩ := hinternal
    cases hpc : state.controls[i]? with
    | none =>
        simp only [controlStep, hpc] at hedit ⊢
        exact hinv hedit
    | some pc =>
        obtain ⟨hdata, hcontrols⟩ := controlStep_internal hpc
        obtain ⟨other, hmem, hisEdit⟩ := hedit
        rw [hcontrols] at hmem
        rw [hdata]
        rcases List.mem_or_eq_of_mem_set hmem with hold | rfl
        · obtain ⟨hservice, hstatus⟩ := hinv ⟨other, hold, hisEdit⟩
          refine ⟨?_, (internalStep_status _ _).trans hstatus⟩
          rw [internalStep_individualServiceMode]
          split_ifs with hset hclear
          · rfl
          · subst hclear
            exact absurd ⟨other, hold, hisEdit⟩ (hguard.2 hpc)
          · exact hservice
        · obtain ⟨floor, rfl, hbetween⟩ := internalStep_isEdit hisEdit
          have hlast : state.controls[i]?.any InternalPc.isLastCheck = true := by
            rw [hpc]
            rfl
          exact hguard.1 hlast hbetween
  · have hother := not_exists.mp hinternal
    have hbefore := atEdit_controlStep_of_ne_internal hother hedit
    obtain ⟨hservice, hstatus⟩ := hinv hbefore
    have hmode := (controlStep_modes_of_ne_internal state hother).1
    refine ⟨hmode.trans hservice, ?_⟩
    cases action with
    | process | doorcontrol | safety =>
        simp only [controlStep]
        exact hguard hbefore
    | floor label =>
        simp only [controlStep, receiveFloor_data]
        exact hstatus
    | start operation => exact hstatus
    | internal i => exact absurd rfl (hother i)

theorem EditsReady.drivesWhenReady {state : ControlledCar} (hinv : EditsReady state)
    (action : ControlAction) : DrivesWhenReady state action := by
  cases action with
  | internal i =>
      intro pc floor hpc hdistance
      obtain ⟨hdata, -⟩ := controlStep_internal hpc
      rw [hdata]
      rcases internalStep_of_distance hdistance state.car.data with hsame | hmoves
      · exact Or.inl hsame
      · obtain ⟨rfl, label, hlabel⟩ := hmoves
        exact Or.inr ⟨hinv ⟨_, List.mem_of_getElem? hpc, rfl⟩, label, hlabel⟩
  | process | doorcontrol | floor label | safety | start operation => trivial

/-- The commands on their way are `up` and `down` as far as they drive. -/
def CarryDrives (state : ControlledCar) : Prop :=
  ∀ pc ∈ state.controls, ∀ floor, pc.distance = some floor →
    ∃ drive : Drive, floor = drive.amount

theorem internalMain_distance {operation : List Char} {floor : Int}
    (hdistance : (internalMain operation).distance = some floor) :
    ∃ drive : Drive, floor = drive.amount := by
  unfold internalMain at hdistance
  split at hdistance
  · cases hdistance
  · cases hoperation : getOperation operation with
    | none =>
        rw [hoperation] at hdistance
        cases hdistance
    | some opp =>
        rw [hoperation] at hdistance
        cases opp with
        | up => exact ⟨.up, (Option.some.inj hdistance).symm⟩
        | down => exact ⟨.down, (Option.some.inj hdistance).symm⟩
        | opendoor | closedoor | stop | serviceon | serviceoff => cases hdistance

theorem internalStep_distance {shm : CarSharedData} {pc : InternalPc} {floor : Int}
    (hdistance : (internalStep shm pc).2.distance = some floor) :
    pc.distance = some floor := by
  cases pc with
  | checkMoving =>
      simp only [internalStep] at hdistance
      split at hdistance <;> cases hdistance
  | checkService other =>
      simp only [internalStep] at hdistance
      split at hdistance
      · exact hdistance
      · cases hdistance
  | checkOpen other | checkBetween other =>
      simp only [internalStep] at hdistance
      split at hdistance
      · cases hdistance
      · exact hdistance
  | _ => cases hdistance

theorem CarryDrives.step (state : ControlledCar) (action : ControlAction)
    (hinv : CarryDrives state) : CarryDrives (controlStep state action) := by
  intro pc hmem floor hdistance
  cases action with
  | internal i =>
      cases hpc : state.controls[i]? with
      | none =>
          simp only [controlStep, hpc] at hmem
          exact hinv pc hmem floor hdistance
      | some before =>
          rw [(controlStep_internal hpc).2] at hmem
          rcases List.mem_or_eq_of_mem_set hmem with hold | rfl
          · exact hinv pc hold floor hdistance
          · exact hinv before (List.mem_of_getElem? hpc) floor
              (internalStep_distance hdistance)
  | start operation =>
      rcases List.mem_append.mp hmem with hold | hnew
      · exact hinv pc hold floor hdistance
      · rw [List.mem_singleton.mp hnew] at hdistance
        exact internalMain_distance hdistance
  | process | doorcontrol | floor label | safety =>
      simp only [controlStep] at hmem
      exact hinv pc hmem floor hdistance

/-- The edit of a command to drive always shows. -/
theorem floorToString_movedFloor_ne (label : CString 4) (drive : Drive) :
    floorToString (movedFloor (stringToFloor label) drive.amount) ≠ label := by
  intro hsame
  have hlabel : IsCanonical label := hsame ▸ isCanonical_floorToString _
  obtain ⟨j, hj⟩ := hlabel.exists_place
  have hafter := drive.drivenTo_place (place_lt hj)
  rw [stringToFloor_of_place hj, movedFloor_floorAtPlace] at hsame
  rw [hsame] at hafter
  exact drive.drivenTo_ne (place_lt hj) (place_unique hafter hj)

/-- A command at its edit in a state in which the car may not be driven. -/
theorem not_drivesWhenReady {state : ControlledCar} (hcarry : CarryDrives state)
    {i : Nat} {pc : InternalPc} (hpc : state.controls[i]? = some pc)
    (hedit : pc.isEdit = true) (hunready : ¬ ReadyToDrive state.car.data) :
    ¬ DrivesWhenReady state (.internal i) := by
  intro hdrives
  cases pc with
  | moveDestination floor =>
      rcases hdrives _ floor hpc rfl with hsame | ⟨hready, -⟩
      · obtain ⟨drive, rfl⟩ := hcarry _ (List.mem_of_getElem? hpc) floor rfl
        rw [(controlStep_internal hpc).1] at hsame
        have hlabel := congrArg CarSharedData.destinationFloor hsame
        exact floorToString_movedFloor_ne _ drive hlabel
      · exact hunready hready
  | _ => cases hedit

/-- A last check that goes through although the car may not be driven. -/
theorem checked_not_drivesWhenReady {state : ControlledCar} {i : Nat} {floor : Int}
    (hcarry : CarryDrives (controlStep state (.internal i)))
    (hpc : state.controls[i]? = some (.checkBetween floor))
    (hbetween : readCarStatus state.car.data ≠ some .Between)
    (hunready : ¬ ReadyToDrive state.car.data) :
    ¬ DrivesWhenReady (controlStep state (.internal i)) (.internal i) := by
  obtain ⟨hdata, hcontrols⟩ := controlStep_internal hpc
  obtain ⟨hlt, -⟩ := List.getElem?_eq_some_iff.mp hpc
  refine @not_drivesWhenReady _ hcarry i (.moveDestination floor) ?_ rfl ?_
  · rw [hcontrols, List.getElem?_set_self hlt]
    simp only [internalStep, if_neg hbetween]
  · rw [hdata]
    exact hunready

/-- Service that is ended with a command at its edit. -/
theorem cleared_not_drivesWhenReady {state : ControlledCar} {i : Nat}
    (hcarry : CarryDrives (controlStep state (.internal i)))
    (hpc : state.controls[i]? = some .clearService) (hatEdit : AtEdit state) :
    ∃ j, ¬ DrivesWhenReady (controlStep state (.internal i)) (.internal j) := by
  obtain ⟨pc, hmem, hedit⟩ := hatEdit
  obtain ⟨j, hj⟩ := List.mem_iff_getElem?.mp hmem
  obtain ⟨hdata, hcontrols⟩ := controlStep_internal hpc
  have hne : i ≠ j := by
    rintro rfl
    rw [Option.some.inj (hj.symm.trans hpc)] at hedit
    cases hedit
  refine ⟨j, @not_drivesWhenReady _ hcarry j pc ?_ hedit ?_⟩
  · rw [hcontrols, List.getElem?_set_ne hne]
    exact hj
  · rw [hdata]
    rintro ⟨hservice, -⟩
    rw [internalStep_individualServiceMode, if_neg (by decide), if_pos rfl] at hservice
    exact absurd hservice (by decide)

/-- Where the condition fails a command can go on to drive a car that may not be
driven. -/
theorem exists_not_drivesWhenReady {state : ControlledCar} {action : ControlAction}
    (hcarry : CarryDrives state) (hnot : ¬ StaysReady state action) :
    ∃ i, ¬ DrivesWhenReady (controlStep state action) (.internal i) := by
  have hafter := hcarry.step state action
  cases action with
  | process | doorcontrol | safety =>
      obtain ⟨hatEdit, hmoved⟩ := Classical.not_imp.mp hnot
      obtain ⟨pc, hmem, hedit⟩ := hatEdit
      obtain ⟨i, hpc⟩ := List.mem_iff_getElem?.mp hmem
      refine ⟨i, not_drivesWhenReady hafter ?_ hedit fun hready => hmoved ?_⟩
      · simpa only [controlStep] using hpc
      · simpa only [controlStep] using hready.2
  | floor label => exact absurd trivial hnot
  | start operation => exact absurd trivial hnot
  | internal i =>
      rcases Decidable.not_and_iff_not_or_not.mp hnot with hchecked | hended
      · obtain ⟨hlast, hrest⟩ := Classical.not_imp.mp hchecked
        obtain ⟨hbetween, hunready⟩ := Classical.not_imp.mp hrest
        cases hpc : state.controls[i]? with
        | none =>
            rw [hpc] at hlast
            cases hlast
        | some pc =>
            rw [hpc] at hlast
            cases pc with
            | checkBetween floor =>
                exact ⟨i, checked_not_drivesWhenReady hafter hpc hbetween hunready⟩
            | _ => cases hlast
      · obtain ⟨hpc, hatEdit⟩ := Classical.not_imp.mp hended
        exact cleared_not_drivesWhenReady hafter hpc (not_not.mp hatEdit)

/-- In every run, from any state of the car, in which the condition is met, a
command to drive moves the destination of a car in service with closed doors
and changes nothing otherwise.  The condition asks for no more than that: with
the first step that does not meet it, the next access of some command is one
that should not be. -/
theorem drives_when_ready (car : CarState) (actions : List ControlAction)
    (hguard : Along controlStep StaysReady ⟨car, []⟩ actions) :
    Along controlStep DrivesWhenReady ⟨car, []⟩ actions ∧
      ∀ action, ¬ StaysReady (run controlStep ⟨car, []⟩ actions) action →
        ∃ i, ¬ Along controlStep DrivesWhenReady ⟨car, []⟩
          (actions ++ [action, .internal i]) := by
  constructor
  · have hstart : EditsReady ⟨car, []⟩ := by
      rintro ⟨pc, hmem, -⟩
      cases hmem
    exact along_of_invariant EditsReady.step
      (fun state action hinv _ => hinv.drivesWhenReady action) hstart hguard
  · intro action hnot
    have hstart : CarryDrives ⟨car, []⟩ := by
      intro pc hmem
      cases hmem
    have hcarry := run_of_invariant CarryDrives CarryDrives.step hstart actions
    obtain ⟨i, hunsafe⟩ := exists_not_drivesWhenReady hcarry hnot
    refine ⟨i, fun halong => ?_⟩
    obtain ⟨-, -, hlast, -⟩ := along_append.mp halong
    exact hunsafe hlast

def servicedCar (status : Status) : CarState :=
  { demoCar with
    data := { servicedSegment (floorToString 1) (floorToString 1) with
      status := statusNames status } }

/-- A command up that has made all its checks. -/
def checkedUp : List ControlAction :=
  [.start "up".toList, .internal 0, .internal 0, .internal 0]

/-- A command up among steps of the process thread and of the monitor. -/
theorem drives_when_ready_at_rest :
    Along controlStep DrivesWhenReady ⟨servicedCar .Closed, []⟩
      (checkedUp ++ [.process, .safety, .internal 0]) :=
  (drives_when_ready (servicedCar .Closed)
    (checkedUp ++ [.process, .safety, .internal 0]) (by decide)).1

/-- A command drives a car whose doors open; and one drives a car whose service
has been ended since the command checked it. -/
theorem drives_with_opening_doors :
    ¬ Along controlStep DrivesWhenReady ⟨servicedCar .Opening, []⟩
        (checkedUp ++ [.internal 0]) ∧
      ¬ Along controlStep DrivesWhenReady ⟨servicedCar .Closed, []⟩
        (checkedUp ++ [.start "service_off".toList, .internal 1, .internal 0]) := by
  constructor
  · rintro ⟨-, -, -, -, hlast, -⟩
    rcases hlast (.moveDestination 1) 1 (by decide) rfl with hsame | ⟨hready, -⟩
    · exact absurd hsame (by decide)
    · exact absurd hready (by decide)
  · rintro ⟨-, -, -, -, -, -, hlast, -⟩
    rcases hlast (.moveDestination 1) 1 (by decide) rfl with hsame | ⟨hready, -⟩
    · exact absurd hsame (by decide)
    · exact absurd hready (by decide)

end Elevator
