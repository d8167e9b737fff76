/-
A call of `operate_door` among other processes that press the buttons.  The
phases it shows follow one another as the doors can move, and it returns once
nobody presses the buttons any more.
-/
import Elevator.DoorCycle
import Mathlib.Data.List.Chain

namespace Elevator

open CText Transition

/-- The call, with the values it has written to the status so far. -/
structure DoorRun where
  data : CarSharedData
  frame : Option DoorFrame
  written : List Status
deriving DecidableEq, Repr

/-- `operate_door` makes its next access, or another process presses a
button. -/
inductive DoorAction where
  | door
  | pressOpen
  | pressClose
deriving DecidableEq, Repr

/-- What the next access writes to the status, if it does. -/
def DoorFrame.writes (frame : DoorFrame) : Option Status :=
  match frame.pc with
  | .writeStatus => some frame.currentStatus
  | .report =>
      if frame.currentStatus = .Between then none else some frame.currentStatus
  | _ => none

def doorRunStep (state : DoorRun) : DoorAction → DoorRun
  | .door =>
      match state.frame with
      | none => state
      | some frame => {
          data := (operateDoorStep state.data frame).1
          frame := (operateDoorStep state.data frame).2
          written := state.written ++ frame.writes.toList }
  | .pressOpen =>
      { state with data := (editSharedMemory state.data .setOpen 0 .Opening).1 }
  | .pressClose =>
      { state with data := (editSharedMemory state.data .setClose 0 .Opening).1 }

def callDoors (shm : CarSharedData) : DoorRun :=
  ⟨shm, some .enter, []⟩

def doorsAfter (shm : CarSharedData) (schedule : Nat → DoorAction) (n : Nat) :
    DoorRun :=
  run doorRunStep (callDoors shm) ((List.range n).map schedule)

def PressesEnd (schedule : Nat → DoorAction) : Prop :=
  ∃ last, ∀ n, last ≤ n → schedule n = .door

/-- A value that repeats the one before it does not show. -/
def showNext (shown : List Status) (status : Status) : List Status :=
  if shown.getLast? = some status then shown else shown ++ [status]

def successive (written : List Status) : List Status :=
  written.foldl showNext []

/-- How doors move: `Closing` and `Closed` can turn back to `Opening`. -/
def Follows : Status → Status → Prop
  | .Opening, .Open | .Open, .Closing | .Closing, .Closed
  | .Closing, .Opening | .Closed, .Opening => True
  | _, _ => False

instance : DecidableRel Follows := fun first second => by
  cases first <;> cases second <;> unfold Follows <;> infer_instance

/-- The values begin with `Opening` and follow one another as doors move. -/
def WellFormedCycle (shown : List Status) : Prop :=
  (∀ first ∈ shown.head?, first = .Opening) ∧ shown.IsChain Follows

/-- What may be written when `last` is shown. -/
def CanShow (last : Option Status) (status : Status) : Prop :=
  match last with
  | none => status = .Opening
  | some last => last = status ∨ Follows last status

theorem successive_append (written : List Status) (status : Option Status) :
    successive (written ++ status.toList) =
      status.elim (successive written) (showNext (successive written)) := by
  cases status with
  | none => simp
  | some status => simp [successive]

@[simp] theorem getLast?_showNext (shown : List Status) (status : Status) :
    (showNext shown status).getLast? = some status := by
  unfold showNext
  split
  case isTrue hlast => exact hlast
  case isFalse => exact List.getLast?_concat

theorem WellFormedCycle.showNext {shown : List Status} {status : Status}
    (hshown : WellFormedCycle shown) (hcan : CanShow shown.getLast? status) :
    WellFormedCycle (showNext shown status) := by
  obtain ⟨hfirst, hchain⟩ := hshown
  unfold Elevator.showNext
  split
  case isTrue => exact ⟨hfirst, hchain⟩
  case isFalse hlast =>
    constructor
    · intro first hmem
      cases shown with
      | nil =>
          obtain rfl : status = first := by simpa using hmem
          exact hcan
      | cons head rest => exact hfirst first (by simpa using hmem)
    · apply List.isChain_append.mpr
      refine ⟨hchain, List.isChain_singleton status, ?_⟩
      intro last hmem next hnext
      obtain rfl : status = next := by simpa using hnext
      rw [Option.mem_def.mp hmem] at hcan hlast
      rcases hcan with rfl | hfollows
      · exact absurd rfl hlast
      · exact hfollows

/-- Apart from its own writes, `operate_door` leaves the status as it is. -/
theorem operateDoorStep_status (shm : CarSharedData) (frame : DoorFrame) :
    (operateDoorStep shm frame).1.status =
      match frame.writes with
      | some status => statusNames status
      | none => shm.status := by
  rw [operateDoorStep_data, DoorFrame.writes]
  cases frame.pc with
  | report => by_cases hbetween : frame.currentStatus = .Between <;> simp [hbetween]
  | _ => rfl

/-- Where a call can stand when `last` is the last value it has written. -/
structure Cycling (frame : DoorFrame) (last : Option Status) : Prop where
  moving : frame.currentStatus ≠ .Between
  defined : frame.pc ≠ .undefined
  canShow : CanShow last frame.currentStatus
  shown : frame.pc = .readOpen →
    last = some frame.currentStatus ∨ last = none ∧ frame.currentStatus = .Opening
  stillOpen : frame.pc ∈ [.clearReopening, .clearOpening, .clearOpen, .readClose] →
    frame.currentStatus = .Open → last = some .Open

theorem cycling_enter : Cycling .enter none := by
  constructor <;> simp [DoorFrame.enter, CanShow]

/-- The status shows the last value written, or else one of the five. -/
def ShowsLast (shm : CarSharedData) (last : Option Status) : Prop :=
  match last with
  | none => ∃ status, shm.status = statusNames status
  | some last => shm.status = statusNames last

theorem ShowsLast.exists_status {shm : CarSharedData} {last : Option Status}
    (hshows : ShowsLast shm last) : ∃ status, shm.status = statusNames status := by
  cases last with
  | none => exact hshows
  | some last => exact ⟨last, hshows⟩

theorem operateDoorStep_checkStatus {shm : CarSharedData} {status : Status}
    (hstatus : shm.status = statusNames status) (current next : Status) :
    operateDoorStep shm ⟨.checkStatus, current, next⟩ =
      (shm, some ⟨if status = current then .readOpen else .writeStatus,
        current, next⟩) := by
  by_cases heq : status = current <;>
    simp [operateDoorStep, readCarStatus, hstatus, heq]

/-- One access: it goes on with what it may show next, or it has just written
`Closed`. -/
theorem Cycling.step {shm : CarSharedData} {frame : DoorFrame}
    {last : Option Status} (hcycling : Cycling frame last)
    (hshows : ShowsLast shm last) :
    (∀ status ∈ frame.writes, CanShow last status) ∧
      match (operateDoorStep shm frame).2 with
      | some next => Cycling next (frame.writes.or last)
      | none => frame.writes = some .Closed := by
  obtain ⟨hmoving, hdefined, hcan, hshown, hopen⟩ := hcycling
  obtain ⟨pc, current, next⟩ := frame
  cases pc with
  | checkStatus =>
      refine ⟨by simp [DoorFrame.writes], ?_⟩
      obtain ⟨status, hstatus, hlast⟩ : ∃ status,
          shm.status = statusNames status ∧
            (status = current → last = some current ∨
              last = none ∧ current = .Opening) := by
        cases last with
        | none =>
            obtain ⟨status, hstatus⟩ := hshows
            exact ⟨status, hstatus, fun _ => Or.inr ⟨rfl, hcan⟩⟩
        | some last =>
            exact ⟨last, hshows, fun heq => Or.inl (congrArg some heq)⟩
      rw [operateDoorStep_checkStatus hstatus]
      by_cases heq : status = current
      · rw [if_pos heq]
        constructor <;> simp_all [DoorFrame.writes]
      · rw [if_neg heq]
        constructor <;> simp_all [DoorFrame.writes]
  | writeStatus =>
      refine ⟨by simpa [DoorFrame.writes] using hcan, ?_⟩
      constructor <;> simp_all [DoorFrame.writes, CanShow]
  | readOpen =>
      refine ⟨by simp [DoorFrame.writes], ?_⟩
      have hlast := hshown rfl
      by_cases hpressed : readSharedMemory shm .getOpen
      · cases current <;> simp only [operateDoorStep, hpressed, if_true] <;>
          constructor <;> simp_all [DoorFrame.writes, CanShow, Follows]
      · simp only [operateDoorStep, hpressed]
        rcases hlast with rfl | ⟨rfl, rfl⟩ <;> constructor <;>
          simp_all [DoorFrame.writes]
  | readClose =>
      refine ⟨by simp [DoorFrame.writes], ?_⟩
      by_cases hclose : readSharedMemory shm .getClose ∧ current = .Open
      · have hlast := hopen (by simp) hclose.2
        simp only [operateDoorStep, hclose, and_self, if_true]
        constructor <;> simp [DoorFrame.writes, hlast, CanShow, Follows]
      · simp only [operateDoorStep, hclose, if_false]
        constructor <;> simp_all [DoorFrame.writes]
  | report =>
      refine ⟨by simp_all [DoorFrame.writes], ?_⟩
      cases current with
      | Closed => rfl
      | Between => exact absurd rfl hmoving
      | Opening | Open | Closing =>
          constructor <;> simp [DoorFrame.writes, DoorFrame.following, CanShow,
            Follows]
  | clearReopening | clearOpening | clearOpen | clearClose =>
      refine ⟨by simp [DoorFrame.writes], ?_⟩
      constructor <;> simp_all [DoorFrame.writes]
  | undefined => exact absurd rfl hdefined

/-- What holds of a call at any moment of any schedule. -/
structure DoorRun.Sound (state : DoorRun) : Prop where
  cycle : WellFormedCycle (successive state.written)
  shows : ShowsLast state.data (successive state.written).getLast?
  stands : match state.frame with
    | some frame => Cycling frame (successive state.written).getLast?
    | none => (successive state.written).getLast? = some .Closed

theorem sound_callDoors {shm : CarSharedData}
    (hstatus : ∃ status, shm.status = statusNames status) :
    (callDoors shm).Sound := by
  refine ⟨⟨?_, List.isChain_nil⟩, hstatus, cycling_enter⟩
  intro first hfirst
  cases hfirst

/-- What is shown last after an access. -/
theorem getLast?_successive_append (written : List Status)
    (status : Option Status) :
    (successive (written ++ status.toList)).getLast? =
      status.or (successive written).getLast? := by
  rw [successive_append]
  cases status with
  | none => rfl
  | some status => exact getLast?_showNext _ status

theorem DoorRun.Sound.step {state : DoorRun} (hsound : state.Sound)
    (action : DoorAction) : (doorRunStep state action).Sound := by
  obtain ⟨data, frame, written⟩ := state
  obtain ⟨hcycle, hshows, hstands⟩ := hsound
  cases action with
  | pressOpen | pressClose => exact ⟨hcycle, hshows, hstands⟩
  | door =>
      cases frame with
      | none => exact ⟨hcycle, hshows, hstands⟩
      | some frame =>
          obtain ⟨hcan, hnext⟩ := Cycling.step hstands hshows
          constructor
          · simp only [doorRunStep]
            rw [successive_append]
            cases hwrites : frame.writes with
            | none => exact hcycle
            | some status => exact hcycle.showNext (hcan status hwrites)
          · simp only [doorRunStep]
            rw [getLast?_successive_append]
            have hstatus := operateDoorStep_status data frame
            cases hwrites : frame.writes with
            | none =>
                rw [hwrites] at hstatus
                simp only [Option.none_or]
                cases hlast : (successive written).getLast? with
                | none =>
                    rw [hlast] at hshows
                    obtain ⟨status, heq⟩ := hshows
                    exact ⟨status, hstatus.trans heq⟩
                | some last =>
                    rw [hlast] at hshows
                    exact hstatus.trans hshows
            | some status =>
                rw [hwrites] at hstatus
                exact hstatus
          · simp only [doorRunStep]
            rw [getLast?_successive_append]
            cases hafter : (operateDoorStep data frame).2 with
            | none =>
                rw [hafter] at hnext
                rw [show frame.writes = some .Closed from hnext]
                rfl
            | some next =>
                rw [hafter] at hnext
                exact hnext

theorem sound_doorsAfter {shm : CarSharedData}
    (hstatus : ∃ status, shm.status = statusNames status)
    (schedule : Nat → DoorAction) (n : Nat) :
    (doorsAfter shm schedule n).Sound :=
  run_of_invariant DoorRun.Sound (fun _ action hsound => hsound.step action)
    (sound_callDoors hstatus) _

/-- The open button has been pressed and not been seen yet. -/
def DoorFrame.seesPress (frame : DoorFrame) (shm : CarSharedData) : Prop :=
  shm.openButton = 1 ∧
    frame.pc ∉ [.clearReopening, .clearOpening, .clearOpen]

instance (frame : DoorFrame) (shm : CarSharedData) :
    Decidable (frame.seesPress shm) :=
  inferInstanceAs (Decidable (_ ∧ _))

/-- A bound on the accesses that are left, as far as the buttons go now: the
phases still to come, the rest of this one, and a return to `Opening` for a
press that has not been seen. -/
def DoorFrame.accessesLeft (frame : DoorFrame) (shm : CarSharedData) : Nat :=
  (match frame.currentStatus with
    | .Opening => 30
    | .Open => 20
    | .Closing => 10
    | _ => 0) +
  (match frame.pc with
    | .checkStatus => 9
    | .writeStatus => 8
    | .readOpen => 7
    | .clearReopening => 6
    | .clearOpening | .clearOpen => 5
    | .readClose => 4
    | .clearClose => 3
    | .report => 2
    | .undefined => 1) +
  if frame.seesPress shm then 30 else 0

def DoorRun.accessesLeft (state : DoorRun) : Nat :=
  match state.frame with
  | none => 0
  | some frame => frame.accessesLeft state.data

/-- Every access brings the end nearer. -/
theorem accessesLeft_door {state : DoorRun} (hsound : state.Sound)
    (hrunning : state.frame ≠ none) :
    (doorRunStep state .door).accessesLeft < state.accessesLeft := by
  obtain ⟨data, frame, written⟩ := state
  cases frame with
  | none => exact absurd rfl hrunning
  | some frame =>
      obtain ⟨hmoving, hdefined, -, -, -⟩ := hsound.stands
      obtain ⟨status, hstatus⟩ := hsound.shows.exists_status
      obtain ⟨pc, current, next⟩ := frame
      simp only [doorRunStep, DoorRun.accessesLeft]
      cases pc with
      | checkStatus =>
          rw [operateDoorStep_checkStatus hstatus]
          by_cases heq : status = current <;>
            simp [heq, DoorFrame.accessesLeft, DoorFrame.seesPress]
      | readOpen =>
          by_cases hpressed : data.openButton = 1 <;> cases current <;>
            simp_all [operateDoorStep, readSharedMemory, DoorFrame.accessesLeft,
              DoorFrame.seesPress]
      | readClose =>
          by_cases hclose : readSharedMemory data .getClose ∧ current = .Open
          · obtain ⟨hpressed, rfl⟩ := hclose
            simp [operateDoorStep, hpressed, DoorFrame.accessesLeft,
              DoorFrame.seesPress]
          · simp [operateDoorStep, hclose, DoorFrame.accessesLeft,
              DoorFrame.seesPress]
      | report =>
          cases current with
          | Between => exact absurd rfl hmoving
          | Closed =>
              have hended : (operateDoorStep data ⟨.report, .Closed, next⟩).2 =
                  none := rfl
              simp only [hended, DoorFrame.accessesLeft]
              omega
          | Opening | Open | Closing =>
              simp [operateDoorStep, DoorFrame.following,
                DoorFrame.accessesLeft, DoorFrame.seesPress]
      | writeStatus | clearReopening | clearOpening | clearOpen | clearClose =>
          simp [operateDoorStep, DoorFrame.accessesLeft, DoorFrame.seesPress,
            editSharedMemory]
      | undefined => exact absurd rfl hdefined

theorem doorRunStep_ended {state : DoorRun} (hended : state.frame = none)
    (action : DoorAction) :
    (doorRunStep state action).frame = none ∧
      (doorRunStep state action).written = state.written := by
  obtain ⟨data, frame, written⟩ := state
  obtain rfl : frame = none := hended
  cases action <;> exact ⟨rfl, rfl⟩

theorem doorsAfter_succ (shm : CarSharedData) (schedule : Nat → DoorAction)
    (n : Nat) :
    doorsAfter shm schedule (n + 1) =
      doorRunStep (doorsAfter shm schedule n) (schedule n) := by
  rw [doorsAfter, List.range_succ, List.map_append, run_append]
  rfl

/-- Once the presses have ended, only `operate_door` acts. -/
theorem doorsAfter_add {schedule : Nat → DoorAction} {last : Nat}
    (hlast : ∀ n, last ≤ n → schedule n = .door) (shm : CarSharedData)
    (n : Nat) :
    doorsAfter shm schedule (last + n) =
      run doorRunStep (doorsAfter shm schedule last)
        (List.replicate n .door) := by
  induction n with
  | zero => rfl
  | succ n ih =>
      rw [← Nat.add_assoc, doorsAfter_succ, ih,
        hlast (last + n) (Nat.le_add_right last n), List.replicate_succ',
        run_append]
      rfl

theorem ended_of_le {shm : CarSharedData} {schedule : Nat → DoorAction}
    {n m : Nat} (hended : (doorsAfter shm schedule n).frame = none)
    (hle : n ≤ m) :
    (doorsAfter shm schedule m).frame = none ∧
      (doorsAfter shm schedule m).written =
        (doorsAfter shm schedule n).written := by
  induction hle with
  | refl => exact ⟨hended, rfl⟩
  | @step m _ ih =>
      obtain ⟨hframe, hwritten⟩ := doorRunStep_ended ih.1 (schedule m)
      rw [doorsAfter_succ]
      exact ⟨hframe, hwritten.trans ih.2⟩

theorem doorsAfter_ends {shm : CarSharedData}
    (hstatus : ∃ status, shm.status = statusNames status)
    {schedule : Nat → DoorAction} (hpresses : PressesEnd schedule) :
    ∃ n, (doorsAfter shm schedule n).frame = none := by
  obtain ⟨last, hlast⟩ := hpresses
  obtain ⟨n, hn⟩ := @reaches_of_rank _ _ doorRunStep DoorRun.Sound
    (fun state => state.frame = none) .door DoorRun.accessesLeft
    (fun _ hsound _ => hsound.step .door)
    (fun _ hsound hrunning => accessesLeft_door hsound hrunning)
    _ (sound_doorsAfter hstatus schedule last)
  refine ⟨last + n, ?_⟩
  rw [doorsAfter_add hlast]
  exact hn

/-- A call that nobody disturbs, in the middle of its cycle: a button that was
pressed before it began counts in the first phase only. -/
structure Calm (frame : DoorFrame) (shm : CarSharedData)
    (shown : List Status) : Prop where
  progress : shown = frame.currentStatus.shownBefore ∨
    frame.pc ∉ [.checkStatus, .writeStatus] ∧
      shown = frame.currentStatus.shownBefore ++ [frame.currentStatus]
  unpressed : shm.openButton = 1 → frame.currentStatus = .Opening ∧
    frame.pc ∈ [.checkStatus, .writeStatus, .readOpen, .clearOpening]
  onward : frame.pc ∉ [.clearReopening, .clearOpen]

theorem calm_enter (shm : CarSharedData) : Calm .enter shm [] := by
  constructor <;> simp [DoorFrame.enter, Status.shownBefore]

/-- A phase is shown once, whether or not it was before the `switch`. -/
theorem showNext_phase {phase : Status} (hphase : phase ≠ .Between)
    {shown : List Status}
    (hshown : shown = phase.shownBefore ∨
      shown = phase.shownBefore ++ [phase]) :
    showNext shown phase = phase.shownBefore ++ [phase] := by
  rcases hshown with rfl | rfl
  · cases phase <;> first | exact absurd rfl hphase | decide
  · rw [showNext, if_pos List.getLast?_concat]

/-- Past the point where a press that came before it is cleared, none stands. -/
theorem Calm.released {shm : CarSharedData} {frame : DoorFrame}
    {shown : List Status} (hcalm : Calm frame shm shown)
    (hpc : frame.pc ∉ [.checkStatus, .writeStatus, .readOpen, .clearOpening]) :
    shm.openButton ≠ 1 :=
  fun hpressed => hpc (hcalm.unpressed hpressed).2

theorem Calm.step {shm : CarSharedData} {frame : DoorFrame}
    {shown : List Status} (hcalm : Calm frame shm shown)
    (hcycling : Cycling frame shown.getLast?)
    (hshows : ShowsLast shm shown.getLast?) :
    match (operateDoorStep shm frame).2 with
    | some next => Calm next (operateDoorStep shm frame).1
        (frame.writes.elim shown (showNext shown))
    | none => frame.writes.elim shown (showNext shown) = doorPhases := by
  obtain ⟨pc, current, next⟩ := frame
  have hprogress := hcalm.progress
  have hunpressed := hcalm.unpressed
  have honward := hcalm.onward
  cases pc with
  | checkStatus =>
      obtain ⟨status, hstatus⟩ := hshows.exists_status
      rw [operateDoorStep_checkStatus hstatus]
      by_cases heq : status = current
      · rw [if_pos heq]
        constructor <;> simp_all [DoorFrame.writes]
      · rw [if_neg heq]
        constructor <;> simp_all [DoorFrame.writes]
  | writeStatus =>
      have hshown := showNext_phase hcycling.moving
        (hprogress.imp_right And.right)
      constructor
      · exact Or.inr ⟨by simp, hshown⟩
      · intro hpressed
        exact ⟨(hunpressed hpressed).1, by simp⟩
      · simp
  | readOpen =>
      by_cases hpressed : shm.openButton = 1
      · obtain ⟨rfl, -⟩ := hunpressed hpressed
        simp only [operateDoorStep, readSharedMemory, hpressed, decide_true,
          if_true]
        constructor <;> simp_all [DoorFrame.writes]
      · simp only [operateDoorStep, readSharedMemory, hpressed, decide_false]
        constructor <;> simp_all [DoorFrame.writes]
  | clearOpening =>
      constructor <;> simp_all [operateDoorStep, DoorFrame.writes,
        editSharedMemory]
  | readClose =>
      have hreleased := hcalm.released (by simp)
      by_cases hclose : readSharedMemory shm .getClose ∧ current = .Open
      · obtain ⟨hpressed, rfl⟩ := hclose
        have hlast := hcycling.stillOpen (by simp) rfl
        have hshown : shown = [.Opening, .Open] := by
          rcases hprogress with rfl | ⟨-, rfl⟩
          · exact absurd (show some Status.Opening = some .Open from hlast)
              (by decide)
          · rfl
        simp only [operateDoorStep, hpressed, and_self, if_true]
        constructor <;>
          simp [DoorFrame.writes, hshown, Status.shownBefore, hreleased]
      · simp only [operateDoorStep, hclose, if_false]
        constructor <;> simp_all [DoorFrame.writes]
  | clearClose =>
      have hreleased := hcalm.released (by simp)
      constructor <;> simp_all [operateDoorStep, DoorFrame.writes,
        editSharedMemory]
  | report =>
      have hreleased := hcalm.released (by simp)
      have hshown := showNext_phase hcycling.moving
        (hprogress.imp_right And.right)
      cases current with
      | Between => exact absurd rfl hcycling.moving
      | Closed => exact hshown
      | Opening | Open | Closing =>
          constructor
          · exact Or.inl hshown
          · intro hpressed
            exact absurd hpressed hreleased
          · simp
  | clearReopening | clearOpen => exact absurd honward (by simp)
  | undefined => exact absurd rfl hcycling.defined

/-- What holds of an undisturbed call at any moment. -/
def DoorRun.Undisturbed (state : DoorRun) : Prop :=
  state.Sound ∧
    match state.frame with
    | some frame => Calm frame state.data (successive state.written)
    | none => successive state.written = doorPhases

theorem DoorRun.Undisturbed.step {state : DoorRun} (hcalm : state.Undisturbed) :
    (doorRunStep state .door).Undisturbed := by
  obtain ⟨hsound, hframe⟩ := hcalm
  refine ⟨hsound.step .door, ?_⟩
  obtain ⟨data, frame, written⟩ := state
  cases frame with
  | none => exact hframe
  | some frame =>
      have hnext := hframe.step hsound.stands hsound.shows
      simp only [doorRunStep, successive_append]
      exact hnext

theorem undisturbed_doorsAfter {shm : CarSharedData}
    (hstatus : ∃ status, shm.status = statusNames status) (n : Nat) :
    (doorsAfter shm (fun _ => .door) n).Undisturbed := by
  induction n with
  | zero => exact ⟨sound_callDoors hstatus, calm_enter shm⟩
  | succ n ih =>
      rw [doorsAfter_succ]
      exact ih.step

/-- A door cycle that starts from any of the five statuses ends with `Closed`
once nobody presses a button any more, its phases follow one another as doors
move, and without a press they are the four of one cycle. -/
theorem door_cycle_ends {shm : CarSharedData}
    (hstatus : ∃ status, shm.status = statusNames status) :
    (∀ schedule, PressesEnd schedule → ∃ n, ∀ m, n ≤ m →
        (doorsAfter shm schedule m).frame = none ∧
          (doorsAfter shm schedule m).data.status = statusNames .Closed) ∧
      (∀ schedule n,
        WellFormedCycle (successive (doorsAfter shm schedule n).written)) ∧
      ∃ n, ∀ m, n ≤ m →
        (doorsAfter shm (fun _ => .door) m).frame = none ∧
          successive (doorsAfter shm (fun _ => .door) m).written =
            [.Opening, .Open, .Closing, .Closed] := by
  refine ⟨fun schedule hpresses => ?_, fun schedule n => ?_, ?_⟩
  · obtain ⟨n, hended⟩ := doorsAfter_ends hstatus hpresses
    refine ⟨n, fun m hle => ?_⟩
    obtain ⟨hframe, -⟩ := ended_of_le hended hle
    have hsound := sound_doorsAfter hstatus schedule m
    have hshows := hsound.shows
    have hstands := hsound.stands
    rw [hframe] at hstands
    rw [hstands] at hshows
    exact ⟨hframe, hshows⟩
  · exact (sound_doorsAfter hstatus schedule n).cycle
  · obtain ⟨n, hended⟩ := doorsAfter_ends hstatus
      (show PressesEnd fun _ => .door from ⟨0, fun _ _ => rfl⟩)
    refine ⟨n, fun m hle => ?_⟩
    obtain ⟨hframe, -⟩ := ended_of_le hended hle
    obtain ⟨-, hcalm⟩ := undisturbed_doorsAfter hstatus m
    rw [hframe] at hcalm
    exact ⟨hframe, hcalm⟩

/-- A car at rest on floor 1. -/
theorem door_cycle_ends_at_rest :
    ∃ n, ∀ m, n ≤ m →
      (doorsAfter demoCar.data (fun _ => .door) m).frame = none ∧
        successive (doorsAfter demoCar.data (fun _ => .door) m).written =
          [.Opening, .Open, .Closing, .Closed] :=
  (door_cycle_ends ⟨.Closed, rfl⟩).2.2

end Elevator
