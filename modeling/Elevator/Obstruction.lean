/-
Doors that close on an obstruction.  The monitor sends them back by writing the
status and pressing the open button, but `operate_door` goes by a phase of its
own.  It follows only from a phase in which it has still to look at the button.
-/
import Elevator.Car
import Elevator.Safety

namespace Elevator

open CText Transition

/-- The segment, the running calls of `operate_door`, and whether the monitor
has turned `Closing` into `Opening` since the doors were last open. -/
structure Doorway where
  data : CarSharedData
  calls : List DoorFrame
  reopening : Bool
deriving DecidableEq, Repr

/-- A thread calls `operate_door`, the call with number `i` makes its next
access, or the monitor makes a pass. -/
inductive DoorwayAction where
  | call
  | door (i : Nat)
  | pass
deriving DecidableEq, Repr

/-- The pass finds the doors closing and sends them back. -/
def turnsBack (shm : CarSharedData) : Prop :=
  shm.doorObstruction = 1 ∧ shm.status = statusNames .Closing

instance (shm : CarSharedData) : Decidable (turnsBack shm) :=
  inferInstanceAs (Decidable (_ ∧ _))

theorem reopenOnObstruction_of_turnsBack {shm : CarSharedData}
    (hturns : turnsBack shm) :
    reopenOnObstruction shm =
      { shm with status := statusNames .Opening, openButton := 1 } :=
  if_pos hturns

theorem reopenOnObstruction_of_not_turnsBack {shm : CarSharedData}
    (hturns : ¬ turnsBack shm) : reopenOnObstruction shm = shm :=
  if_neg hturns

/-- The wait for the doors to be open is over once they are. -/
def awaitOpen (reopening : Bool) (shm : CarSharedData) : Bool :=
  reopening && shm.status ≠ statusNames .Open

def doorwayStep (state : Doorway) : DoorwayAction → Doorway
  | .call => { state with calls := state.calls ++ [DoorFrame.enter] }
  | .door i =>
      match state.calls[i]? with
      | none => state
      | some frame => {
          data := (operateDoorStep state.data frame).1
          calls :=
            match (operateDoorStep state.data frame).2 with
            | some next => state.calls.set i next
            | none => state.calls.eraseIdx i
          reopening :=
            awaitOpen state.reopening (operateDoorStep state.data frame).1 }
  | .pass =>
      { state with
        data := (safetyPass state.data).1
        reopening := decide (turnsBack state.data) ||
          awaitOpen state.reopening (safetyPass state.data).1 }

/-- Doors that were sent back are not reported closed before they were open. -/
def StaysReopened (state : Doorway) : Prop :=
  state.reopening = true → state.data.status ≠ statusNames .Closed

instance (state : Doorway) : Decidable (StaysReopened state) :=
  inferInstanceAs (Decidable (_ → _))

/-- The status that a call writes next is `Opening` or `Open`. -/
def DoorFrame.opens (frame : DoorFrame) : Prop :=
  frame.currentStatus = .Opening ∨
    frame.currentStatus = .Open ∧
      (frame.pc = .checkStatus ∨ frame.pc = .writeStatus ∨ frame.pc = .report)

instance (frame : DoorFrame) : Decidable frame.opens :=
  inferInstanceAs (Decidable (_ ∨ _ ∧ (_ ∨ _ ∨ _)))

/-- The doors are not open in the call's own phase either, and it looks at the
open button before it could write `Closed`. -/
def DoorFrame.looks (frame : DoorFrame) : Prop :=
  frame.currentStatus = .Closing ∧
      (frame.pc = .checkStatus ∨ frame.pc = .writeStatus ∨ frame.pc = .readOpen) ∨
    frame.currentStatus = .Closed ∧ frame.pc = .readOpen

instance (frame : DoorFrame) : Decidable frame.looks :=
  inferInstanceAs (Decidable (_ ∧ (_ ∨ _ ∨ _) ∨ _ ∧ _))

/-- About to take back a press of the open button. -/
def DoorFrame.releases (frame : DoorFrame) : Prop :=
  frame.pc = .clearReopening ∨ frame.pc = .clearOpening ∨ frame.pc = .clearOpen

instance (frame : DoorFrame) : Decidable frame.releases :=
  inferInstanceAs (Decidable (_ ∨ _ ∨ _))

/-- The monitor turns the doors back only where every call is opening them or
has still to look at the button, and while a call has to, no call takes the
monitor's press of the button back. -/
def Heeded (state : Doorway) : DoorwayAction → Prop
  | .call => True
  | .door i =>
      state.reopening = true → ∀ frame ∈ state.calls[i]?, frame.releases →
        ∀ other ∈ state.calls, ¬ other.looks
  | .pass =>
      turnsBack state.data →
        ∀ frame ∈ state.calls, frame.opens ∨ frame.looks

instance heededDecidable (state : Doorway) :
    (action : DoorwayAction) → Decidable (Heeded state action)
  | .call => isTrue trivial
  | .door _ => inferInstanceAs (Decidable (_ → ∀ _, _))
  | .pass => inferInstanceAs (Decidable (_ → _))

/-- The invariant: until the doors have been open the status is `Opening` or
`Closing`, and no call is past the point where it would turn back. -/
def Reopened (state : Doorway) : Prop :=
  state.reopening = true →
    (state.data.status = statusNames .Opening ∨
        state.data.status = statusNames .Closing) ∧
      ∀ frame ∈ state.calls,
        frame.opens ∨ frame.looks ∧ state.data.openButton = 1

theorem operateDoorStep_openButton (shm : CarSharedData) (frame : DoorFrame) :
    (operateDoorStep shm frame).1.openButton =
      if frame.releases then 0 else shm.openButton := by
  rcases frame with ⟨pc, current, next⟩
  rw [operateDoorStep_data]
  cases pc with
  | report => cases current <;> rfl
  | _ => rfl

/-- A step of a call that opens the doors: they are open after it, or the call
still opens them and the status does not leave `Opening` and `Closing`. -/
theorem DoorFrame.opens.step {shm : CarSharedData} {frame : DoorFrame}
    (hstatus : shm.status = statusNames .Opening ∨
      shm.status = statusNames .Closing) (hopens : frame.opens) :
    (operateDoorStep shm frame).1.status = statusNames .Open ∨
      ((operateDoorStep shm frame).1.status = statusNames .Opening ∨
        (operateDoorStep shm frame).1.status = statusNames .Closing) ∧
      ∃ next, (operateDoorStep shm frame).2 = some next ∧ next.opens := by
  rcases frame with ⟨pc, current, next⟩
  have hread : readCarStatus shm = some .Opening ∨
      readCarStatus shm = some .Closing := by
    unfold readCarStatus
    rcases hstatus with h | h <;> simp [h]
  rcases hopens with h | ⟨h, hpc⟩
  · obtain rfl : current = .Opening := h
    right
    cases pc with
    | checkStatus =>
        rcases hread with h | h <;>
          simp [operateDoorStep, h, DoorFrame.opens, hstatus]
    | readOpen =>
        simp only [operateDoorStep]
        split <;> simp [DoorFrame.opens, hstatus]
    | readClose => simp [operateDoorStep, DoorFrame.opens, hstatus]
    | report =>
        simp [operateDoorStep, DoorFrame.opens, DoorFrame.following,
          editSharedMemory]
    | writeStatus | clearReopening | clearOpening | clearOpen | clearClose
      | undefined =>
        simp [operateDoorStep, DoorFrame.opens, editSharedMemory, hstatus]
  · obtain rfl : current = .Open := h
    rcases hpc with h | h | h
    · obtain rfl : pc = .checkStatus := h
      right
      rcases hread with h | h <;>
        simp [operateDoorStep, h, DoorFrame.opens, hstatus]
    · obtain rfl : pc = .writeStatus := h
      exact Or.inl rfl
    · obtain rfl : pc = .report := h
      exact Or.inl rfl

/-- A step of a call that has still to look at the pressed button: it turns
round, or it has still to look. -/
theorem DoorFrame.looks.step {shm : CarSharedData} {frame : DoorFrame}
    (hstatus : shm.status = statusNames .Opening ∨
      shm.status = statusNames .Closing) (hlooks : frame.looks)
    (hpressed : shm.openButton = 1) :
    ((operateDoorStep shm frame).1.status = statusNames .Opening ∨
        (operateDoorStep shm frame).1.status = statusNames .Closing) ∧
      ∃ next, (operateDoorStep shm frame).2 = some next ∧
        (next.opens ∨ next.looks) := by
  rcases frame with ⟨pc, current, next⟩
  have hread : readCarStatus shm = some .Opening ∨
      readCarStatus shm = some .Closing := by
    unfold readCarStatus
    rcases hstatus with h | h <;> simp [h]
  rcases hlooks with ⟨h, hpc⟩ | ⟨h, hpc⟩
  · obtain rfl : current = .Closing := h
    rcases hpc with h | h | h
    · obtain rfl : pc = .checkStatus := h
      rcases hread with h | h <;>
        simp [operateDoorStep, h, DoorFrame.opens, DoorFrame.looks, hstatus]
    · obtain rfl : pc = .writeStatus := h
      simp [operateDoorStep, DoorFrame.opens, DoorFrame.looks, editSharedMemory]
    · obtain rfl : pc = .readOpen := h
      simp [operateDoorStep, readSharedMemory, hpressed, DoorFrame.opens, hstatus]
  · obtain rfl : current = .Closed := h
    obtain rfl : pc = .readOpen := hpc
    simp [operateDoorStep, readSharedMemory, hpressed, DoorFrame.opens, hstatus]

theorem DoorFrame.looks.not_releases {frame : DoorFrame} (hlooks : frame.looks) :
    ¬ frame.releases := by
  rintro (h | h | h) <;> simp [DoorFrame.looks, h] at hlooks

theorem awaitOpen_eq_true {reopening : Bool} {shm : CarSharedData}
    (hawaits : awaitOpen reopening shm = true) :
    reopening = true ∧ shm.status ≠ statusNames .Open := by
  simpa [awaitOpen] using hawaits

theorem Reopened.door {state : Doorway} (hinv : Reopened state) (i : Nat)
    (hguard : Heeded state (.door i)) :
    Reopened (doorwayStep state (.door i)) := by
  cases hframe : state.calls[i]? with
  | none =>
      simp only [doorwayStep, hframe]
      exact hinv
  | some frame =>
      simp only [doorwayStep, hframe]
      intro hawaits
      obtain ⟨hreopening, hshut⟩ := awaitOpen_eq_true hawaits
      obtain ⟨hstatus, hcalls⟩ := hinv hreopening
      have hbutton := operateDoorStep_openButton state.data frame
      -- the button stays pressed for the calls that have still to look at it
      have hothers : ∀ other ∈ state.calls, other.opens ∨ other.looks ∧
          (operateDoorStep state.data frame).1.openButton = 1 := by
        intro other hother
        rcases hcalls other hother with h | ⟨hlooks, hpressed⟩
        · exact Or.inl h
        · refine Or.inr ⟨hlooks, ?_⟩
          rw [hbutton, if_neg, hpressed]
          intro hreleases
          exact hguard hreopening frame hframe hreleases other hother hlooks
      have hstepped :
          ((operateDoorStep state.data frame).1.status = statusNames .Opening ∨
            (operateDoorStep state.data frame).1.status = statusNames .Closing) ∧
          ∃ next, (operateDoorStep state.data frame).2 = some next ∧
            (next.opens ∨ next.looks ∧
              (operateDoorStep state.data frame).1.openButton = 1) := by
        rcases hcalls frame (List.mem_of_getElem? hframe) with h | ⟨h, hpressed⟩
        · obtain ⟨hstatus, next, hnext, hopens⟩ := (h.step hstatus).resolve_left hshut
          exact ⟨hstatus, next, hnext, Or.inl hopens⟩
        · obtain ⟨hstatus, next, hnext, hturns⟩ := h.step hstatus hpressed
          rw [if_neg h.not_releases, hpressed] at hbutton
          exact ⟨hstatus, next, hnext, hturns.imp_right fun h => ⟨h, hbutton⟩⟩
      obtain ⟨hstatus', next, hnext, hturns⟩ := hstepped
      simp only [hnext]
      refine ⟨hstatus', fun other hother => ?_⟩
      rcases List.mem_or_eq_of_mem_set hother with hold | rfl
      · exact hothers other hold
      · exact hturns

theorem Reopened.pass {state : Doorway} (hinv : Reopened state)
    (hguard : Heeded state .pass) : Reopened (doorwayStep state .pass) := by
  simp only [Reopened, doorwayStep]
  intro hawaits
  by_cases hturns : turnsBack state.data
  · have hdata : (safetyPass state.data).1.status = statusNames .Opening ∧
        (safetyPass state.data).1.openButton = 1 := by
      rw [safetyPass_data, reopenOnObstruction_of_turnsBack hturns]
      exact ⟨rfl, rfl⟩
    refine ⟨Or.inl hdata.1, fun frame hframe => ?_⟩
    exact (hguard hturns frame hframe).imp_right fun h => ⟨h, hdata.2⟩
  · have hdata : (safetyPass state.data).1.status = state.data.status ∧
        (safetyPass state.data).1.openButton = state.data.openButton := by
      rw [safetyPass_data, reopenOnObstruction_of_not_turnsBack hturns]
      exact ⟨rfl, rfl⟩
    have hreopening : state.reopening = true := by
      simp only [hturns, decide_false, Bool.false_or] at hawaits
      exact (awaitOpen_eq_true hawaits).1
    rw [hdata.1, hdata.2]
    exact hinv hreopening

theorem Reopened.step (state : Doorway) (action : DoorwayAction)
    (hinv : Reopened state) (hguard : Heeded state action) :
    Reopened (doorwayStep state action) := by
  cases action with
  | call =>
      intro hreopening
      obtain ⟨hstatus, hcalls⟩ := hinv hreopening
      refine ⟨hstatus, fun frame hframe => ?_⟩
      rcases List.mem_append.mp hframe with hold | hnew
      · exact hcalls frame hold
      · rw [List.mem_singleton.mp hnew]
        exact Or.inl (Or.inl rfl)
  | door i => exact hinv.door i hguard
  | pass => exact hinv.pass hguard

/-- In every run, from any segment and any calls under way, in which the calls
heed the monitor, doors that were sent back are not reported closed before they
have been open. -/
theorem staysReopened_of_heeded (shm : CarSharedData) (calls : List DoorFrame)
    (actions : List DoorwayAction)
    (hguard : Along doorwayStep Heeded ⟨shm, calls, false⟩ actions) :
    Always doorwayStep StaysReopened ⟨shm, calls, false⟩ actions := by
  have hstart : Reopened ⟨shm, calls, false⟩ := fun h => Bool.noConfusion h
  apply always_of_invariant Reopened.step _ hstart hguard
  intro state hinv hreopening
  obtain ⟨hstatus | hstatus, -⟩ := hinv hreopening
  · rw [hstatus]
    decide
  · rw [hstatus]
    decide

/-- A car at rest in whose doorway something stands. -/
def obstructedSegment : CarSharedData :=
  { initSharedData (floorToString 1) with doorObstruction := 1 }

/-- One call of `operate_door` until it has come to look at the open button
with its doors closing, the pass, and the call up to the open doors. -/
theorem staysReopened_in_time :
    Always doorwayStep StaysReopened ⟨obstructedSegment, [], false⟩
      ([.call] ++ List.replicate 12 (.door 0) ++ [.pass] ++
        List.replicate 7 (.door 0)) :=
  staysReopened_of_heeded _ _ _ (by decide)

/-- Three accesses later the call has reported `Closing` and gone on to its next
phase.  The pass turns the status back, and the call imposes `Closed` on it. -/
theorem closed_on_obstruction :
    (run doorwayStep ⟨obstructedSegment, [], false⟩
        ([.call] ++ List.replicate 15 (.door 0) ++ [.pass])).data.status =
          statusNames .Opening ∧
      ¬ Always doorwayStep StaysReopened ⟨obstructedSegment, [], false⟩
        ([.call] ++ List.replicate 15 (.door 0) ++ [.pass] ++
          List.replicate 2 (.door 0)) := by
  refine ⟨by decide, fun halways => ?_⟩
  exact absurd halways.final (by decide)

end Elevator
