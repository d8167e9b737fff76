/-
Wake-ups of the safety monitor.  `pthread_cond_wait` may return at any time and
any number of times; a pass that finds what a pass has left behind changes
nothing.
-/
import Elevator.Safety
import Elevator.Transition

namespace Elevator

open CText Transition

/-- What a pass does to the status and the open button: both together, and only
where doors close on an obstruction. -/
theorem reopenOnObstruction_cases (shm : CarSharedData) :
    reopenOnObstruction shm = shm ∨
      shm.doorObstruction = 1 ∧ shm.status = statusNames .Closing ∧
        reopenOnObstruction shm =
          { shm with status := statusNames .Opening, openButton := 1 } := by
  by_cases hcloses : shm.doorObstruction = 1 ∧ shm.status = statusNames .Closing
  · exact Or.inr ⟨hcloses.1, hcloses.2, if_pos hcloses⟩
  · exact Or.inl (if_neg hcloses)

/-- Doors that have been sent back are not closing any more. -/
theorem reopenOnObstruction_idempotent (shm : CarSharedData) :
    reopenOnObstruction (reopenOnObstruction shm) = reopenOnObstruction shm := by
  rcases reopenOnObstruction_cases shm with hsame | ⟨_, _, hsent⟩
  · rw [hsame, hsame]
  · rw [hsent]
    apply if_neg
    rintro ⟨_, hstatus⟩
    exact absurd (show statusNames .Opening = statusNames .Closing from hstatus)
      (by decide)

/-- The mode is no concern of the obstruction guard. -/
theorem reopenOnObstruction_with_mode (shm : CarSharedData) (mode : UInt8) :
    reopenOnObstruction { shm with emergencyMode := mode } =
      { reopenOnObstruction shm with emergencyMode := mode } := by
  simp only [reopenOnObstruction]
  split <;> rfl

/-- In emergency mode nothing raises it again. -/
theorem raisesEmergency_of_mode {shm : CarSharedData}
    (hmode : shm.emergencyMode = 1) : raisesEmergency shm = false := by
  rw [raisesEmergency, hmode]
  simp

theorem safetyPass_idempotent (shm : CarSharedData) :
    (safetyPass (safetyPass shm).1).1 = (safetyPass shm).1 := by
  have hagain : reopenOnObstruction (safetyPass shm).1 = (safetyPass shm).1 := by
    rw [safetyPass_data, reopenOnObstruction_with_mode,
      reopenOnObstruction_idempotent]
  rw [safetyPass_data (safetyPass shm).1, hagain]
  cases hraised : raisesEmergency (reopenOnObstruction shm) with
  | true =>
      have hmode : (safetyPass shm).1.emergencyMode = 1 := by
        rw [safetyPass_emergencyMode, if_pos hraised]
      rw [raisesEmergency_of_mode hmode, if_neg Bool.false_ne_true]
  | false =>
      have hpass : (safetyPass shm).1 = reopenOnObstruction shm := by
        rw [safetyPass_data, if_neg (by rw [hraised]; decide)]
      rw [hpass, hraised, if_neg Bool.false_ne_true]

theorem repeats_replicate {L : Type} (label : L) (n : Nat) :
    Repeats (fun _ _ => True) [label] (List.replicate (n + 1) label) := by
  induction n with
  | zero => exact .next label .nil
  | succ n ih => exact .repeated trivial ih

def wake (shm : CarSharedData) (_ : Unit) : CarSharedData :=
  (safetyPass shm).1

/-- Any number of wake-ups does what one does. -/
theorem wake_repeated (shm : CarSharedData) (n : Nat) :
    run wake shm (List.replicate (n + 1) ()) = (safetyPass shm).1 := by
  have hagain : ∀ (shm : CarSharedData) (label other : Unit), True →
      wake (wake shm label) other = wake shm label :=
    fun shm _ _ _ => safetyPass_idempotent shm
  exact run_of_repeats hagain (repeats_replicate () n) shm

theorem safetyPass_frame (shm : CarSharedData) :
    (safetyPass shm).1 =
      { shm with
        status := (safetyPass shm).1.status
        openButton := (safetyPass shm).1.openButton
        emergencyMode := (safetyPass shm).1.emergencyMode } := by
  rw [safetyPass_data, reopenOnObstruction_frame]

theorem safetyPass_keeps_mode {shm : CarSharedData}
    (hmode : shm.emergencyMode = 1) : (safetyPass shm).1.emergencyMode = 1 := by
  rw [safetyPass_emergencyMode, hmode]
  split <;> rfl

theorem safetyPass_doors (shm : CarSharedData) :
    ((safetyPass shm).1.status = shm.status ∧
        (safetyPass shm).1.openButton = shm.openButton) ∨
      shm.doorObstruction = 1 ∧ shm.status = statusNames .Closing ∧
        (safetyPass shm).1.status = statusNames .Opening ∧
        (safetyPass shm).1.openButton = 1 := by
  rw [safetyPass_data]
  rcases reopenOnObstruction_cases shm with hsame | ⟨hdoor, hstatus, hsent⟩
  · left
    rw [hsame]
    exact ⟨rfl, rfl⟩
  · right
    rw [hsent]
    exact ⟨hdoor, hstatus, rfl, rfl⟩

/-- A wake-up without a cause is harmless: passes after the first change
nothing, a pass does not lift an emergency, and it writes the status, the open
button and the mode only, the first of these only to turn closing doors back. -/
theorem safetyPass_wakeups (shm : CarSharedData) :
    (safetyPass (safetyPass shm).1).1 = (safetyPass shm).1 ∧
      (shm.emergencyMode = 1 → (safetyPass shm).1.emergencyMode = 1) ∧
      (safetyPass shm).1 =
        { shm with
          status := (safetyPass shm).1.status
          openButton := (safetyPass shm).1.openButton
          emergencyMode := (safetyPass shm).1.emergencyMode } ∧
      ((safetyPass shm).1.status ≠ shm.status →
        shm.doorObstruction = 1 ∧ shm.status = statusNames .Closing ∧
          (safetyPass shm).1.status = statusNames .Opening ∧
          (safetyPass shm).1.openButton = 1) := by
  refine ⟨safetyPass_idempotent shm, safetyPass_keeps_mode, safetyPass_frame shm,
    fun hchanged => ?_⟩
  rcases safetyPass_doors shm with ⟨hstatus, _⟩ | hsent
  · exact absurd hstatus hchanged
  · exact hsent

end Elevator
