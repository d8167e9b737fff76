/-
How the TCP thread uses the mutex of the shared segment.  What a step leaves on
record is judged event by event by whether the thread holds the mutex; every
section of the loop gives the mutex back, except for the one that goes on to
the status report after `pthread_cond_timedwait` has failed.
-/
import Elevator.CarTcp

namespace Elevator

open CText Transition

def heldAfter (held : Bool) : TcpEvent → Bool
  | .lock => true
  | .unlock => false
  | _ => held

/-- Only a mutex held is unlocked, only one not held is locked, and the segment
is accessed with the mutex held. -/
def MutexAllows (held : Bool) : TcpEvent → Prop
  | .lock => held = false
  | .unlock => held = true
  | .access => held = true
  | _ => True

instance mutexAllowsDecidable (held : Bool) :
    (event : TcpEvent) → Decidable (MutexAllows held event)
  | .lock => inferInstanceAs (Decidable (_ = _))
  | .unlock => inferInstanceAs (Decidable (_ = _))
  | .access => inferInstanceAs (Decidable (_ = _))
  | .sent _ => isTrue trivial
  | .closed => isTrue trivial
  | .changed _ _ => isTrue trivial

/-- A thread that starts without the mutex does everything on record when the
mutex allows it. -/
def UsesMutexWell (log : List TcpEvent) : Prop :=
  Along heldAfter MutexAllows false log

instance (log : List TcpEvent) : Decidable (UsesMutexWell log) :=
  inferInstanceAs (Decidable (Along _ _ _ _))

/-- From a thread that holds the mutex or not, the events are all allowed, and
the mutex is free after them. -/
def GivesBack (held : Bool) (events : List TcpEvent) : Prop :=
  Along heldAfter MutexAllows held events ∧ run heldAfter held events = false

theorem givesBack_nil : GivesBack false [] := ⟨trivial, rfl⟩

theorem givesBack_cons {held : Bool} {event : TcpEvent} {rest : List TcpEvent} :
    GivesBack held (event :: rest) ↔
      MutexAllows held event ∧ GivesBack (heldAfter held event) rest :=
  and_assoc

theorem GivesBack.append {held : Bool} {first second : List TcpEvent}
    (hfirst : GivesBack held first) (hsecond : GivesBack false second) :
    GivesBack held (first ++ second) := by
  refine ⟨along_append.mpr ⟨hfirst.1, ?_⟩, ?_⟩
  · rw [hfirst.2]
    exact hsecond.1
  · rw [run_append, hfirst.2]
    exact hsecond.2

/-- A section of the loop, entered with the mutex or without: it gives the
mutex back and does not leave the thread before a report without it. -/
structure Orderly (held : Bool) (result : TcpState × List TcpEvent) : Prop where
  givesBack : GivesBack held result.2
  pc : result.1.pc ≠ .report

theorem Orderly.cons {held : Bool} {next : TcpState} {event : TcpEvent}
    {rest : List TcpEvent} (hallows : MutexAllows held event)
    (hrest : Orderly (heldAfter held event) (next, rest)) :
    Orderly held (next, event :: rest) :=
  ⟨givesBack_cons.mpr ⟨hallows, hrest.givesBack⟩, hrest.pc⟩

variable {state : TcpState} {outcome : TcpOutcome}

theorem pc_again : state.again.pc ≠ .report := by
  unfold TcpState.again
  split <;> exact TcpPc.noConfusion

theorem pc_hangUp : state.hangUp.pc ≠ .report := TcpPc.noConfusion

/-- Every way out of the report of a thread that holds the mutex. -/
theorem orderly_reportStatus : Orderly true (reportStatus state outcome) := by
  unfold reportStatus
  split
  · split
    · split
      · exact ⟨⟨⟨rfl, trivial, rfl, trivial⟩, rfl⟩, pc_again⟩
      · exact ⟨⟨⟨rfl, trivial, rfl, trivial, trivial⟩, rfl⟩, pc_hangUp⟩
      · exact ⟨⟨⟨rfl, trivial, rfl, rfl, trivial⟩, rfl⟩, pc_again⟩
    · exact ⟨⟨⟨rfl, trivial, rfl, trivial, trivial⟩, rfl⟩, pc_hangUp⟩
  · exact ⟨⟨⟨rfl, rfl, trivial, trivial⟩, rfl⟩, pc_hangUp⟩

/-- Whatever comes of the report, it begins with an access. -/
theorem reportStatus_accesses :
    ∃ rest, (reportStatus state outcome).2 = .access :: rest := by
  unfold reportStatus
  split
  · split
    · split <;> exact ⟨_, rfl⟩
    · exact ⟨_, rfl⟩
  · exact ⟨_, rfl⟩

theorem orderly_waitForSend : Orderly true (waitForSend state outcome) := by
  unfold waitForSend
  split
  · exact ⟨⟨⟨rfl, trivial⟩, rfl⟩, TcpPc.noConfusion⟩
  · exact orderly_reportStatus

theorem orderly_announce {message : CarMessage}
    {next : TcpState → TcpState × List TcpEvent}
    (hnext : ∀ after, Orderly true (next after)) :
    Orderly true (announce state outcome message next) := by
  unfold announce
  split
  · exact .cons rfl (.cons trivial (.cons trivial (hnext _)))
  · exact ⟨⟨⟨rfl, rfl, trivial, trivial⟩, rfl⟩, pc_hangUp⟩

theorem orderly_checkService : Orderly true (checkService state outcome) := by
  unfold checkService
  split
  · exact orderly_announce fun _ => orderly_waitForSend
  · exact .cons rfl orderly_waitForSend

theorem orderly_registerStep : Orderly false (registerStep state outcome) := by
  unfold registerStep
  split
  · split
    · split
      · exact ⟨⟨⟨rfl, rfl, trivial, rfl, trivial, rfl, trivial⟩, rfl⟩,
          TcpPc.noConfusion⟩
      · exact ⟨⟨⟨rfl, rfl, trivial, rfl, rfl, trivial, trivial⟩, rfl⟩, pc_hangUp⟩
    · exact ⟨⟨⟨rfl, rfl, rfl, trivial, trivial⟩, rfl⟩, pc_hangUp⟩
  · exact ⟨⟨⟨rfl, rfl, rfl, trivial⟩, rfl⟩, pc_again⟩

theorem orderly_pollStep : Orderly false (pollStep state outcome) := by
  unfold pollStep
  split
  · exact .cons rfl (orderly_announce fun _ => orderly_checkService)
  · exact .cons rfl (.cons rfl orderly_checkService)

theorem orderly_waitStep (hwake : outcome.wake ≠ .failed) :
    Orderly false (waitStep state outcome) := by
  unfold waitStep
  split
  · exact .cons rfl orderly_waitForSend
  · exact .cons rfl orderly_reportStatus
  · rename_i hfailed
    exact absurd hfailed hwake

/-- The wait that fails gives the mutex back as well: it is what follows that
goes wrong. -/
theorem givesBack_waitStep : GivesBack false (waitStep state outcome).2 := by
  by_cases hwake : outcome.wake = .failed
  · unfold waitStep
    rw [hwake]
    exact ⟨⟨rfl, rfl, trivial⟩, rfl⟩
  · exact (orderly_waitStep hwake).givesBack

/-- No wait of the thread fails, other than by timing out. -/
def WaitsInOrder (state : TcpState) : TcpAction → Prop
  | .tcp outcome => state.pc = .wait → outcome.wake ≠ .failed
  | _ => True

/-- The thread does not go on after a wait that failed. -/
def GoesNoFurther (state : TcpState) : TcpAction → Prop
  | .tcp _ => state.pc ≠ .report
  | _ => True

theorem orderly_tcpStep (hpc : state.pc ≠ .report)
    (hwaits : WaitsInOrder state (.tcp outcome)) :
    Orderly false (tcpStep state outcome) := by
  unfold tcpStep
  split
  · exact ⟨givesBack_nil, TcpPc.noConfusion⟩
  · exact orderly_registerStep
  · exact orderly_pollStep
  · rename_i hwait
    exact orderly_waitStep (hwaits hwait)
  · rename_i hreport
    exact absurd hreport hpc

/-- What a step leaves on record is in order unless the thread goes on after a
wait that failed. -/
theorem givesBack_tcpCarStep {action : TcpAction}
    (hguard : GoesNoFurther state action) :
    GivesBack false (tcpCarStep state action).2 := by
  cases action with
  | tcp outcome =>
      by_cases hwaits : WaitsInOrder state (.tcp outcome)
      · exact (orderly_tcpStep hguard hwaits).givesBack
      -- a wait that fails is itself in order
      · have hwait : state.pc = .wait := (Classical.not_imp.mp hwaits).1
        simp only [tcpCarStep, tcpStep, hwait]
        exact givesBack_waitStep
  | process => exact givesBack_nil
  | doorcontrol => exact givesBack_nil
  | external edit => exact ⟨⟨trivial, trivial⟩, rfl⟩

/-- The report after a wait that failed touches the segment without the mutex. -/
theorem not_usesMutexWell_report {action : TcpAction}
    (hfurther : ¬ GoesNoFurther state action) :
    ¬ UsesMutexWell (tcpCarStep state action).2 := by
  cases action with
  | tcp outcome =>
      have hreport : state.pc = .report := not_not.mp hfurther
      obtain ⟨rest, hrest⟩ := @reportStatus_accesses state outcome
      simp only [tcpCarStep, tcpStep, hreport, hrest]
      exact fun huses => Bool.false_ne_true huses.1
  | _ => exact absurd trivial hfurther

theorem goesNoFurther_of_usesMutexWell (state : TcpState × List TcpEvent)
    (action : TcpAction) (hinv : GivesBack false state.2)
    (huses : UsesMutexWell (logged tcpCarStep state action).2) :
    GoesNoFurther state.1 action := by
  have hstep := (along_append.mp huses).2
  rw [hinv.2] at hstep
  by_contra hfurther
  exact not_usesMutexWell_report hfurther hstep

/-- Where no wait fails, the thread never stands before that report. -/
theorem goesNoFurther_of_waitsInOrder {start : TcpState × List TcpEvent}
    (hstart : start.1.pc ≠ .report) {actions : List TcpAction}
    (hwaits : Along (logged tcpCarStep)
      (fun state action => WaitsInOrder state.1 action) start actions) :
    Along (logged tcpCarStep)
      (fun state action => GoesNoFurther state.1 action) start actions := by
  refine @along_of_invariant _ _ _ (fun state => state.1.pc ≠ .report) _ _
    ?_ ?_ _ hstart _ hwaits
  · intro state action hpc hguard
    cases action with
    | tcp outcome => exact (orderly_tcpStep hpc hguard).pc
    | process => exact hpc
    | doorcontrol => exact hpc
    | external edit => exact hpc
  · intro state action hpc _
    cases action with
    | tcp outcome => exact hpc
    | _ => trivial

/-- The mutex is used well in every run in which no wait fails, and in a run in
which one does exactly as long as the thread goes no further. -/
theorem usesMutexWell_iff (carname : CString 256) (lowest highest : CString 4)
    (readFlag : Int) (actions : List TcpAction) :
    (UsesMutexWell (run (logged tcpCarStep)
          (startTcp carname lowest highest readFlag, []) actions).2 ↔
        Along (logged tcpCarStep)
          (fun state action => GoesNoFurther state.1 action)
          (startTcp carname lowest highest readFlag, []) actions) ∧
      (Along (logged tcpCarStep)
          (fun state action => WaitsInOrder state.1 action)
          (startTcp carname lowest highest readFlag, []) actions →
        UsesMutexWell (run (logged tcpCarStep)
          (startTcp carname lowest highest readFlag, []) actions).2) := by
  have hiff : UsesMutexWell (run (logged tcpCarStep)
        (startTcp carname lowest highest readFlag, []) actions).2 ↔
      Along (logged tcpCarStep)
        (fun state action => GoesNoFurther state.1 action)
        (startTcp carname lowest highest readFlag, []) actions := by
    have hpersist : ∀ (state : TcpState × List TcpEvent) (action : TcpAction),
        UsesMutexWell (logged tcpCarStep state action).2 →
          UsesMutexWell state.2 :=
      fun _ _ hafter => (along_append.mp hafter).1
    rw [← always_iff_final
      (P := fun state : TcpState × List TcpEvent => UsesMutexWell state.2)
      hpersist]
    exact always_iff_along_of_invariant
      (fun state : TcpState × List TcpEvent => GivesBack false state.2)
      (fun _ _ hinv hguard => hinv.append (givesBack_tcpCarStep hguard))
      (fun _ hinv => hinv.1) goesNoFurther_of_usesMutexWell givesBack_nil actions
  exact ⟨hiff, fun hwaits =>
    hiff.mpr (goesNoFurther_of_waitsInOrder TcpPc.noConfusion hwaits)⟩

/-- A car called Alpha registers, and its first wait for something to send
fails. -/
def failedWait : List TcpAction :=
  [.signalled, .signalled, .signalled, .failed, .timedOut].map fun wake =>
    .tcp ⟨fun _ => true, wake, true, .nothing⟩

/-- The thread unlocks the mutex and leaves the wait, reads the segment without
the mutex and unlocks it a second time. -/
theorem reports_without_mutex :
    ((run (logged tcpCarStep)
        (startTcp (.store 256 "Alpha".toList) (floorToString 1)
          (floorToString 5) 0, []) failedWait).2.drop 10 =
      [.lock, .unlock, .access,
        .sent (.status (.store 8 "Closed".toList) (floorToString 1)
          (floorToString 1)), .unlock]) ∧
      ¬ ∀ (carname : CString 256) (lowest highest : CString 4)
          (readFlag : Int) (actions : List TcpAction),
        UsesMutexWell (run (logged tcpCarStep)
          (startTcp carname lowest highest readFlag, []) actions).2 := by
  refine ⟨by decide, fun hall => ?_⟩
  exact absurd (hall (.store 256 "Alpha".toList) (floorToString 1)
    (floorToString 5) 0 failedWait) (by decide)

end Elevator
