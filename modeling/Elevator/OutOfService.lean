/-
Out of service.  An observer of the car's messages who also sees the two modes
change expects no registration while a mode is on, and nothing but silence
between the announcement of a mode and its end.  The closed socket keeps the
silence; what breaks it is the guard of the next registration.
-/
import Elevator.CarTcp

namespace Elevator

open CText Transition

/-- What the observer remembers: the modes, and which of them have been
announced since they were last off. -/
structure Watch where
  emergencyMode : UInt8
  individualServiceMode : UInt8
  emergencySent : Bool
  serviceSent : Bool
deriving DecidableEq, Repr

def Watch.start : Watch where
  emergencyMode := 0
  individualServiceMode := 0
  emergencySent := false
  serviceSent := false

def Watch.announced (watch : Watch) : Bool :=
  watch.emergencySent || watch.serviceSent

def watchStep (watch : Watch) : TcpEvent → Watch
  | .changed emergencyMode individualServiceMode =>
      { emergencyMode := emergencyMode
        individualServiceMode := individualServiceMode
        emergencySent := watch.emergencySent && emergencyMode = 1
        serviceSent := watch.serviceSent && individualServiceMode = 1 }
  | .sent .emergency => { watch with emergencySent := true }
  | .sent .individualService => { watch with serviceSent := true }
  | _ => watch

/-- What the observer expects of each event. -/
def OffDispatcher (watch : Watch) : TcpEvent → Prop
  | .sent (.car ..) =>
      watch.emergencyMode ≠ 1 ∧ watch.individualServiceMode ≠ 1 ∧
        watch.announced = false
  | .sent (.status ..) => watch.announced = false
  | _ => True

instance offDispatcherDecidable (watch : Watch) :
    (event : TcpEvent) → Decidable (OffDispatcher watch event)
  | .sent (.car ..) => inferInstanceAs (Decidable (_ ∧ _ ∧ _))
  | .sent (.status ..) => inferInstanceAs (Decidable (_ = false))
  | .sent .emergency => isTrue trivial
  | .sent .individualService => isTrue trivial
  | .lock => isTrue trivial
  | .unlock => isTrue trivial
  | .access => isTrue trivial
  | .closed => isTrue trivial
  | .changed .. => isTrue trivial

def StaysOff (state : TcpState × List TcpEvent) : Prop :=
  Along watchStep OffDispatcher .start state.2

instance (state : TcpState × List TcpEvent) : Decidable (StaysOff state) :=
  inferInstanceAs (Decidable (Along _ _ _ _))

/-- A registration gets through only while both modes are off or both on. -/
def RegistersInService (state : TcpState) : TcpAction → Prop
  | .tcp outcome =>
      state.pc = .register → state.transmits outcome state.carMessage = true →
        (state.car.data.emergencyMode = 1 ↔
          state.car.data.individualServiceMode = 1)
  | _ => True

instance registersInServiceDecidable (state : TcpState) :
    (action : TcpAction) → Decidable (RegistersInService state action)
  | .tcp _ => inferInstanceAs (Decidable (_ → _ → (_ ↔ _)))
  | .process => isTrue trivial
  | .doorcontrol => isTrue trivial
  | .external _ => isTrue trivial

/-- The observer's view agrees with the segment, and what has been announced is
still on. -/
structure Tracks (watch : Watch) (state : TcpState) : Prop where
  emergencyMode : watch.emergencyMode = state.car.data.emergencyMode
  individualServiceMode :
    watch.individualServiceMode = state.car.data.individualServiceMode
  emergencySent : watch.emergencySent = true → watch.emergencyMode = 1
  serviceSent : watch.serviceSent = true → watch.individualServiceMode = 1

/-- After an announcement the thread has no connection to speak over. -/
def Silenced (watch : Watch) (state : TcpState) : Prop :=
  watch.announced = true →
    state.connected = false ∧ state.socketOpen = false

/-- Between two steps: a new socket is all that can follow an announcement. -/
def Withdrawn (watch : Watch) (state : TcpState) : Prop :=
  watch.announced = true → state.connected = false ∧ state.pc ≠ .poll ∧
    (state.pc = .wait ∨ state.pc = .report → state.socketOpen = false)

/-- The observer accepts what a step puts on record, and the invariant holds
after it. -/
def Sound (watch : Watch) (result : TcpState × List TcpEvent) : Prop :=
  Along watchStep OffDispatcher watch result.2 ∧
    Tracks (run watchStep watch result.2) result.1 ∧
    Withdrawn (run watchStep watch result.2) result.1

variable {watch : Watch} {state : TcpState} {outcome : TcpOutcome}

theorem Tracks.of_car {car : CarState} (htracks : Tracks watch state)
    (hemergency : car.data.emergencyMode = state.car.data.emergencyMode)
    (hservice : car.data.individualServiceMode =
      state.car.data.individualServiceMode) :
    Tracks watch { state with car := car } where
  emergencyMode := htracks.emergencyMode.trans hemergency.symm
  individualServiceMode := htracks.individualServiceMode.trans hservice.symm
  emergencySent := htracks.emergencySent
  serviceSent := htracks.serviceSent

theorem tracks_hangUp (htracks : Tracks watch state) :
    Tracks watch state.hangUp :=
  ⟨htracks.1, htracks.2, htracks.3, htracks.4⟩

theorem withdrawn_hangUp (watch : Watch) (state : TcpState) :
    Withdrawn watch state.hangUp :=
  fun _ => ⟨rfl, by simp [TcpState.hangUp], by simp [TcpState.hangUp]⟩

theorem tracks_again (htracks : Tracks watch state) : Tracks watch state.again :=
  ⟨htracks.1, htracks.2, htracks.3, htracks.4⟩

/-- At the head of the inner loop only the flag `connected` counts. -/
theorem withdrawn_again
    (hconnected : watch.announced = true → state.connected = false) :
    Withdrawn watch state.again := by
  intro hannounced
  have hfalse := hconnected hannounced
  refine ⟨hfalse, ?_, ?_⟩ <;> simp [TcpState.again, hfalse]

theorem takeOrder_modes (car : CarState) (floor : Option (CString 4)) :
    (takeOrder car floor).data.emergencyMode = car.data.emergencyMode ∧
      (takeOrder car floor).data.individualServiceMode =
        car.data.individualServiceMode := by
  cases floor with
  | none => exact ⟨rfl, rfl⟩
  | some label =>
      simp only [takeOrder, receiveFloor]
      split <;> exact ⟨rfl, rfl⟩

/-- A message that goes out over an open socket follows no announcement. -/
theorem Silenced.of_transmits (hsilenced : Silenced watch state)
    {message : CarMessage} (hsends : state.transmits outcome message = true) :
    watch.announced = false := by
  cases hannounced : watch.announced with
  | false => rfl
  | true =>
      have hclosed := (hsilenced hannounced).2
      simp [TcpState.transmits, hclosed] at hsends

theorem sound_reportStatus (outcome : TcpOutcome) (htracks : Tracks watch state)
    (hsilenced : Silenced watch state) :
    Sound watch (reportStatus state outcome) := by
  have hconnected : watch.announced = true → state.connected = false :=
    fun hannounced => (hsilenced hannounced).1
  unfold reportStatus
  split
  · rename_i hsends
    have hquiet := hsilenced.of_transmits hsends
    split
    · split
      · refine ⟨?_, tracks_again htracks, withdrawn_again hconnected⟩
        exact ⟨trivial, hquiet, trivial, trivial⟩
      · refine ⟨?_, tracks_hangUp htracks, withdrawn_hangUp watch state⟩
        exact ⟨trivial, hquiet, trivial, trivial, trivial⟩
      · rename_i floor _
        obtain ⟨hemergency, hservice⟩ := takeOrder_modes state.car floor
        refine ⟨?_, tracks_again (htracks.of_car hemergency hservice),
          withdrawn_again hconnected⟩
        exact ⟨trivial, hquiet, trivial, trivial, trivial⟩
    · refine ⟨?_, tracks_hangUp htracks, withdrawn_hangUp watch state⟩
      exact ⟨trivial, hquiet, trivial, trivial, trivial⟩
  · refine ⟨?_, tracks_hangUp htracks, withdrawn_hangUp watch state⟩
    exact ⟨trivial, trivial, trivial, trivial⟩

theorem sound_waitForSend (outcome : TcpOutcome) (htracks : Tracks watch state)
    (hsilenced : Silenced watch state) :
    Sound watch (waitForSend state outcome) := by
  unfold waitForSend
  split
  · refine ⟨⟨trivial, trivial⟩, ⟨htracks.1, htracks.2, htracks.3, htracks.4⟩, ?_⟩
    intro hannounced
    obtain ⟨hconnected, hclosed⟩ := hsilenced hannounced
    exact ⟨hconnected, by simp, fun _ => hclosed⟩
  · exact sound_reportStatus outcome htracks hsilenced

/-- An announcement closes the socket, so it leaves the thread silenced. -/
theorem sound_announce (outcome : TcpOutcome) {message : CarMessage}
    (next : TcpState → TcpState × List TcpEvent)
    (hmessage : message = .emergency ∧ state.car.data.emergencyMode = 1 ∨
      message = .individualService ∧ state.car.data.individualServiceMode = 1)
    (htracks : Tracks watch state)
    (hnext : ∀ watch state, Tracks watch state → Silenced watch state →
      Sound watch (next state)) :
    Sound watch (announce state outcome message next) := by
  unfold announce
  split
  · obtain ⟨hemergency, hservice, hsent, hsent'⟩ := htracks
    rcases hmessage with ⟨rfl, hmode⟩ | ⟨rfl, hmode⟩
    · obtain ⟨halong, hafter⟩ := hnext { watch with emergencySent := true }
        { state with connected := false, socketOpen := false }
        ⟨hemergency, hservice, fun _ => hemergency.trans hmode, hsent'⟩
        fun _ => ⟨rfl, rfl⟩
      exact ⟨⟨trivial, trivial, trivial, halong⟩, hafter⟩
    · obtain ⟨halong, hafter⟩ := hnext { watch with serviceSent := true }
        { state with connected := false, socketOpen := false }
        ⟨hemergency, hservice, hsent, fun _ => hservice.trans hmode⟩
        fun _ => ⟨rfl, rfl⟩
      exact ⟨⟨trivial, trivial, trivial, halong⟩, hafter⟩
  · refine ⟨?_, tracks_hangUp htracks, withdrawn_hangUp watch state⟩
    exact ⟨trivial, trivial, trivial, trivial⟩

theorem sound_checkService (outcome : TcpOutcome) (htracks : Tracks watch state)
    (hsilenced : Silenced watch state) :
    Sound watch (checkService state outcome) := by
  unfold checkService
  split
  · rename_i hmode
    exact sound_announce outcome _ (.inr ⟨rfl, hmode⟩) htracks
      fun _ _ htracks hsilenced => sound_waitForSend outcome htracks hsilenced
  · obtain ⟨halong, hafter⟩ := sound_waitForSend outcome htracks hsilenced
    exact ⟨⟨trivial, halong⟩, hafter⟩

theorem sound_pollStep (htracks : Tracks watch state)
    (hsilenced : Silenced watch state) :
    Sound watch (pollStep state outcome) := by
  unfold pollStep
  split
  · rename_i hmode
    obtain ⟨halong, hafter⟩ := sound_announce outcome
      (fun state => checkService state outcome) (.inl ⟨rfl, hmode⟩) htracks
      fun _ _ htracks hsilenced => sound_checkService outcome htracks hsilenced
    exact ⟨⟨trivial, halong⟩, hafter⟩
  · obtain ⟨halong, hafter⟩ :=
      sound_checkService outcome htracks hsilenced
    exact ⟨⟨trivial, trivial, halong⟩, hafter⟩

theorem sound_waitStep (htracks : Tracks watch state)
    (hsilenced : Silenced watch state) :
    Sound watch (waitStep state outcome) := by
  unfold waitStep
  split
  · obtain ⟨halong, hafter⟩ :=
      sound_waitForSend outcome htracks hsilenced
    exact ⟨⟨trivial, halong⟩, hafter⟩
  · obtain ⟨halong, hafter⟩ :=
      sound_reportStatus outcome htracks hsilenced
    exact ⟨⟨trivial, halong⟩, hafter⟩
  · refine ⟨⟨trivial, trivial, trivial⟩,
      ⟨htracks.1, htracks.2, htracks.3, htracks.4⟩, ?_⟩
    intro hannounced
    obtain ⟨hconnected, hclosed⟩ := hsilenced hannounced
    exact ⟨hconnected, by simp, fun _ => hclosed⟩

/-- A registration that meets the guard goes out with both modes off. -/
theorem sound_registerStep (htracks : Tracks watch state)
    (hwithdrawn : Withdrawn watch state)
    (hguard : state.transmits outcome state.carMessage = true →
      (state.car.data.emergencyMode = 1 ↔
        state.car.data.individualServiceMode = 1)) :
    Sound watch (registerStep state outcome) := by
  unfold registerStep
  split
  · rename_i hcode
    split
    · rename_i hsends
      have hagree := hguard hsends
      have hemergency : watch.emergencyMode ≠ 1 := by
        rw [htracks.emergencyMode]
        tauto
      have hservice : watch.individualServiceMode ≠ 1 := by
        rw [htracks.individualServiceMode]
        tauto
      have hquiet : watch.announced = false := by
        rw [Watch.announced, Bool.or_eq_false_iff]
        exact ⟨Bool.eq_false_iff.mpr fun hsent =>
            hemergency (htracks.emergencySent hsent),
          Bool.eq_false_iff.mpr fun hsent =>
            hservice (htracks.serviceSent hsent)⟩
      have hcar : OffDispatcher watch (.sent state.carMessage) :=
        ⟨hemergency, hservice, hquiet⟩
      split
      · refine ⟨⟨trivial, trivial, hcar, trivial, hquiet, trivial, trivial⟩,
          ⟨htracks.1, htracks.2, htracks.3, htracks.4⟩, ?_⟩
        intro hannounced
        exact absurd (hquiet.symm.trans hannounced) (by decide)
      · refine ⟨?_, tracks_hangUp htracks, withdrawn_hangUp watch state⟩
        exact ⟨trivial, trivial, hcar, trivial, trivial, trivial, trivial⟩
    · refine ⟨?_, tracks_hangUp htracks, withdrawn_hangUp watch state⟩
      exact ⟨trivial, trivial, trivial, trivial, trivial⟩
  · refine ⟨?_, tracks_again htracks,
      withdrawn_again fun hannounced => (hwithdrawn hannounced).1⟩
    exact ⟨trivial, trivial, trivial, trivial⟩

theorem sound_tcpStep (htracks : Tracks watch state)
    (hwithdrawn : Withdrawn watch state)
    (hguard : RegistersInService state (.tcp outcome)) :
    Sound watch (tcpStep state outcome) := by
  cases hpc : state.pc with
  | connect =>
      simp only [tcpStep, hpc]
      refine ⟨trivial, ⟨htracks.1, htracks.2, htracks.3, htracks.4⟩, ?_⟩
      intro hannounced
      exact ⟨(hwithdrawn hannounced).1, by simp, by simp⟩
  | register =>
      simp only [tcpStep, hpc]
      exact sound_registerStep htracks hwithdrawn (hguard hpc)
  | poll =>
      simp only [tcpStep, hpc]
      exact sound_pollStep htracks fun hannounced =>
        absurd hpc (hwithdrawn hannounced).2.1
  | wait =>
      simp only [tcpStep, hpc]
      refine sound_waitStep htracks fun hannounced => ?_
      obtain ⟨hconnected, -, hclosed⟩ := hwithdrawn hannounced
      exact ⟨hconnected, hclosed (.inl hpc)⟩
  | report =>
      simp only [tcpStep, hpc]
      refine sound_reportStatus _ htracks fun hannounced => ?_
      obtain ⟨hconnected, -, hclosed⟩ := hwithdrawn hannounced
      exact ⟨hconnected, hclosed (.inr hpc)⟩

theorem sound_tcpCarStep (htracks : Tracks watch state)
    (hwithdrawn : Withdrawn watch state) {action : TcpAction}
    (hguard : RegistersInService state action) :
    Sound watch (tcpCarStep state action) := by
  cases action with
  | tcp outcome => exact sound_tcpStep htracks hwithdrawn hguard
  | process =>
      obtain ⟨hemergency, hservice⟩ := processStep_modes state.car
      exact ⟨trivial, htracks.of_car hemergency hservice, hwithdrawn⟩
  | doorcontrol =>
      have hsame := doorcontrolStep_sameButDoors state.car
      exact ⟨trivial,
        htracks.of_car hsame.emergencyMode hsame.individualServiceMode, hwithdrawn⟩
  | external edit =>
      -- an announcement is forgotten with the mode it was about
      have hkept {sent : Bool} {mode : UInt8}
          (hsent : (sent && decide (mode = 1)) = true) :
          sent = true ∧ mode = 1 := by
        simpa using hsent
      refine ⟨⟨trivial, trivial⟩, ⟨rfl, rfl, fun hsent => (hkept hsent).2,
        fun hsent => (hkept hsent).2⟩, fun hannounced => hwithdrawn ?_⟩
      rcases (Bool.or_eq_true _ _).mp hannounced with hsent | hsent
      · simp [Watch.announced, (hkept hsent).1]
      · simp [Watch.announced, (hkept hsent).1]

/-- The invariant of a run: the record so far is as expected, and the thread
stands as it should after it. -/
def OnWatch (state : TcpState × List TcpEvent) : Prop :=
  StaysOff state ∧ Tracks (run watchStep .start state.2) state.1 ∧
    Withdrawn (run watchStep .start state.2) state.1

theorem onWatch_step (state : TcpState × List TcpEvent) (action : TcpAction)
    (hinv : OnWatch state) (hguard : RegistersInService state.1 action) :
    OnWatch (logged tcpCarStep state action) := by
  obtain ⟨hoff, htracks, hwithdrawn⟩ := hinv
  obtain ⟨halong, htracks', hwithdrawn'⟩ :=
    sound_tcpCarStep htracks hwithdrawn hguard
  refine ⟨along_append.mpr ⟨hoff, halong⟩, ?_, ?_⟩
  · rw [logged, run_append]
    exact htracks'
  · rw [logged, run_append]
    exact hwithdrawn'

/-- A registration with one mode on is seen by the observer. -/
theorem registersInService_of_staysOff (state : TcpState × List TcpEvent)
    (action : TcpAction) (hinv : OnWatch state)
    (hoff : StaysOff (logged tcpCarStep state action)) :
    RegistersInService state.1 action := by
  obtain ⟨-, htracks, -⟩ := hinv
  cases action with
  | tcp outcome =>
      intro hpc hsends
      have halong := (along_append.mp hoff).2
      simp only [tcpCarStep, tcpStep, hpc, registerStep, hsends, if_true] at halong
      split at halong
      · have hcar : OffDispatcher (run watchStep .start state.2)
            (.sent state.1.carMessage) := by
          split at halong <;> exact halong.2.2.1
        obtain ⟨hemergency, hservice, -⟩ := hcar
        rw [htracks.emergencyMode] at hemergency
        rw [htracks.individualServiceMode] at hservice
        exact iff_of_false hemergency hservice
      · rename_i hboth
        obtain ⟨hemergency, hservice⟩ := not_or.mp hboth
        exact iff_of_true (not_not.mp hemergency) (not_not.mp hservice)
  | _ => trivial

/-- A car stays off the dispatcher while it is out of service if and only if
every registration that gets through finds both modes off or both on. -/
theorem staysOff_iff_registersInService (carname : CString 256)
    (lowest highest : CString 4) (readFlag : Int) (actions : List TcpAction) :
    Always (logged tcpCarStep) StaysOff
        (startTcp carname lowest highest readFlag, []) actions ↔
      Along (logged tcpCarStep)
        (fun state action => RegistersInService state.1 action)
        (startTcp carname lowest highest readFlag, []) actions := by
  have hstart : OnWatch (startTcp carname lowest highest readFlag, []) := by
    refine ⟨trivial, ⟨rfl, rfl, ?_, ?_⟩, ?_⟩
    · exact fun hsent => absurd hsent Bool.false_ne_true
    · exact fun hsent => absurd hsent Bool.false_ne_true
    · exact fun hannounced => absurd hannounced Bool.false_ne_true
  exact always_iff_along_of_invariant OnWatch onWatch_step
    (fun _ hinv => hinv.1) registersInService_of_staysOff hstart actions

/-- All system calls succeed, a wait times out, and nothing is received. -/
def quietNetwork : TcpAction :=
  .tcp ⟨fun _ => true, .timedOut, true, .nothing⟩

/-- A registered car enters emergency mode. -/
def emergencyAnnounced : List TcpAction :=
  [quietNetwork, quietNetwork,
    .external fun shm => (editSharedMemory shm .setEmergency 0 .Opening).1] ++
      List.replicate 4 quietNetwork

def demoTcp : TcpState :=
  startTcp (.store 256 "Alpha".toList) (floorToString 1) (floorToString 5) 0

/-- With the emergency announced and still on, the car connects again and
registers: individual service mode is off. -/
theorem registers_in_emergency :
    ((run (logged tcpCarStep) (demoTcp, []) emergencyAnnounced).2.filter
        fun event => event ∉ [.lock, .unlock, .access, .closed]) =
      [.sent demoTcp.carMessage, .sent demoTcp.statusMessage, .changed 1 0,
        .sent .emergency, .sent demoTcp.carMessage, .sent demoTcp.statusMessage] ∧
      ¬ Always (logged tcpCarStep) StaysOff (demoTcp, []) emergencyAnnounced := by
  refine ⟨by decide, ?_⟩
  intro halways
  exact absurd halways.final (by decide)

end Elevator
