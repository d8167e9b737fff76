/-
What a car says over one connection.  From one `connect` to the next the thread
registers, reports the segment as it finds it, and announces a mode at most as
its last word; the controller reads all of it as it was meant.
-/
import Elevator.Registration

namespace Elevator

open CText Framing Transition

/-- The messages among what a step leaves on record. -/
def messagesOf (events : List TcpEvent) : List CarMessage :=
  events.filterMap fun
    | .sent message => some message
    | _ => none

def CarSharedData.report (shm : CarSharedData) : CarMessage :=
  .status shm.status shm.currentFloor shm.destinationFloor

/-- A car, with what has gone out since the thread last connected, and the
segment as every step since then has found it. -/
structure Session where
  tcp : TcpState
  messages : List CarMessage
  history : List CarSharedData

def TcpState.connects (state : TcpState) : TcpAction → Bool
  | .tcp _ => state.pc = .connect
  | _ => false

def sessionStep (session : Session) (action : TcpAction) : Session :=
  let afresh := session.tcp.connects action
  { tcp := (tcpCarStep session.tcp action).1
    messages := (if afresh then [] else session.messages) ++
      messagesOf (tcpCarStep session.tcp action).2
    history := (if afresh then [] else session.history) ++
      [session.tcp.car.data] }

def startSession (carname : CString 256) (lowest highest : CString 4)
    (readFlag : Int) : Session where
  tcp := startTcp carname lowest highest readFlag
  messages := []
  history := []

/-- The registration, then reports of contents that the segment had in this
order, then perhaps the announcement of a mode. -/
structure Spoken (session : Session) (snapshots : List CarSharedData)
    (closing : Option CarMessage) : Prop where
  messages : session.messages = session.tcp.carMessage ::
    (snapshots.map CarSharedData.report ++ closing.toList)
  past : snapshots.Sublist session.history
  closing : ∀ message ∈ closing,
    message = .emergency ∨ message = .individualService

/-- A section of the inner loop: it sends a report, or an announcement that
closes the connection, or nothing, and it takes an order at most. -/
structure SpeaksOnce (state : TcpState) (outcome : TcpOutcome)
    (result : TcpState × List TcpEvent) : Prop where
  said : messagesOf result.2 = [] ∨ state.socketOpen = true ∧
    (messagesOf result.2 = [state.statusMessage] ∨
      (messagesOf result.2 = [.emergency] ∨
        messagesOf result.2 = [.individualService]) ∧
        result.1.socketOpen = false)
  closed : state.socketOpen = false → result.1.socketOpen = false
  place : result.1.pc ≠ .register
  idle : result.1.pc = .connect → result.1.connected = false
  car : result.1.car = state.car ∨ ∃ floor, outcome.reception = .text floor ∧
    result.1.car = takeOrder state.car floor
  carname : result.1.carname = state.carname

section Sections

variable {state : TcpState} {outcome : TcpOutcome}

theorem TcpState.socketOpen_of_transmits {message : CarMessage}
    (hsends : state.transmits outcome message = true) :
    state.socketOpen = true :=
  (Bool.and_eq_true _ _ ▸ hsends).1

/-- A section that only puts events before those of another one. -/
theorem SpeaksOnce.cons {result : TcpState × List TcpEvent}
    (hspeaks : SpeaksOnce state outcome result) (events : List TcpEvent)
    (hevents : messagesOf events = []) :
    SpeaksOnce state outcome (result.1, events ++ result.2) := by
  have hsame : messagesOf (events ++ result.2) = messagesOf result.2 := by
    rw [messagesOf, List.filterMap_append]
    exact (congrArg (· ++ _) hevents).trans (List.nil_append _)
  constructor
  · simp only [hsame]
    exact hspeaks.said
  · exact hspeaks.closed
  · exact hspeaks.place
  · exact hspeaks.idle
  · exact hspeaks.car
  · exact hspeaks.carname

theorem takeOrder_range (car : CarState) (floor : Option (CString 4)) :
    (takeOrder car floor).lowestFloor = car.lowestFloor ∧
      (takeOrder car floor).highestFloor = car.highestFloor := by
  cases floor with
  | none => exact ⟨rfl, rfl⟩
  | some label => exact carStep_range car (.floor label)

theorem SpeaksOnce.carMessage {result : TcpState × List TcpEvent}
    (hspeaks : SpeaksOnce state outcome result) :
    result.1.carMessage = state.carMessage := by
  rcases hspeaks.car with hcar | ⟨floor, -, hcar⟩
  · simp only [TcpState.carMessage, hcar, hspeaks.carname]
  · obtain ⟨hlowest, hhighest⟩ := takeOrder_range state.car floor
    simp only [TcpState.carMessage, hcar, hspeaks.carname, hlowest, hhighest]

theorem again_place : state.again.pc ≠ .register ∧
    (state.again.pc = .connect → state.again.connected = false) := by
  cases hconnected : state.connected <;>
    simp [TcpState.again, hconnected]

theorem speaksOnce_hangUp {events : List TcpEvent}
    (hsaid : messagesOf events = [] ∨ state.socketOpen = true ∧
      messagesOf events = [state.statusMessage]) :
    SpeaksOnce state outcome (state.hangUp, events) := by
  refine ⟨?_, fun _ => rfl, TcpPc.noConfusion, fun _ => rfl, Or.inl rfl, rfl⟩
  rcases hsaid with hnone | ⟨hopen, hreport⟩
  · exact Or.inl hnone
  · exact Or.inr ⟨hopen, Or.inl hreport⟩

theorem speaksOnce_reportStatus : SpeaksOnce state outcome (reportStatus state outcome) := by
  unfold reportStatus
  split
  · rename_i hsends
    have hopen := TcpState.socketOpen_of_transmits hsends
    have hclosed : state.socketOpen = false → False := by
      rw [hopen]
      exact Bool.noConfusion
    split
    · split
      · exact ⟨Or.inr ⟨hopen, Or.inl rfl⟩, fun h => (hclosed h).elim,
          again_place.1, again_place.2, Or.inl rfl, rfl⟩
      · exact speaksOnce_hangUp (.inr ⟨hopen, rfl⟩)
      · rename_i floor hreception
        exact ⟨Or.inr ⟨hopen, Or.inl rfl⟩, fun h => (hclosed h).elim,
          again_place.1, again_place.2, Or.inr ⟨floor, hreception, rfl⟩, rfl⟩
    · exact speaksOnce_hangUp (.inr ⟨hopen, rfl⟩)
  · exact speaksOnce_hangUp (.inl rfl)

theorem speaksOnce_waitForSend : SpeaksOnce state outcome (waitForSend state outcome) := by
  unfold waitForSend
  split
  · exact ⟨Or.inl rfl, id, TcpPc.noConfusion, fun h => TcpPc.noConfusion h,
      Or.inl rfl, rfl⟩
  · exact speaksOnce_reportStatus

/-- After an announcement nothing can be sent: the socket has been closed. -/
theorem speaksOnce_announce {message : CarMessage}
    (hmessage : message = .emergency ∨ message = .individualService)
    {next : TcpState → TcpState × List TcpEvent}
    (hnext : ∀ after, SpeaksOnce after outcome (next after)) :
    SpeaksOnce state outcome (announce state outcome message next) := by
  unfold announce
  split
  · rename_i hsends
    have hafter := hnext { state with connected := false, socketOpen := false }
    have hquiet := hafter.said.resolve_right fun h => Bool.false_ne_true h.1
    have hsaid : messagesOf (.access :: .sent message :: .closed ::
        (next { state with connected := false, socketOpen := false }).2) =
          [message] := congrArg (message :: ·) hquiet
    refine ⟨Or.inr ⟨TcpState.socketOpen_of_transmits hsends, Or.inr ⟨?_, ?_⟩⟩,
      fun _ => hafter.closed rfl, hafter.place, hafter.idle, hafter.car,
      hafter.carname⟩
    · rcases hmessage with rfl | rfl
      · exact Or.inl hsaid
      · exact Or.inr hsaid
    · exact hafter.closed rfl
  · exact speaksOnce_hangUp (.inl rfl)

theorem speaksOnce_checkService :
    SpeaksOnce state outcome (checkService state outcome) := by
  unfold checkService
  split
  · exact speaksOnce_announce (.inr rfl) fun _ => speaksOnce_waitForSend
  · exact speaksOnce_waitForSend.cons [.access] rfl

theorem speaksOnce_pollStep : SpeaksOnce state outcome (pollStep state outcome) := by
  unfold pollStep
  split
  · exact (speaksOnce_announce (.inl rfl)
      fun _ => speaksOnce_checkService).cons [.lock] rfl
  · exact speaksOnce_checkService.cons [.lock, .access] rfl

theorem speaksOnce_waitStep : SpeaksOnce state outcome (waitStep state outcome) := by
  unfold waitStep
  split
  · exact speaksOnce_waitForSend.cons [.lock] rfl
  · exact speaksOnce_reportStatus.cons [.lock] rfl
  · exact ⟨Or.inl rfl, id, TcpPc.noConfusion, fun h => TcpPc.noConfusion h,
      Or.inl rfl, rfl⟩

/-- Every step of the thread once it has registered. -/
theorem speaksOnce_tcpStep (outcome : TcpOutcome)
    (hconnect : state.pc ≠ .connect) (hregister : state.pc ≠ .register) :
    SpeaksOnce state outcome (tcpStep state outcome) := by
  unfold tcpStep
  split
  · rename_i hpc
    exact absurd hpc hconnect
  · rename_i hpc
    exact absurd hpc hregister
  · exact speaksOnce_pollStep
  · exact speaksOnce_waitStep
  · exact speaksOnce_reportStatus

theorem registerStep_car : (registerStep state outcome).1.car = state.car ∧
    (registerStep state outcome).1.carname = state.carname := by
  unfold registerStep
  split_ifs <;> exact ⟨rfl, rfl⟩

/-- All that the thread does to the car is to take an order. -/
theorem tcpStep_car (state : TcpState) (outcome : TcpOutcome) :
    ((tcpStep state outcome).1.car = state.car ∨
      ∃ floor, outcome.reception = .text floor ∧
        (tcpStep state outcome).1.car = takeOrder state.car floor) ∧
      (tcpStep state outcome).1.carname = state.carname := by
  by_cases hconnect : state.pc = .connect
  · simp [tcpStep, hconnect]
  · by_cases hregister : state.pc = .register
    · simp [tcpStep, hregister, registerStep_car]
    · have hspeaks := speaksOnce_tcpStep outcome hconnect hregister
      exact ⟨hspeaks.car, hspeaks.carname⟩

end Sections

section Invariant

variable {session : Session} {snapshots : List CarSharedData}
  {closing : Option CarMessage}

/-- The invariant: nothing has been said before the thread has registered, and
what has been said since is as it should be, with a closed socket after an
announcement. -/
structure InSession (session : Session) : Prop where
  idle : session.tcp.pc = .connect ∨ session.tcp.pc = .register →
    session.tcp.connected = false
  unsaid : session.tcp.pc = .register → session.messages = []
  said : session.messages = [] ∧
      (session.tcp.pc = .connect ∨ session.tcp.pc = .register) ∨
    ∃ snapshots closing, Spoken session snapshots closing ∧
      (closing ≠ none → session.tcp.socketOpen = false)

theorem Spoken.extend (hspoken : Spoken session snapshots closing)
    {after : Session} (hmessages : after.messages = session.messages)
    (hcar : after.tcp.carMessage = session.tcp.carMessage)
    (hhistory : after.history = session.history ++ [session.tcp.car.data]) :
    Spoken after snapshots closing where
  messages := by rw [hmessages, hcar, hspoken.messages]
  past := by
    rw [hhistory]
    exact hspoken.past.trans (List.sublist_append_left _ _)
  closing := hspoken.closing

theorem Spoken.report (hspoken : Spoken session snapshots none)
    {after : Session}
    (hmessages : after.messages = session.messages ++ [session.tcp.statusMessage])
    (hcar : after.tcp.carMessage = session.tcp.carMessage)
    (hhistory : after.history = session.history ++ [session.tcp.car.data]) :
    Spoken after (snapshots ++ [session.tcp.car.data]) none where
  messages := by
    rw [hmessages, hcar, hspoken.messages]
    simp [CarSharedData.report, TcpState.statusMessage]
  past := by
    rw [hhistory]
    exact hspoken.past.append (List.Sublist.refl _)
  closing := hspoken.closing

theorem Spoken.announce (hspoken : Spoken session snapshots none)
    {after : Session} {message : CarMessage}
    (hmessage : message = .emergency ∨ message = .individualService)
    (hmessages : after.messages = session.messages ++ [message])
    (hcar : after.tcp.carMessage = session.tcp.carMessage)
    (hhistory : after.history = session.history ++ [session.tcp.car.data]) :
    Spoken after snapshots (some message) where
  messages := by
    rw [hmessages, hcar, hspoken.messages]
    simp
  past := by
    rw [hhistory]
    exact hspoken.past.trans (List.sublist_append_left _ _)
  closing := by
    rintro other ⟨⟩
    exact hmessage

/-- The steps of the other threads and processes. -/
theorem InSession.of_car (hinv : InSession session) {car : CarState}
    (hrange : car.lowestFloor = session.tcp.car.lowestFloor ∧
      car.highestFloor = session.tcp.car.highestFloor) :
    InSession { session with
      tcp := { session.tcp with car := car }
      history := session.history ++ [session.tcp.car.data] } := by
  refine ⟨hinv.idle, hinv.unsaid, hinv.said.imp_right ?_⟩
  rintro ⟨snapshots, closing, hspoken, hclosed⟩
  refine ⟨snapshots, closing, hspoken.extend rfl ?_ rfl, hclosed⟩
  simp only [TcpState.carMessage, hrange.1, hrange.2]

theorem InSession.connect (hinv : InSession session) (outcome : TcpOutcome)
    (hpc : session.tcp.pc = .connect) :
    InSession (sessionStep session (.tcp outcome)) := by
  have hidle := hinv.idle (.inl hpc)
  simp only [sessionStep, TcpState.connects, tcpCarStep, tcpStep, hpc,
    decide_true, if_true]
  exact ⟨fun _ => hidle, fun _ => rfl, Or.inl ⟨rfl, Or.inr rfl⟩⟩

/-- The registration and the first report, or as much of them as could be sent. -/
theorem InSession.register (hinv : InSession session) (outcome : TcpOutcome)
    (hpc : session.tcp.pc = .register) :
    InSession (sessionStep session (.tcp outcome)) := by
  have hidle := hinv.idle (.inr hpc)
  have hunsaid := hinv.unsaid hpc
  have hplace : session.tcp.connects (.tcp outcome) = false := by
    simp [TcpState.connects, hpc]
  have hlast := List.sublist_append_right session.history [session.tcp.car.data]
  simp only [sessionStep, hplace, Bool.false_eq_true, if_false, hunsaid,
    List.nil_append, tcpCarStep, tcpStep, hpc]
  unfold registerStep
  split
  · split
    · split
      · refine ⟨fun h => h.elim TcpPc.noConfusion TcpPc.noConfusion,
          TcpPc.noConfusion, Or.inr ⟨[session.tcp.car.data], none, ?_, ?_⟩⟩
        · exact ⟨rfl, hlast, by simp⟩
        · exact fun h => absurd rfl h
      · refine ⟨fun _ => rfl, TcpPc.noConfusion, Or.inr ⟨[], none, ?_, ?_⟩⟩
        · exact ⟨rfl, List.nil_sublist _, by simp⟩
        · exact fun h => absurd rfl h
    · exact ⟨fun _ => rfl, TcpPc.noConfusion, Or.inl ⟨rfl, Or.inl rfl⟩⟩
  · have hagain : session.tcp.again.pc = .connect := by
      simp [TcpState.again, hidle]
    exact ⟨fun _ => hidle, fun _ => rfl, Or.inl ⟨rfl, Or.inl hagain⟩⟩

theorem InSession.inner (hinv : InSession session) (outcome : TcpOutcome)
    (hconnect : session.tcp.pc ≠ .connect)
    (hregister : session.tcp.pc ≠ .register) :
    InSession (sessionStep session (.tcp outcome)) := by
  have hspeaks := speaksOnce_tcpStep outcome hconnect hregister
  have hplace : session.tcp.connects (.tcp outcome) = false := by
    simp [TcpState.connects, hconnect]
  have hmessages : (sessionStep session (.tcp outcome)).messages =
      session.messages ++ messagesOf (tcpStep session.tcp outcome).2 := by
    simp [sessionStep, hplace, tcpCarStep]
  have hhistory : (sessionStep session (.tcp outcome)).history =
      session.history ++ [session.tcp.car.data] := by
    simp [sessionStep, hplace]
  obtain ⟨snapshots, closing, hspoken, hclosed⟩ :=
    hinv.said.resolve_left fun h => h.2.elim hconnect hregister
  refine ⟨fun h => hspeaks.idle (h.resolve_right hspeaks.place),
    fun h => absurd h hspeaks.place, Or.inr ?_⟩
  rcases hspeaks.said with hnone | ⟨hopen, hsaid⟩
  · rw [hnone, List.append_nil] at hmessages
    exact ⟨snapshots, closing, hspoken.extend hmessages hspeaks.carMessage hhistory,
      fun h => hspeaks.closed (hclosed h)⟩
  · have hnone : closing = none := by
      by_contra hne
      exact Bool.false_ne_true ((hclosed hne).symm.trans hopen)
    subst hnone
    rcases hsaid with hreport | ⟨hannounced, hshut⟩
    · rw [hreport] at hmessages
      exact ⟨_, none, hspoken.report hmessages hspeaks.carMessage hhistory,
        fun h => absurd rfl h⟩
    · rcases hannounced with hmode | hmode <;> rw [hmode] at hmessages
      · exact ⟨snapshots, _, hspoken.announce (.inl rfl) hmessages
          hspeaks.carMessage hhistory, fun _ => hshut⟩
      · exact ⟨snapshots, _, hspoken.announce (.inr rfl) hmessages
          hspeaks.carMessage hhistory, fun _ => hshut⟩

theorem InSession.step (session : Session) (action : TcpAction)
    (hinv : InSession session) : InSession (sessionStep session action) := by
  cases action with
  | tcp outcome =>
      by_cases hconnect : session.tcp.pc = .connect
      · exact hinv.connect outcome hconnect
      · by_cases hregister : session.tcp.pc = .register
        · exact hinv.register outcome hregister
        · exact hinv.inner outcome hconnect hregister
  | process =>
      simpa [sessionStep, TcpState.connects, tcpCarStep, messagesOf, carStep] using
        hinv.of_car (carStep_range session.tcp.car .process)
  | doorcontrol =>
      simpa [sessionStep, TcpState.connects, tcpCarStep, messagesOf, carStep] using
        hinv.of_car (carStep_range session.tcp.car .doorcontrol)
  | external edit =>
      simpa [sessionStep, TcpState.connects, tcpCarStep, messagesOf, carStep] using
        hinv.of_car (carStep_range session.tcp.car (.external edit))

theorem inSession_start (carname : CString 256) (lowest highest : CString 4)
    (readFlag : Int) :
    InSession (startSession carname lowest highest readFlag) :=
  ⟨fun _ => rfl, fun _ => rfl, Or.inl ⟨rfl, Or.inl rfl⟩⟩

end Invariant

/-- The texts of a report are words of characters of one byte. -/
structure Readable (shm : CarSharedData) : Prop where
  status : IsOperand shm.status.chars
  currentFloor : IsOperand shm.currentFloor.chars
  destinationFloor : IsOperand shm.destinationFloor.chars

/-- Other processes leave the texts readable, and orders are for labels that
are. -/
def KeepsReadable : TcpAction → Prop
  | .external edit => ∀ shm, Readable shm → Readable (edit shm)
  | .tcp outcome => ∀ label, outcome.reception = .text (some label) →
      IsOperand label.chars
  | _ => True

section Texts

variable {shm : CarSharedData}

theorem Readable.showing (hshm : Readable shm) (status : Status) :
    Readable { shm with status := statusNames status } :=
  { hshm with status := statusNames_isOperand status }

theorem Readable.clampDestination (hshm : Readable shm)
    (lowest highest : CString 4) :
    Readable (clampDestination lowest highest shm) := by
  simp only [Elevator.clampDestination]
  split_ifs
  · exact { hshm with destinationFloor := hshm.currentFloor }
  · exact { hshm with destinationFloor := hshm.currentFloor }
  · exact { hshm with destinationFloor := hshm.currentFloor }
  · exact hshm

theorem Readable.operateDoorStep (hshm : Readable shm) (frame : DoorFrame) :
    Readable (operateDoorStep shm frame).1 := by
  rw [operateDoorStep_data]
  cases frame.pc with
  | writeStatus => exact hshm.showing frame.currentStatus
  | clearReopening | clearOpening | clearOpen | clearClose => exact { hshm with }
  | report =>
      by_cases hbetween : frame.currentStatus = .Between
      · rw [if_pos hbetween]
        exact hshm
      · rw [if_neg hbetween]
        exact hshm.showing frame.currentStatus
  | _ => exact hshm

theorem Readable.processStep {car : CarState} (hcar : Readable car.data) :
    Readable (processStep car).data := by
  rw [processStep_data]
  cases car.process with
  | top => exact hcar.clampDestination _ _
  | arrived frame | serve frame => exact hcar.operateDoorStep frame
  | setBetween floordiff i => exact hcar.showing .Between
  | setClosed floordiff i => exact hcar.showing .Closed
  | move floordiff i =>
      exact { hcar with currentFloor := (floorToString_isLabel _).isOperand }
  | _ => exact hcar

theorem Readable.doorcontrolStep {car : CarState} (hcar : Readable car.data) :
    Readable (doorcontrolStep car).data := by
  unfold Elevator.doorcontrolStep
  split
  · split <;> exact hcar
  · exact hcar.operateDoorStep _

theorem Readable.receiveFloor {car : CarState} (hcar : Readable car.data)
    {label : CString 4} (hlabel : IsOperand label.chars) :
    Readable (receiveFloor car label).data := by
  rw [receiveFloor_data]
  split_ifs
  · exact { hcar with destinationFloor := hlabel }
  · exact hcar

end Texts

theorem Readable.tcpCarStep {state : TcpState} {action : TcpAction}
    (hstate : Readable state.car.data) (hguard : KeepsReadable action) :
    Readable (tcpCarStep state action).1.car.data := by
  cases action with
  | tcp outcome =>
      rcases (tcpStep_car state outcome).1 with hcar | ⟨floor, hreception, hcar⟩
      · simpa only [Elevator.tcpCarStep, hcar] using hstate
      · simp only [Elevator.tcpCarStep, hcar]
        cases floor with
        | none => exact hstate
        | some label => exact hstate.receiveFloor (hguard label hreception)
  | process => exact hstate.processStep
  | doorcontrol => exact hstate.doorcontrolStep
  | external edit => exact hguard _ hstate

/-- The registration is fixed when the car starts. -/
theorem sessionStep_carMessage (session : Session) (action : TcpAction) :
    (sessionStep session action).tcp.carMessage = session.tcp.carMessage := by
  cases action with
  | tcp outcome =>
      obtain ⟨hcar, hcarname⟩ := tcpStep_car session.tcp outcome
      have hrange : (tcpStep session.tcp outcome).1.car.lowestFloor =
            session.tcp.car.lowestFloor ∧
          (tcpStep session.tcp outcome).1.car.highestFloor =
            session.tcp.car.highestFloor := by
        rcases hcar with hcar | ⟨floor, -, hcar⟩
        · rw [hcar]
          exact ⟨rfl, rfl⟩
        · rw [hcar]
          exact takeOrder_range session.tcp.car floor
      simp only [sessionStep, tcpCarStep, TcpState.carMessage, hcarname, hrange]
  | process =>
      have hrange := carStep_range session.tcp.car .process
      simp only [carStep] at hrange
      simp only [sessionStep, tcpCarStep, TcpState.carMessage, hrange]
  | doorcontrol =>
      have hrange := carStep_range session.tcp.car .doorcontrol
      simp only [carStep] at hrange
      simp only [sessionStep, tcpCarStep, TcpState.carMessage, hrange]
  | external edit => rfl

/-- The segment is readable, and it has been at every step noted. -/
structure ReadableSession (session : Session) : Prop where
  now : Readable session.tcp.car.data
  past : ∀ shm ∈ session.history, Readable shm

theorem ReadableSession.step {session : Session} {action : TcpAction}
    (hinv : ReadableSession session) (hguard : KeepsReadable action) :
    ReadableSession (sessionStep session action) := by
  refine ⟨hinv.now.tcpCarStep hguard, fun shm hshm => ?_⟩
  simp only [sessionStep] at hshm
  rcases List.mem_append.mp hshm with hold | hnew
  · split_ifs at hold
    · cases hold
    · exact hinv.past shm hold
  · rw [List.mem_singleton.mp hnew]
    exact hinv.now

section Wire

def messageStream (messages : List CarMessage) : List UInt8 :=
  messages.flatMap fun message => frame message.text

/-- What the controller makes of a message that comes whole. -/
def CarMessage.command : CarMessage → Option Command
  | .car carname lowestFloor highestFloor =>
      some (.car (.store 50 carname.chars) lowestFloor highestFloor)
  | .status statusStr currentFloor destinationFloor =>
      some (.status statusStr currentFloor destinationFloor)
  | .emergency => none
  | .individualService => none

/-- The operands of a message can be read back. -/
def CarMessage.IsReadable : CarMessage → Prop
  | .car carname lowestFloor highestFloor => IsOperand carname.chars ∧
      IsOperand lowestFloor.chars ∧ IsOperand highestFloor.chars
  | .status statusStr currentFloor destinationFloor =>
      IsOperand statusStr.chars ∧ IsOperand currentFloor.chars ∧
        IsOperand destinationFloor.chars
  | .emergency => True
  | .individualService => True

variable {message : CarMessage}

theorem CarMessage.IsReadable.isText (hmessage : message.IsReadable) :
    IsText message.text := by
  cases message with
  | car carname lowestFloor highestFloor =>
      obtain ⟨hname, hlowest, hhighest⟩ := hmessage
      exact @registration_text_isText ⟨carname, lowestFloor, highestFloor, 0⟩
        hname.2 hlowest.2 hhighest.2
  | status statusStr currentFloor destinationFloor =>
      exact status_text_isText hmessage.1 hmessage.2.1 hmessage.2.2
  | emergency => decide
  | individualService => decide

/-- Every message is far shorter than the buffer. -/
theorem length_message_text (message : CarMessage) :
    0 < message.text.length ∧ message.text.length < 1024 := by
  cases message with
  | car carname lowestFloor highestFloor =>
      exact length_registration_text ⟨carname, lowestFloor, highestFloor, 0⟩
  | status statusStr currentFloor destinationFloor =>
      exact length_status_text statusStr currentFloor destinationFloor
  | emergency => decide
  | individualService => decide

/-- What a message leaves on the wire when one of its two `send` calls fails. -/
def IsCutShort (cut : List UInt8) : Prop :=
  ∃ message : CarMessage, cut <+: frame message.text ∧ cut ≠ frame message.text

theorem IsCutShort.takeFrame {cut : List UInt8} (hcut : IsCutShort cut) :
    takeFrame cut = none := by
  obtain ⟨message, hbegins, hshort⟩ := hcut
  have hfits := (length_message_text message).2
  exact takeFrame_of_cut (by omega) hbegins hshort

/-- The controller reads every message as it was meant, whatever its local
arrays held; an announcement is no command to it. -/
theorem parseCommand_message (hmessage : message.IsReadable) (stale : Locals) :
    parseCommand message.text stale = message.command := by
  cases message with
  | car carname lowestFloor highestFloor =>
      obtain ⟨hname, hlowest, hhighest⟩ := hmessage
      have hparse := parseCommand_registration
        ⟨carname, lowestFloor, highestFloor, 0⟩ stale
      rw [registrationWords_of_scannable hname.1 hlowest.1 hhighest.1] at hparse
      simpa [assigned, CarMessage.command, CarArguments.registration] using hparse
  | status statusStr currentFloor destinationFloor =>
      exact parseCommand_status hmessage.1 hmessage.2.1 hmessage.2.2 stale
  | emergency => rfl
  | individualService => rfl

/-- In whatever the buffer held, a complete message is found. -/
theorem parseCommand_readBody_message (hmessage : message.IsReadable)
    (buffer : Block 1024) (stale : Locals) :
    parseCommand (buffer.readBody message.text.length
      (bytesOf message.text)).text stale = message.command := by
  rw [Block.text_readBody buffer hmessage.isText (length_message_text message).2]
  exact parseCommand_message hmessage stale

theorem readFrame_message (hmessage : message.IsReadable) (buffer : Block 1024)
    (rest : List UInt8) (commands : List Command) (stale : Locals) :
    readFrame ⟨buffer, frame message.text ++ rest, commands⟩ stale =
      some ⟨buffer.readBody message.text.length (bytesOf message.text), rest,
        commands ++ message.command.toList⟩ := by
  obtain ⟨hpos, hfits⟩ := length_message_text message
  simp only [readFrame]
  rw [takeFrame_frame (by omega)]
  simp only [if_neg (Nat.ne_of_gt hpos),
    parseCommand_readBody_message hmessage buffer stale]

/-- Messages on the wire come out as they went in, up to a frame that is cut
short. -/
theorem readFrames_messageStream {messages : List CarMessage}
    (hmessages : ∀ message ∈ messages, message.IsReadable)
    (stale : Nat → Locals) {fuel : Nat} (hfuel : messages.length ≤ fuel)
    (buffer : Block 1024) (commands : List Command) {cut : List UInt8}
    (hcut : IsCutShort cut) :
    ∃ buffer', readFrames stale fuel
        ⟨buffer, messageStream messages ++ cut, commands⟩ =
      ⟨buffer', cut, commands ++ messages.filterMap CarMessage.command⟩ := by
  induction messages generalizing fuel buffer commands with
  | nil =>
      refine ⟨buffer, ?_⟩
      cases fuel <;> simp [readFrames, readFrame, hcut.takeFrame, messageStream]
  | cons message rest ih =>
      obtain ⟨hhead, htail⟩ := List.forall_mem_cons.mp hmessages
      obtain ⟨fuel, rfl⟩ : ∃ n, fuel = n + 1 :=
        Nat.exists_eq_succ_of_ne_zero (by rw [List.length_cons] at hfuel; omega)
      obtain ⟨buffer', hrest⟩ := ih htail (Nat.le_of_succ_le_succ hfuel)
        (buffer.readBody message.text.length (bytesOf message.text))
        (commands ++ message.command.toList)
      refine ⟨buffer', ?_⟩
      have hstream : messageStream (message :: rest) ++ cut =
          frame message.text ++ (messageStream rest ++ cut) := by
        simp [messageStream]
      rw [readFrames, hstream, readFrame_message hhead]
      simp only [hrest, List.filterMap_cons]
      cases message.command <;> simp

end Wire

/-- The report of a segment as the controller is to understand it. -/
def CarSharedData.command (shm : CarSharedData) : Command :=
  .status shm.status shm.currentFloor shm.destinationFloor

theorem Spoken.commands {session : Session} {snapshots : List CarSharedData}
    {closing : Option CarMessage} (hspoken : Spoken session snapshots closing)
    {carname : CString 256} {lowest highest : CString 4}
    (hcar : session.tcp.carMessage = .car carname lowest highest) :
    session.messages.filterMap CarMessage.command =
      .car (.store 50 carname.chars) lowest highest ::
        snapshots.map CarSharedData.command := by
  have hclosing : closing.toList.filterMap CarMessage.command = [] := by
    cases hcase : closing with
    | none => rfl
    | some message => rcases hspoken.closing message hcase with rfl | rfl <;> rfl
  have hreports : (snapshots.map CarSharedData.report).filterMap
      CarMessage.command = snapshots.map CarSharedData.command := by
    rw [List.filterMap_map]
    exact congrFun List.filterMap_eq_map snapshots
  have hregistered : CarMessage.command (.car carname lowest highest) =
      some (.car (.store 50 carname.chars) lowest highest) := rfl
  rw [hspoken.messages, hcar, List.filterMap_cons_some hregistered,
    List.filterMap_append, hreports, hclosing, List.append_nil]

theorem Spoken.isReadable {session : Session} {snapshots : List CarSharedData}
    {closing : Option CarMessage} (hspoken : Spoken session snapshots closing)
    (hcar : session.tcp.carMessage.IsReadable)
    (hpast : ∀ shm ∈ session.history, Readable shm) :
    ∀ message ∈ session.messages, message.IsReadable := by
  intro message hmessage
  rw [hspoken.messages] at hmessage
  rcases List.mem_cons.mp hmessage with rfl | hmessage
  · exact hcar
  · rcases List.mem_append.mp hmessage with hreport | hclosing
    · obtain ⟨shm, hshm, rfl⟩ := List.mem_map.mp hreport
      obtain ⟨hstatus, hcurrent, hdestination⟩ :=
        hpast shm (hspoken.past.subset hshm)
      exact ⟨hstatus, hcurrent, hdestination⟩
    · rcases hspoken.closing message (Option.mem_toList.mp hclosing) with
        rfl | rfl <;> exact trivial

/-- A connection survives the wire, if the car's floors are words and its name is
one of at most 49 characters.  However its threads, the other processes and the
network go on, as long as what they leave in the segment and what is received are
words, and as long as a `send` that does not fail takes its whole text: up to a
frame that a failed `send` has cut short, the controller reads the registration
of the car and then contents of its segment, in the order in which the segment
had them, and no other command. -/
theorem session_survives_the_wire {carname : CString 256}
    {lowest highest : CString 4} (hname : IsOperand carname.chars)
    (hfits : carname.chars.length ≤ 49) (hlowest : IsOperand lowest.chars)
    (hhighest : IsOperand highest.chars) (readFlag : Int)
    {actions : List TcpAction}
    (hactions : ∀ action ∈ actions, KeepsReadable action) :
    let session := run sessionStep
      (startSession carname lowest highest readFlag) actions
    session.messages = [] ∨
      ∃ (name : CString 50) (snapshots : List CarSharedData),
        name.chars = carname.chars ∧ snapshots.Sublist session.history ∧
        ∀ cut, IsCutShort cut → ∀ fuel, session.messages.length ≤ fuel →
          ∀ (buffer : Block 1024) (stale : Nat → Locals), ∃ buffer',
            readFrames stale fuel
                ⟨buffer, messageStream session.messages ++ cut, []⟩ =
              ⟨buffer', cut, .car name lowest highest ::
                snapshots.map CarSharedData.command⟩ := by
  intro session
  have hsession : InSession session :=
    run_of_invariant InSession InSession.step
      (inSession_start carname lowest highest readFlag) actions
  have hcar : session.tcp.carMessage = .car carname lowest highest :=
    run_of_invariant
      (fun session => session.tcp.carMessage = .car carname lowest highest)
      (fun session action h => (sessionStep_carMessage session action).trans h)
      rfl actions
  have hstart : ReadableSession (startSession carname lowest highest readFlag) :=
    ⟨⟨statusNames_isOperand .Closed, hlowest, hlowest⟩, by simp [startSession]⟩
  have hreadable : ReadableSession session :=
    run_of_along (fun _ _ hinv hguard => ReadableSession.step hinv hguard) hstart
      (along_of_forall_mem hactions)
  refine hsession.said.imp And.left ?_
  rintro ⟨snapshots, closing, hspoken, -⟩
  refine ⟨.store 50 carname.chars, snapshots, CString.store_chars hfits,
    hspoken.past, fun cut hcut fuel hfuel buffer stale => ?_⟩
  have hmessages := hspoken.isReadable
    (hcar.symm ▸ ⟨hname, hlowest, hhighest⟩) hreadable.past
  obtain ⟨buffer', hread⟩ :=
    readFrames_messageStream hmessages stale hfuel buffer [] hcut
  rw [hspoken.commands hcar, List.nil_append] at hread
  exact ⟨buffer', hread⟩

/-- All system calls succeed, a wait times out, and nothing is received. -/
def idleNetwork : TcpAction :=
  .tcp ⟨fun _ => true, .timedOut, true, .nothing⟩

theorem keepsReadable_idleNetwork : KeepsReadable idleNetwork :=
  fun _ hreception => Reception.noConfusion hreception

/-- The same, with an order to be received. -/
def orderArrives (label : CString 4) : TcpAction :=
  .tcp ⟨fun _ => true, .timedOut, true, .text (some label)⟩

theorem keepsReadable_orderArrives {label : CString 4}
    (hlabel : IsOperand label.chars) : KeepsReadable (orderArrives label) := by
  intro other hreception
  rwa [← Option.some.inj (Reception.text.inj hreception)]

/-- A car called Alpha connects, registers and reports, and its emergency stop
is noticed in between. -/
def alphaReports : List TcpAction :=
  [idleNetwork, idleNetwork, .process, idleNetwork, idleNetwork,
    .external fun shm => (editSharedMemory shm .setEmergency 0 .Opening).1,
    idleNetwork]

theorem session_survives_the_wire_alpha :
    let session := run sessionStep (startSession (.store 256 "Alpha".toList)
      (floorToString 1) (floorToString 5) 0) alphaReports
    session.messages.length = 4 ∧
      (session.messages = [] ∨
      ∃ (name : CString 50) (snapshots : List CarSharedData),
        name.chars = "Alpha".toList ∧ snapshots.Sublist session.history ∧
        ∀ cut, IsCutShort cut → ∀ fuel, session.messages.length ≤ fuel →
          ∀ (buffer : Block 1024) (stale : Nat → Locals), ∃ buffer',
            readFrames stale fuel
                ⟨buffer, messageStream session.messages ++ cut, []⟩ =
              ⟨buffer', cut, .car name (floorToString 1) (floorToString 5) ::
                snapshots.map CarSharedData.command⟩) := by
  refine ⟨by decide, session_survives_the_wire ⟨by decide, by decide⟩ (by decide)
    ⟨by decide, by decide⟩ ⟨by decide, by decide⟩ 0 ?_⟩
  have hstop : KeepsReadable (.external fun shm =>
      (editSharedMemory shm .setEmergency 0 .Opening).1) := fun _ hshm => { hshm with }
  have hprocess : KeepsReadable .process := trivial
  simp only [alphaReports, List.forall_mem_cons, keepsReadable_idleNetwork, hstop,
    hprocess, true_and]
  exact fun _ hnone => absurd hnone List.not_mem_nil

end Elevator
