/-
What the controller believes of a car.  Its record holds what was reported last
of what it has read; it lags behind the segment, but it never goes back, and no
stop is dropped for a door cycle that has not been.
-/
import Elevator.Link
import Elevator.Succession

namespace Elevator

open CText Framing Transition

/-- The status and the floor of every report among the messages. -/
def reportsOf (messages : List CarMessage) : List (CString 8 × CString 4) :=
  messages.filterMap fun
    | .status statusStr currentFloor _ => some (statusStr, currentFloor)
    | _ => none

/-- What the record shows of the car is what was reported last. -/
structure Believes (car : ConnectedCar)
    (reports : List (CString 8 × CString 4)) : Prop where
  previous : car.previousStatus =
    (reports.getLast?.map Prod.fst).getD (.store 8 "IDLE".toList)
  last : ∀ report ∈ reports.getLast?,
    car.status = report.1 ∧ car.currentfloor = report.2

/-- Where the car's record is: not there yet, or no more, or there as the
messages have made it. -/
inductive View (name : CString 50) (socket : Int) (link : Link) : Prop where
  | vacant (hvacant : Vacant name socket link.controller.registry.cars)
      (hquiet : link.handled = 0 ∨ socket ∉ link.controller.registry.masterSet)
  | record (j : Nat) (car : ConnectedCar)
      (hown : OwnRecord j link.controller.registry.cars car)
      (hname : car.name = name) (hsocket : car.connectionsocket = socket)
      (hread : 0 < link.handled)
      (hbelieves : Believes car
        (reportsOf (link.session.messages.take link.handled)))

structure Joined (carname : CString 256) (lowest highest : CString 4)
    (socket : Int) (link : Link) : Prop where
  session : InSession link.session
  readable : ReadableSession link.session
  carMessage : link.session.tcp.carMessage = .car carname lowest highest
  orders : ∀ label ∈ link.orders, IsLabel label
  handled : link.handled ≤ link.session.messages.length
  view : View (.store 50 carname.chars) socket link
  removed : link.removed.length ≤
    Succession.count (statusNames .Closing) (statusNames .Closed)
      ((reportsOf (link.session.messages.take link.handled)).map Prod.fst)

theorem recordAfter_identity (car : ConnectedCar) (statusStr : CString 8)
    (currentFloor destinationFloor : CString 4) :
    (recordAfter car statusStr currentFloor destinationFloor).name = car.name ∧
      (recordAfter car statusStr currentFloor destinationFloor).connectionsocket =
        car.connectionsocket := by
  unfold recordAfter cycleEnded
  rw [removeFromCarQueue_car]
  split <;> exact ⟨rfl, rfl⟩

theorem Furthered.isLabel {before after : ConnectedCar}
    {requests : List (Int × Int)} {orders : List (CString 4)}
    (hfurthered : Furthered before after requests orders) :
    ∀ label ∈ orders, IsLabel label := by
  intro label hlabel
  obtain ⟨stop, -, rfl⟩ := hfurthered.orders label hlabel
  exact floorToString_isLabel stop.floor

theorem Believes.furthered {before after : ConnectedCar}
    {reports : List (CString 8 × CString 4)} {requests : List (Int × Int)}
    {orders : List (CString 4)} (hbelieves : Believes before reports)
    (hfurthered : Furthered before after requests orders) :
    Believes after reports := by
  rw [hfurthered.frame]
  exact ⟨hbelieves.previous, hbelieves.last⟩

theorem Believes.report (car : ConnectedCar) (statusStr : CString 8)
    (currentFloor destinationFloor : CString 4)
    (reports : List (CString 8 × CString 4)) :
    Believes (recordAfter car statusStr currentFloor destinationFloor)
      (reports ++ [(statusStr, currentFloor)]) := by
  obtain ⟨hstatus, hcurrent, -, hprevious⟩ :=
    recordAfter_upToDate statusStr currentFloor destinationFloor car
  constructor
  · simpa using hprevious
  · simpa using ⟨hstatus, hcurrent⟩

section Step

variable {carname : CString 256} {lowest highest : CString 4} {socket : Int}
  {link : Link}

/-- In its session the car says its registration first, and nothing after it
registers anybody. -/
theorem InSession.message {session : Session} (hsession : InSession session)
    {i : Nat} {message : CarMessage} (hmessage : session.messages[i]? = some message) :
    (i = 0 ∧ message = session.tcp.carMessage) ∨
      0 < i ∧ ((∃ shm ∈ session.history, message = shm.report) ∨
        message = .emergency ∨ message = .individualService) := by
  rcases hsession.said with ⟨hnone, -⟩ | ⟨snapshots, closing, hspoken, -⟩
  · simp [hnone] at hmessage
  · rw [hspoken.messages] at hmessage
    cases i with
    | zero => exact Or.inl ⟨rfl, (Option.some.inj hmessage).symm⟩
    | succ i =>
        rw [List.getElem?_cons_succ] at hmessage
        refine Or.inr ⟨Nat.succ_pos i, ?_⟩
        rcases List.mem_append.mp (List.mem_of_getElem? hmessage) with
          hreport | hclosing
        · obtain ⟨shm, hshm, rfl⟩ := List.mem_map.mp hreport
          exact Or.inl ⟨shm, hspoken.past.subset hshm, rfl⟩
        · exact Or.inr (hspoken.closing message (Option.mem_toList.mp hclosing))

theorem Joined.isReadable (hjoined : Joined carname lowest highest socket link)
    (hcar : (CarMessage.car carname lowest highest).IsReadable) {i : Nat}
    {message : CarMessage} (hmessage : link.session.messages[i]? = some message) :
    message.IsReadable := by
  rcases hjoined.session.message hmessage with ⟨-, rfl⟩ |
    ⟨-, ⟨shm, hshm, rfl⟩ | rfl | rfl⟩
  · rw [hjoined.carMessage]
    exact hcar
  · obtain ⟨hstatus, hcurrent, hdestination⟩ := hjoined.readable.past shm hshm
    exact ⟨hstatus, hcurrent, hdestination⟩
  · trivial
  · trivial

/-- A step of the car, or of a process at its segment: the controller sees
nothing of it yet. -/
theorem Joined.car (hjoined : Joined carname lowest highest socket link)
    {action : TcpAction} (hconnects : link.session.tcp.connects action = false)
    (hkeeps : KeepsReadable action) :
    Joined carname lowest highest socket (linkStep socket link (.car action)) := by
  have hmessages : (linkStep socket link (.car action)).session.messages =
      link.session.messages ++
        messagesOf (tcpCarStep link.session.tcp action).2 := by
    simp [linkStep, sessionStep, hconnects]
  have hread : (linkStep socket link (.car action)).session.messages.take
      link.handled = link.session.messages.take link.handled := by
    rw [hmessages, List.take_append_of_le_length hjoined.handled]
  refine ⟨hjoined.session.step _ _, hjoined.readable.step hkeeps, ?_, ?_, ?_, ?_, ?_⟩
  · exact (sessionStep_carMessage _ _).trans hjoined.carMessage
  · intro label hlabel
    simp only [linkStep] at hlabel
    split at hlabel
    · exact hjoined.orders label (List.mem_of_mem_tail hlabel)
    · exact hjoined.orders label hlabel
  · rw [hmessages, List.length_append]
    exact Nat.le_add_right_of_le hjoined.handled
  · cases hjoined.view with
    | vacant hvacant hquiet => exact .vacant hvacant hquiet
    | record j car hown hname hsocket hhandled hbelieves =>
        refine .record j car hown hname hsocket hhandled ?_
        simp only [linkStep] at hread ⊢
        rwa [hread]
  · simp only [linkStep] at hread ⊢
    rw [hread]
    exact hjoined.removed

theorem Joined.client (hjoined : Joined carname lowest highest socket link)
    (hnonneg : 0 ≤ socket) {event : SocketEvent} (hother : event.socket ≠ socket)
    (hspares : SparesName (.store 50 carname.chars) link.controller event) :
    Joined carname lowest highest socket (linkStep socket link (.client event)) := by
  cases hjoined.view with
  | vacant hvacant hquiet =>
      obtain ⟨hafter, horders⟩ := hvacant.after_event hnonneg hother hspares
      refine { hjoined with orders := ?_, view := .vacant hafter ?_ }
      · simp only [linkStep, horders, List.append_nil]
        exact hjoined.orders
      · exact hquiet.imp_right (loopStep_masterSet _ _ hother)
  | record j car hown hname hsocket hread hbelieves =>
      subst hsocket
      obtain ⟨i, new, hnew, hfurthered⟩ :=
        hown.after_event hnonneg hother (hname ▸ hspares)
      have hsame : new.name = car.name ∧
          new.connectionsocket = car.connectionsocket := by
        rw [hfurthered.frame]
        exact ⟨rfl, rfl⟩
      have hview : View (.store 50 carname.chars) car.connectionsocket
          (linkStep car.connectionsocket link (.client event)) :=
        .record i new hnew (hsame.1.trans hname) hsame.2 hread
          (hbelieves.furthered hfurthered)
      refine { hjoined with orders := ?_, view := hview }
      intro label hlabel
      rcases List.mem_append.mp hlabel with hold | hnew
      · exact hjoined.orders label hold
      · exact hfurthered.isLabel label hnew

theorem Joined.hangUp (hjoined : Joined carname lowest highest socket link) :
    Joined carname lowest highest socket (linkStep socket link .hangUp) := by
  by_cases hopen : socket ∈ link.controller.registry.masterSet
  · have hregistry : (linkStep socket link .hangUp).controller.registry =
        hangUpStep link.controller.registry socket := by
      simp [linkStep, loopNext, loopStep, hopen, controllerStep]
    have hclosed : socket ∉ (hangUpStep link.controller.registry socket).masterSet := by
      simp [hangUpStep, ControllerState.drop]
    refine { hjoined with view := .vacant ?_ (.inr (hregistry ▸ hclosed)) }
    rw [hregistry]
    cases hjoined.view with
    | vacant hvacant hquiet =>
        apply hvacant.sublist
        simp only [hangUpStep, ControllerState.drop]
        split
        · exact List.eraseP_sublist
        · exact List.Sublist.refl _
    | record j car hown hname hsocket hread hbelieves =>
        subst hsocket
        have hfound := controllerGetNameBySocket_own hown
        simp only [hangUpStep, hfound, ControllerState.drop, ← hname]
        exact hown.vacant
  · have hsame : linkStep socket link .hangUp = link := by
      simp [linkStep, loopNext, loopStep, hopen]
    rwa [hsame]

theorem Joined.closes (hjoined : Joined carname lowest highest socket link)
    {after : Link} (hcloses : ClosesAtMost link after) :
    Joined carname lowest highest socket after := by
  obtain ⟨controller, rfl, hcars, hsockets⟩ := hcloses
  refine { hjoined with view := ?_ }
  cases hjoined.view with
  | vacant hvacant hquiet =>
      refine .vacant (hcars ▸ hvacant) (hquiet.imp_right fun hclosed hopen => ?_)
      exact hclosed (hsockets socket hopen)
  | record j car hown hname hsocket hread hbelieves =>
      exact .record j car (hcars ▸ hown) hname hsocket hread hbelieves

/-- What becomes of the controller when it reads a message. -/
theorem loopStep_message {state : LoopState} {message : CarMessage}
    (hreadable : message.IsReadable) (hopen : socket ∈ state.registry.masterSet)
    (stale : Locals) (outcome : CallOutcome) :
    let after := loopStep state (message.arrival socket stale outcome)
    match message.command with
    | none => after.1.registry = state.registry ∧ after.2 = []
    | some command =>
        let input := command.input state.registry socket stale outcome
        after.1.registry = (controllerStep state.registry input).1 ∧
          after.2 = (controllerStep state.registry input).2 := by
  intro after
  have hparse := parseCommand_readBody_message hreadable state.buffer stale
  have hread : (bytesOf message.text).take message.text.length ≠ [] :=
    take_bytesOf_ne_nil (length_message_text message).1
  cases hcommand : message.command with
  | none =>
      have hnone : parseCommand (receive state socket message.text.length
          (bytesOf message.text)).buffer.text stale = none := hparse.trans hcommand
      have hregistry := receive_registry state socket message.text.length
        (bytesOf message.text)
      rw [if_neg hread] at hregistry
      simp only [after, CarMessage.arrival, loopStep, if_neg (not_not.mpr hopen),
        handleFrame, hnone, hregistry, and_self]
  | some command =>
      exact loopStep_command hopen hread (hparse.trans hcommand) outcome

/-- The car's own report is read: what becomes of its record, which stop is
dropped and what is ordered. -/
theorem OwnRecord.handle_report {j : Nat} {record : ConnectedCar}
    (hown : OwnRecord j link.controller.registry.cars record)
    {shm : CarSharedData} (hreadable : shm.report.IsReadable)
    (hopen : record.connectionsocket ∈ link.controller.registry.masterSet)
    (stale : Locals) (outcome : CallOutcome) :
    let after := link.handle record.connectionsocket shm.report stale outcome
    OwnRecord j after.controller.registry.cars
        (recordAfter record shm.status shm.currentFloor shm.destinationFloor) ∧
      after.removed = link.removed ++
        (if record.previousStatus = statusNames .Closing ∧
            shm.status = statusNames .Closed then record.queue.head?.toList
        else []) ∧
      after.orders = link.orders ++ answerTo record shm.status outcome.orderSent := by
  intro after
  obtain ⟨hregistry, hevents⟩ := loopStep_message hreadable hopen stale outcome
  simp only [Command.input, CarSharedData.report, controllerStep, decide_true,
    hopen, Bool.and_true] at hregistry hevents
  obtain ⟨hafter, hremoved, -⟩ := hown.own_report shm.status shm.currentFloor
    shm.destinationFloor outcome.orderSent
  refine ⟨?_, ?_, ?_⟩
  · simp only [after, Link.handle, CarSharedData.report, hregistry]
    exact hafter
  · simp only [after, Link.handle, CarSharedData.report, hevents, hremoved]
  · simp only [after, Link.handle, CarSharedData.report, hevents,
      hown.ordersTo_report, if_true]

/-- The controller passes over the announcement of a mode. -/
theorem Link.handle_announcement {message : CarMessage}
    (hmode : message = .emergency ∨ message = .individualService)
    (hopen : socket ∈ link.controller.registry.masterSet) (stale : Locals)
    (outcome : CallOutcome) :
    let after := link.handle socket message stale outcome
    after.controller.registry = link.controller.registry ∧
      after.removed = link.removed ∧ after.orders = link.orders := by
  intro after
  have hquiet : (loopStep link.controller
      (message.arrival socket stale outcome)).1.registry = link.controller.registry ∧
      (loopStep link.controller (message.arrival socket stale outcome)).2 = [] := by
    rcases hmode with rfl | rfl
    · exact @loopStep_message socket _ .emergency trivial hopen stale outcome
    · exact @loopStep_message socket _ .individualService trivial hopen stale outcome
  refine ⟨hquiet.1, ?_, ?_⟩
  · simp only [after, Link.handle, hquiet.2, removals, List.filterMap_nil,
      List.append_nil]
  · simp only [after, Link.handle, hquiet.2, ordersTo_nil, List.append_nil]

theorem reportsOf_append (first second : List CarMessage) :
    reportsOf (first ++ second) = reportsOf first ++ reportsOf second :=
  List.filterMap_append

theorem Joined.handle_registration
    (hjoined : Joined carname lowest highest socket link)
    (hcar : (CarMessage.car carname lowest highest).IsReadable)
    (hunread : link.handled = 0)
    (hmessage : link.session.messages[link.handled]? =
      some (.car carname lowest highest))
    (hopen : socket ∈ link.controller.registry.masterSet) (stale : Locals)
    (outcome : CallOutcome) :
    Joined carname lowest highest socket
      (link.handle socket (.car carname lowest highest) stale outcome) := by
  obtain ⟨hregistry, hevents⟩ := loopStep_message hcar hopen stale outcome
  have hquiet : (loopStep link.controller ((CarMessage.car carname lowest
      highest).arrival socket stale outcome)).2 = [] := hevents
  have hread : reportsOf (link.session.messages.take (link.handled + 1)) = [] := by
    rw [List.take_add_one, hmessage, hunread]
    rfl
  have hvacant : Vacant (.store 50 carname.chars) socket
      link.controller.registry.cars := by
    cases hjoined.view with
    | vacant hvacant hquiet => exact hvacant
    | record j car hown hname hsocket hpast hbelieves => omega
  have hown := @Vacant.register _ _ _ hvacant
    (registeredCar socket (.store 50 carname.chars) lowest highest stale.fresh)
    rfl rfl
  have hbelieves : Believes
      (registeredCar socket (.store 50 carname.chars) lowest highest stale.fresh)
      [] := ⟨rfl, by simp⟩
  refine { hjoined with orders := ?_, handled := ?_, view := ?_, removed := ?_ }
  · simp only [Link.handle, hquiet, ordersTo_nil, List.append_nil]
    exact hjoined.orders
  · exact (List.getElem?_eq_some_iff.mp hmessage).1
  · apply View.record link.controller.registry.cars.length
      (registeredCar socket (.store 50 carname.chars) lowest highest stale.fresh)
    · simp only [Link.handle, hregistry]
      exact hown
    · rfl
    · rfl
    · exact Nat.succ_pos link.handled
    · simp only [Link.handle, hread]
      exact hbelieves
  · have hnone := hjoined.removed
    rw [hunread, List.take_zero] at hnone
    have hzero : link.removed.length = 0 := Nat.le_zero.mp hnone
    simp only [Link.handle, hquiet, hread]
    simp [removals, hzero]

/-- The record remembers `Closing` exactly when that was reported last. -/
theorem Believes.closing_iff {car : ConnectedCar}
    {reports : List (CString 8 × CString 4)} (hbelieves : Believes car reports) :
    car.previousStatus = statusNames .Closing ↔
      (reports.map Prod.fst).getLast? = some (statusNames .Closing) := by
  rw [hbelieves.previous, List.getLast?_map]
  cases reports.getLast?.map Prod.fst with
  | none => decide
  | some statusStr => simp

theorem Joined.handle_report
    (hjoined : Joined carname lowest highest socket link)
    {shm : CarSharedData} (hreadable : shm.report.IsReadable)
    (hpast : 0 < link.handled)
    (hmessage : link.session.messages[link.handled]? = some shm.report)
    (hopen : socket ∈ link.controller.registry.masterSet) (stale : Locals)
    (outcome : CallOutcome) :
    Joined carname lowest highest socket
      (link.handle socket shm.report stale outcome) := by
  have hread : reportsOf (link.session.messages.take (link.handled + 1)) =
      reportsOf (link.session.messages.take link.handled) ++
        [(shm.status, shm.currentFloor)] := by
    rw [List.take_add_one, hmessage, reportsOf_append]
    rfl
  cases hjoined.view with
  | vacant hvacant hquiet =>
      rcases hquiet with hunread | hclosed
      · omega
      · exact absurd hopen hclosed
  | record j car hown hname hsocket hearlier hbelieves =>
      subst hsocket
      obtain ⟨hafter, hremoved, horders⟩ :=
        hown.handle_report hreadable hopen stale outcome
      refine { hjoined with orders := ?_, handled := ?_, view := ?_, removed := ?_ }
      · rw [horders]
        intro label hlabel
        rcases List.mem_append.mp hlabel with hold | hnew
        · exact hjoined.orders label hold
        · obtain ⟨stop, -, rfl⟩ := exists_stop_of_mem_answerTo hnew
          exact floorToString_isLabel stop.floor
      · exact (List.getElem?_eq_some_iff.mp hmessage).1
      · apply View.record j
          (recordAfter car shm.status shm.currentFloor shm.destinationFloor) hafter
        · rw [← hname]
          exact (recordAfter_identity car _ _ _).1
        · exact (recordAfter_identity car _ _ _).2
        · exact Nat.succ_pos link.handled
        · simp only [Link.handle, hread]
          exact .report car shm.status shm.currentFloor shm.destinationFloor _
      · rw [hremoved]
        simp only [Link.handle, hread, List.map_append, List.map_cons, List.map_nil,
          Succession.count_concat, List.length_append]
        have hone : car.queue.head?.toList.length ≤ 1 := by
          cases car.queue.head? <;> simp
        simp only [hbelieves.closing_iff]
        apply Nat.add_le_add hjoined.removed
        split
        · exact hone
        · exact Nat.le_refl 0

theorem Joined.handle_announcement
    (hjoined : Joined carname lowest highest socket link) {message : CarMessage}
    (hmode : message = .emergency ∨ message = .individualService)
    (hpast : 0 < link.handled)
    (hmessage : link.session.messages[link.handled]? = some message)
    (hopen : socket ∈ link.controller.registry.masterSet) (stale : Locals)
    (outcome : CallOutcome) :
    Joined carname lowest highest socket
      (link.handle socket message stale outcome) := by
  obtain ⟨hregistry, hremoved, horders⟩ :=
    link.handle_announcement hmode hopen stale outcome
  have hread : reportsOf (link.session.messages.take (link.handled + 1)) =
      reportsOf (link.session.messages.take link.handled) := by
    rw [List.take_add_one, hmessage, reportsOf_append]
    rcases hmode with rfl | rfl <;> exact List.append_nil _
  refine { hjoined with orders := ?_, handled := ?_, view := ?_, removed := ?_ }
  · rw [horders]
    exact hjoined.orders
  · exact (List.getElem?_eq_some_iff.mp hmessage).1
  · cases hjoined.view with
    | vacant hvacant hclosed =>
        rcases hclosed with hunread | hclosed
        · omega
        · exact absurd hopen hclosed
    | record j car hown hname hsocket hearlier hbelieves =>
        apply View.record j car _ hname hsocket (Nat.succ_pos link.handled)
        · simp only [Link.handle, hread]
          exact hbelieves
        · rw [hregistry]
          exact hown
  · rw [hremoved]
    simp only [Link.handle, hread]
    exact hjoined.removed

/-- Every step within the connection keeps the invariant. -/
theorem Joined.step (hcar : (CarMessage.car carname lowest highest).IsReadable)
    (hnonneg : 0 ≤ socket) (link : Link) (action : LinkAction)
    (hjoined : Joined carname lowest highest socket link)
    (hguard : WithinConnection (.store 50 carname.chars) socket link action) :
    Joined carname lowest highest socket (linkStep socket link action) := by
  cases action with
  | car action => exact hjoined.car hguard.1 hguard.2
  | client event => exact hjoined.client hnonneg hguard.1 hguard.2
  | hangUp => exact hjoined.hangUp
  | fails => exact hjoined.closes closesAtMost_fails
  | cutShort length body stale outcome =>
      exact hjoined.closes (closesAtMost_cutShort hguard.1 hguard.2 stale outcome)
  | handle stale outcome =>
      simp only [linkStep]
      split
      · next message hmessage =>
          split
          · next hopen =>
              have hreadable := hjoined.isReadable hcar hmessage
              rcases hjoined.session.message hmessage with ⟨hunread, rfl⟩ |
                ⟨hpast, ⟨shm, -, rfl⟩ | hmode⟩
              · rw [hjoined.carMessage] at hmessage ⊢
                exact hjoined.handle_registration hcar hunread hmessage hopen stale
                  outcome
              · exact hjoined.handle_report hreadable hpast hmessage hopen stale
                  outcome
              · exact hjoined.handle_announcement hmode hpast hmessage hopen stale
                  outcome
          · exact hjoined
      · exact hjoined

/-- The record is where the view of the car says that it is. -/
theorem Joined.exists_own (hjoined : Joined carname lowest highest socket link)
    {record : ConnectedCar} (hrecord : record ∈ link.controller.registry.cars)
    (hname : record.name = .store 50 carname.chars) :
    ∃ j, OwnRecord j link.controller.registry.cars record ∧
      record.connectionsocket = socket ∧ 0 < link.handled := by
  cases hjoined.view with
  | vacant hvacant hquiet => exact absurd hname (hvacant record hrecord).1
  | record j car hown hcarName hsocket hread hbelieves =>
      obtain rfl := hown.eq_of_clash hrecord (.inl (hname.trans hcarName.symm))
      exact ⟨j, hown, hsocket, hread⟩

theorem Connected.joined (hstart : Connected carname lowest highest socket link) :
    Joined carname lowest highest socket link where
  session := ⟨fun _ => hstart.idle, fun _ => hstart.unsaid,
    Or.inl ⟨hstart.unsaid, Or.inr hstart.place⟩⟩
  readable := ⟨hstart.now, hstart.past⟩
  carMessage := hstart.carMessage
  orders := by simp [hstart.noOrders]
  handled := by simp [hstart.unread]
  view := .vacant hstart.vacant (.inl hstart.unread)
  removed := by simp [hstart.noRemovals]

end Step

/-- What a report tells of the segment that the records keep. -/
def CarSharedData.shown (shm : CarSharedData) : CString 8 × CString 4 :=
  (shm.status, shm.currentFloor)

/-- The record under the name shows the last of these contents of the segment. -/
def ShowsPast (name : CString 50) (link : Link) (seen : List CarSharedData) : Prop :=
  ∀ car ∈ link.controller.registry.cars, car.name = name →
    Believes car (seen.map CarSharedData.shown)

section Past

variable {session : Session} {name : CString 50} {socket : Int} {link : Link}

theorem Spoken.reportsOf_take {snapshots : List CarSharedData}
    {closing : Option CarMessage} (hspoken : Spoken session snapshots closing)
    (n : Nat) :
    reportsOf (session.messages.take (n + 1)) =
      (snapshots.take n).map CarSharedData.shown := by
  have hclosing (k : Nat) : reportsOf (closing.toList.take k) = [] := by
    apply List.filterMap_eq_nil_iff.mpr
    intro message hmessage
    rcases hspoken.closing message
      (Option.mem_toList.mp (List.mem_of_mem_take hmessage)) with rfl | rfl <;> rfl
  have hreports (reported : List CarSharedData) :
      reportsOf (reported.map CarSharedData.report) =
        reported.map CarSharedData.shown := by
    rw [reportsOf, List.filterMap_map]
    exact congrFun List.filterMap_eq_map reported
  have hcar : reportsOf [session.tcp.carMessage] = [] := rfl
  rw [hspoken.messages, List.take_succ_cons, List.take_append, ← List.map_take,
    ← List.singleton_append, reportsOf_append, reportsOf_append, hcar, hreports,
    hclosing, List.nil_append, List.append_nil]

/-- The reports among the first messages of a session are contents that the
segment had in this order. -/
theorem InSession.exists_snapshots (hsession : InSession session) :
    ∃ snapshots : List CarSharedData, snapshots.Sublist session.history ∧
      ∀ n, reportsOf (session.messages.take n) =
        (snapshots.take (n - 1)).map CarSharedData.shown := by
  rcases hsession.said with ⟨hnone, -⟩ | ⟨snapshots, closing, hspoken, -⟩
  · refine ⟨[], List.nil_sublist _, fun n => ?_⟩
    rw [hnone, List.take_nil, List.take_nil]
    rfl
  · refine ⟨snapshots, hspoken.past, fun n => ?_⟩
    cases n with
    | zero => rfl
    | succ n => exact hspoken.reportsOf_take n

theorem View.believes (hview : View name socket link) {car : ConnectedCar}
    (hcar : car ∈ link.controller.registry.cars) (hname : car.name = name) :
    Believes car (reportsOf (link.session.messages.take link.handled)) := by
  cases hview with
  | vacant hvacant hquiet => exact absurd hname (hvacant car hcar).1
  | record j own hown hownName hsocket hread hbelieves =>
      rw [hown.eq_of_clash hcar (.inl (hname.trans hownName.symm))]
      exact hbelieves

/-- One link comes after another: more has been said, and more has been read. -/
structure ComesAfter (before after : Link) : Prop where
  said : before.session.messages <+: after.session.messages
  read : before.handled ≤ after.handled

theorem ComesAfter.step {before link : Link} (hlater : ComesAfter before link)
    {action : LinkAction} (hguard : WithinConnection name socket link action) :
    ComesAfter before (linkStep socket link action) := by
  cases action with
  | car action =>
      refine ⟨?_, hlater.read⟩
      simp only [linkStep, sessionStep, hguard.1, Bool.false_eq_true, if_false]
      exact hlater.said.trans (List.prefix_append _ _)
  | hangUp => exact ⟨hlater.said, hlater.read⟩
  | fails => exact ⟨hlater.said, hlater.read⟩
  | cutShort length body stale outcome => exact ⟨hlater.said, hlater.read⟩
  | client event => exact ⟨hlater.said, hlater.read⟩
  | handle stale outcome =>
      simp only [linkStep]
      split
      · split
        · exact ⟨hlater.said, Nat.le_succ_of_le hlater.read⟩
        · exact hlater
      · exact hlater

theorem comesAfter_of_along {actions : List LinkAction}
    (hguard : Along (linkStep socket) (WithinConnection name socket) link actions) :
    ComesAfter link (run (linkStep socket) link actions) :=
  @run_of_along _ _ _ (ComesAfter link) _ (fun _ _ hlater hstep => hlater.step hstep)
    _ ⟨List.prefix_refl _, Nat.le_refl _⟩ _ hguard

end Past

/-- Alpha has connected on socket 4; a call pad is on socket 5. -/
def connectedAlpha : Link where
  session := sessionStep (startSession (.store 256 "Alpha".toList)
    (floorToString 1) (floorToString 5) 0) idleNetwork
  handled := 0
  controller := run loopNext startController [.accepted 4, .accepted 5]
  orders := []
  removed := []

theorem connected_alpha : Connected (.store 256 "Alpha".toList) (floorToString 1)
    (floorToString 5) 4 connectedAlpha where
  place := rfl
  idle := rfl
  carMessage := rfl
  now := ⟨⟨by decide, by decide⟩, ⟨by decide, by decide⟩, ⟨by decide, by decide⟩⟩
  past := by
    intro shm hshm
    rw [List.mem_singleton.mp hshm]
    exact ⟨⟨by decide, by decide⟩, ⟨by decide, by decide⟩, ⟨by decide, by decide⟩⟩
  unsaid := rfl
  unread := rfl
  noOrders := rfl
  nonneg := by decide
  vacant := fun _ hother => absurd hother List.not_mem_nil
  noRemovals := rfl

/-- Alpha reports a status that has been put into its segment, and the
controller reads the report. -/
def reportsStatus (status : Status) : List LinkAction :=
  [.car (.external fun shm => { shm with status := statusNames status }),
    .car idleNetwork, .car idleNetwork, .handle blankLocals ⟨true, true, true⟩]

def alphaServes : List LinkAction :=
  [.car idleNetwork, .handle blankLocals ⟨true, true, true⟩,
    .handle blankLocals ⟨true, true, true⟩, .client (textFrame 5 "CALL 1 3")] ++
  reportsStatus .Closing ++ reportsStatus .Closed

/-- A call registers nobody. -/
theorem sparesName_call (name : CString 50) (state : LoopState) {text : String}
    (hcall : text.toList.take 4 = "CALL".toList ∧ IsText text.toList ∧
      text.length < 1024) :
    SparesName name state (textFrame 5 text) := by
  obtain ⟨hcommand, htext, hfits⟩ := hcall
  intro newName lowestFloor highestFloor hparse
  rw [show text.length = text.toList.length from String.length_toList.symm] at hparse hfits
  rw [Block.text_readBody _ htext hfits] at hparse
  exact absurd hparse (by simp [parseCommand, hcommand])

theorem withinConnection_alphaServes : Along (linkStep 4)
    (WithinConnection (.store 50 "Alpha".toList) 4) connectedAlpha alphaServes :=
  have hidle := keepsReadable_idleNetwork
  ⟨⟨rfl, hidle⟩, trivial, trivial, ⟨by decide, sparesName_call _ _ (by decide)⟩,
    ⟨rfl, fun _ hshm => hshm.showing _⟩, ⟨rfl, hidle⟩, ⟨rfl, hidle⟩, trivial,
    ⟨rfl, fun _ hshm => hshm.showing _⟩, ⟨rfl, hidle⟩, ⟨rfl, hidle⟩, trivial,
    trivial⟩

section Results

variable {carname : CString 256} {lowest highest : CString 4} {socket : Int}
  {link : Link}

/-- The steps may come in any order within a connection that began under a word
for a name and on a socket that nobody had, as long as words are left in the
segment and received, no other client takes the socket or the name, and no message
that is cut short spells a command.  What the controller's record shows of the car
is a content that the segment had at an earlier step; and of two looks at the
record the later one shows the same content or one that the segment had later. -/
theorem reads_are_monotonic (hname : IsOperand carname.chars)
    (hlowest : IsOperand lowest.chars) (hhighest : IsOperand highest.chars)
    (hstart : Connected carname lowest highest socket link)
    {first second : List LinkAction}
    (hguard : Along (linkStep socket)
      (WithinConnection (.store 50 carname.chars) socket) link (first ++ second)) :
    let middle := run (linkStep socket) link first
    let final := run (linkStep socket) middle second
    ∃ earlier later : List CarSharedData,
      (earlier ++ later).Sublist final.session.history ∧
      ShowsPast (.store 50 carname.chars) middle earlier ∧
      ShowsPast (.store 50 carname.chars) final (earlier ++ later) := by
  intro middle final
  obtain ⟨hfirst, hsecond⟩ := along_append.mp hguard
  have hcar : (CarMessage.car carname lowest highest).IsReadable :=
    ⟨hname, hlowest, hhighest⟩
  have hmiddle : Joined carname lowest highest socket middle :=
    run_of_along (Joined.step hcar hstart.nonneg) hstart.joined hfirst
  have hfinal : Joined carname lowest highest socket final :=
    run_of_along (Joined.step hcar hstart.nonneg) hmiddle hsecond
  have hlater : ComesAfter middle final := comesAfter_of_along hsecond
  obtain ⟨snapshots, hpast, hreports⟩ := hfinal.session.exists_snapshots
  have hread : middle.session.messages.take middle.handled =
      final.session.messages.take middle.handled := by
    obtain ⟨rest, hrest⟩ := hlater.said
    rw [← hrest, List.take_append_of_le_length hmiddle.handled]
  have hboth : snapshots.take (middle.handled - 1) ++
      (snapshots.take (final.handled - 1)).drop (middle.handled - 1) =
        snapshots.take (final.handled - 1) := by
    have hle := Nat.sub_le_sub_right hlater.read 1
    conv_lhs => rw [← Nat.min_eq_left hle, ← List.take_take, Nat.min_eq_left hle]
    exact List.take_append_drop _ _
  refine ⟨snapshots.take (middle.handled - 1),
    (snapshots.take (final.handled - 1)).drop (middle.handled - 1), ?_, ?_, ?_⟩
  · rw [hboth]
    exact (List.take_sublist _ _).trans hpast
  · intro car hmem hcarname
    rw [← hreports, ← hread]
    exact hmiddle.view.believes hmem hcarname
  · intro car hmem hcarname
    rw [hboth, ← hreports]
    exact hfinal.view.believes hmem hcarname

theorem reads_are_monotonic_alpha :
    let middle := run (linkStep 4) connectedAlpha
      (alphaServes.take 8)
    let final := run (linkStep 4) middle (alphaServes.drop 8)
    ∃ earlier later : List CarSharedData,
      (earlier ++ later).Sublist final.session.history ∧
      ShowsPast (.store 50 "Alpha".toList) middle earlier ∧
      ShowsPast (.store 50 "Alpha".toList) final (earlier ++ later) := by
  refine reads_are_monotonic ⟨by decide, by decide⟩ ⟨by decide, by decide⟩
    ⟨by decide, by decide⟩ connected_alpha ?_
  rw [List.take_append_drop]
  exact withinConnection_alphaServes

/-- No stop is dropped without a door cycle.  However the steps come within such a
connection, for every stop that the controller has dropped on the car's reports
the segment has shown the doors closing and then closed, each time anew.  Nothing
is said across a reconnect, where reports of the old connection may still be
unread when the car has registered again. -/
theorem no_stop_dropped_without_door_cycle (hname : IsOperand carname.chars)
    (hlowest : IsOperand lowest.chars) (hhighest : IsOperand highest.chars)
    (hstart : Connected carname lowest highest socket link)
    {actions : List LinkAction}
    (hguard : Along (linkStep socket)
      (WithinConnection (.store 50 carname.chars) socket) link actions) :
    let final := run (linkStep socket) link actions
    (Succession.repeated (statusNames .Closing) (statusNames .Closed)
      final.removed.length).Sublist (final.session.history.map (·.status)) := by
  intro final
  have hcar : (CarMessage.car carname lowest highest).IsReadable :=
    ⟨hname, hlowest, hhighest⟩
  have hfinal : Joined carname lowest highest socket final :=
    run_of_along (Joined.step hcar hstart.nonneg) hstart.joined hguard
  obtain ⟨snapshots, hpast, hreports⟩ := hfinal.session.exists_snapshots
  have hshown : ((snapshots.take (final.handled - 1)).map CarSharedData.shown).map
      Prod.fst = (snapshots.take (final.handled - 1)).map (·.status) :=
    List.map_map
  have hremoved := hfinal.removed
  rw [hreports, hshown] at hremoved
  have hsub : ((snapshots.take (final.handled - 1)).map (·.status)).Sublist
      (final.session.history.map (·.status)) :=
    ((List.take_sublist _ _).trans hpast).map _
  exact Succession.repeated_sublist_of_sublist (by decide) hsub hremoved

/-- Alpha has been to floor 1, so the stop there is dropped. -/
theorem no_stop_dropped_without_door_cycle_alpha :
    let final := run (linkStep 4) connectedAlpha alphaServes
    final.removed = [⟨1, .up⟩] ∧
      (Succession.repeated (statusNames .Closing) (statusNames .Closed)
        final.removed.length).Sublist (final.session.history.map (·.status)) :=
  ⟨by decide, no_stop_dropped_without_door_cycle ⟨by decide, by decide⟩
    ⟨by decide, by decide⟩ ⟨by decide, by decide⟩ connected_alpha
    withinConnection_alphaServes⟩

end Results

end Elevator
