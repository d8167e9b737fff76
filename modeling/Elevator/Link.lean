/-
A car and the controller, from the car's `connect` to its next.  Messages and
orders are under way between them while the threads of the car, other processes
and other clients go on.
-/
import Elevator.Session
import Elevator.Neighbours
import Elevator.IncompleteFrame

namespace Elevator

open CText Framing Transition

/-- The step gets as far as the two `recv` calls. -/
def TcpState.receives (state : TcpState) (outcome : TcpOutcome) : Bool :=
  state.transmits outcome state.statusMessage && outcome.nonblocking &&
    match state.pc with
    | .poll => state.car.data.emergencyMode ≠ 1 &&
        state.car.data.individualServiceMode ≠ 1 && state.car.shmSend = 1
    | .wait =>
        match outcome.wake with
        | .signalled => state.car.shmSend = 1
        | .timedOut => true
        | .failed => false
    | .report => true
    | _ => false

/-- The step takes what has been received off the connection. -/
def TcpState.takes (state : TcpState) : TcpAction → Bool
  | .tcp outcome =>
      state.receives outcome &&
        match outcome.reception with
        | .text _ => true
        | _ => false
  | _ => false

def removals (log : List ControllerEvent) : List QueueNode :=
  log.filterMap fun
    | .removed _ stop _ => some stop
    | _ => none

/-- A car with what it has said over the connection, how much of that the
controller has read, the controller, the orders under way to the car, and the
stops that were dropped on the car's reports. -/
structure Link where
  session : Session
  handled : Nat
  controller : LoopState
  orders : List (CString 4)
  removed : List QueueNode

/-- Who takes the next step: a thread of the car or another process, the
controller with the next message of the car, with as much of one as a failed
`send` has left on the wire, with the end of its connection, or with an event of
another client's. -/
inductive LinkAction where
  | car (action : TcpAction)
  | handle (stale : Locals) (outcome : CallOutcome)
  | cutShort (length : Nat) (body : List UInt8) (stale : Locals)
      (outcome : CallOutcome)
  | hangUp
  | fails
  | client (event : SocketEvent)

def CarMessage.arrival (message : CarMessage) (socket : Int) (stale : Locals)
    (outcome : CallOutcome) : SocketEvent :=
  .readable socket (.frame message.text.length (bytesOf message.text)) stale outcome

/-- The controller reads a message of the car, which is the client on `socket`. -/
def Link.handle (link : Link) (socket : Int) (message : CarMessage)
    (stale : Locals) (outcome : CallOutcome) : Link :=
  let after := loopStep link.controller (message.arrival socket stale outcome)
  { link with
    handled := link.handled + 1
    controller := after.1
    orders := link.orders ++ ordersTo socket after.2
    removed := link.removed ++ removals after.2 }

def linkStep (socket : Int) (link : Link) : LinkAction → Link
  | .car action =>
      { link with
        session := sessionStep link.session action
        orders := if link.session.tcp.takes action then link.orders.tail
          else link.orders }
  | .handle stale outcome =>
      match link.session.messages[link.handled]? with
      | some message =>
          if socket ∈ link.controller.registry.masterSet then
            link.handle socket message stale outcome
          else link
      | none => link
  | .cutShort length body stale outcome =>
      let after := loopStep link.controller
        (.readable socket (.frame length body) stale outcome)
      { link with
        controller := after.1
        orders := link.orders ++ ordersTo socket after.2
        removed := link.removed ++ removals after.2 }
  | .hangUp =>
      { link with
        controller := loopNext link.controller
          (.readable socket .hangUp blankLocals ⟨true, true, true⟩) }
  | .fails =>
      { link with
        controller := loopNext link.controller
          (.readable socket .failed blankLocals ⟨true, true, true⟩) }
  | .client event =>
      let after := loopStep link.controller event
      { link with
        controller := after.1
        orders := link.orders ++ ordersTo socket after.2 }

/-- The step belongs to the connection: the car does not connect anew, other
processes leave words in the segment and what is received is a word, no other
client uses the car's socket or registers under its name, and what is left of a
message that has been cut short spells no command. -/
def WithinConnection (name : CString 50) (socket : Int) (link : Link) :
    LinkAction → Prop
  | .car action => link.session.tcp.connects action = false ∧ KeepsReadable action
  | .client event => event.socket ≠ socket ∧ SparesName name link.controller event
  | .cutShort length body _ _ => Incomplete length body ∧
      ¬ SpellsCommand link.controller.buffer length body
  | _ => True

/-- Orders are read whole and in turn: what the thread takes off the connection is
the first one under way.  On the bytes of the connection this is `WholeFrame`. -/
def ReadsWholeOrders (link : Link) : LinkAction → Prop
  | .car (.tcp outcome) => link.session.tcp.takes (.tcp outcome) = true →
      ∃ label ∈ link.orders.head?, outcome.reception = .text (some label)
  | _ => True

/-- The car has just connected, and nobody has its name or its socket. -/
structure Connected (carname : CString 256) (lowest highest : CString 4)
    (socket : Int) (link : Link) : Prop where
  place : link.session.tcp.pc = .register
  idle : link.session.tcp.connected = false
  carMessage : link.session.tcp.carMessage = .car carname lowest highest
  now : Readable link.session.tcp.car.data
  past : ∀ shm ∈ link.session.history, Readable shm
  unsaid : link.session.messages = []
  unread : link.handled = 0
  noOrders : link.orders = []
  nonneg : 0 ≤ socket
  vacant : Vacant (.store 50 carname.chars) socket link.controller.registry.cars
  noRemovals : link.removed = []

/-- The controller closes sockets at most; the records, the orders under way and
the car are as they were. -/
def ClosesAtMost (link after : Link) : Prop :=
  ∃ controller : LoopState, after = { link with controller := controller } ∧
    controller.registry.cars = link.controller.registry.cars ∧
    ∀ socket ∈ controller.registry.masterSet,
      socket ∈ link.controller.registry.masterSet

section Breaking

variable {socket : Int} {link : Link}

theorem closesAtMost_fails : ClosesAtMost link (linkStep socket link .fails) := by
  refine ⟨_, rfl, ?_, ?_⟩
  · simp only [loopNext, loopStep, ControllerState.drop]
    split <;> rfl
  · intro other hother
    simp only [loopNext, loopStep, ControllerState.drop] at hother
    split at hother
    · exact hother
    · exact List.mem_of_mem_filter hother

theorem closesAtMost_cutShort {length : Nat} {body : List UInt8}
    (hincomplete : Incomplete length body)
    (hspells : ¬ SpellsCommand link.controller.buffer length body) (stale : Locals)
    (outcome : CallOutcome) :
    ClosesAtMost link (linkStep socket link (.cutShort length body stale outcome)) := by
  have hnone : parseCommand (receive link.controller socket length body).buffer.text
      stale = none :=
    (parseCommand_incomplete_iff link.controller.buffer hincomplete stale).mpr hspells
  by_cases hopen : socket ∈ link.controller.registry.masterSet
  · refine ⟨receive link.controller socket length body, ?_, receive_cars .., ?_⟩
    · simp only [linkStep, loopStep, if_neg (not_not.mpr hopen), handleFrame, hnone,
        ordersTo_nil, List.append_nil, removals, List.filterMap_nil]
    · intro other hother
      simp only [receive, ControllerState.drop] at hother
      split_ifs at hother <;> simp_all
  · refine ⟨link.controller, ?_, rfl, fun _ hother => hother⟩
    simp only [linkStep, loopStep, if_pos hopen, ordersTo_nil, List.append_nil, removals,
      List.filterMap_nil]

end Breaking

section Receiving

variable {state : TcpState} {outcome : TcpOutcome}

/-- The car after the two `recv` calls, if the thread gets there. -/
def TcpState.received (state : TcpState) (outcome : TcpOutcome) : CarState :=
  if state.transmits outcome state.statusMessage && outcome.nonblocking then
    match outcome.reception with
    | .text floor => takeOrder state.car floor
    | _ => state.car
  else state.car

theorem received_of_closed (hclosed : state.socketOpen = false) :
    state.received outcome = state.car := by
  simp [TcpState.received, TcpState.transmits, hclosed]

theorem reportStatus_car :
    (reportStatus state outcome).1.car = state.received outcome := by
  cases hsends : state.transmits outcome state.statusMessage with
  | false => simp [reportStatus, TcpState.received, hsends, TcpState.hangUp]
  | true =>
      cases hnonblocking : outcome.nonblocking with
      | false =>
          simp [reportStatus, TcpState.received, hsends, hnonblocking,
            TcpState.hangUp]
      | true =>
          cases hreception : outcome.reception <;>
            simp [reportStatus, TcpState.received, hsends, hnonblocking, hreception,
              TcpState.hangUp, TcpState.again]

theorem waitForSend_car :
    (waitForSend state outcome).1.car =
      if state.car.shmSend = 1 then state.received outcome else state.car := by
  unfold waitForSend
  by_cases hsend : state.car.shmSend = 1
  · rw [if_neg (not_not.mpr hsend), if_pos hsend]
    exact reportStatus_car
  · rw [if_pos hsend, if_neg hsend]

/-- A closed socket brings nothing, so what follows an announcement leaves the
car alone. -/
theorem announce_car (message : CarMessage)
    {next : TcpState → TcpState × List TcpEvent}
    (hnext : ∀ after, after.socketOpen = false → (next after).1.car = after.car) :
    (announce state outcome message next).1.car = state.car := by
  unfold announce
  split
  · exact hnext _ rfl
  · rfl

theorem waitForSend_car_of_closed (hclosed : state.socketOpen = false) :
    (waitForSend state outcome).1.car = state.car := by
  rw [waitForSend_car, received_of_closed hclosed, ite_self]

theorem checkService_car :
    (checkService state outcome).1.car =
      if state.car.data.individualServiceMode ≠ 1 ∧ state.car.shmSend = 1 then
        state.received outcome
      else state.car := by
  unfold checkService
  by_cases hservice : state.car.data.individualServiceMode = 1
  · rw [if_pos hservice, if_neg fun h => h.1 hservice]
    exact announce_car _ fun _ hclosed => waitForSend_car_of_closed hclosed
  · rw [if_neg hservice]
    simp only [hservice, ne_eq, not_false_eq_true, true_and]
    exact waitForSend_car

theorem checkService_car_of_closed (hclosed : state.socketOpen = false) :
    (checkService state outcome).1.car = state.car := by
  rw [checkService_car, received_of_closed hclosed, ite_self]

theorem pollStep_car :
    (pollStep state outcome).1.car =
      if state.car.data.emergencyMode ≠ 1 ∧
          state.car.data.individualServiceMode ≠ 1 ∧ state.car.shmSend = 1 then
        state.received outcome
      else state.car := by
  unfold pollStep
  by_cases hemergency : state.car.data.emergencyMode = 1
  · rw [if_pos hemergency, if_neg fun h => h.1 hemergency]
    exact announce_car _ fun _ hclosed => checkService_car_of_closed hclosed
  · rw [if_neg hemergency]
    simp only [hemergency, ne_eq, not_false_eq_true, true_and]
    exact checkService_car

/-- The thread changes the car exactly where it gets as far as the two `recv`
calls, and by what it has received there. -/
theorem tcpStep_received :
    (tcpStep state outcome).1.car =
      if state.receives outcome then state.received outcome else state.car := by
  have hpast (here : Bool) : (if state.transmits outcome state.statusMessage &&
      outcome.nonblocking && here then state.received outcome else state.car) =
        if here then state.received outcome else state.car := by
    cases here with
    | false => simp
    | true =>
        rw [Bool.and_true, if_pos rfl]
        split
        · rfl
        · next hcut => simp [TcpState.received, hcut]
  unfold TcpState.receives
  rw [hpast]
  cases hpc : state.pc with
  | connect => simp [tcpStep, hpc]
  | register => simp [tcpStep, hpc, registerStep_car]
  | poll => simp [tcpStep, hpc, pollStep_car, and_assoc]
  | report => simp [tcpStep, hpc, reportStatus_car]
  | wait =>
      cases hwake : outcome.wake with
      | signalled => simp [tcpStep, hpc, waitStep, hwake, waitForSend_car]
      | timedOut => simp [tcpStep, hpc, waitStep, hwake, reportStatus_car]
      | failed => simp [tcpStep, hpc, waitStep, hwake]

/-- So an order leaves the connection exactly when the car takes it. -/
theorem tcpStep_takes {floor : Option (CString 4)}
    (hreception : outcome.reception = .text floor) :
    (tcpStep state outcome).1.car =
      if state.takes (.tcp outcome) then takeOrder state.car floor
      else state.car := by
  rw [tcpStep_received]
  have htakes : state.takes (.tcp outcome) = state.receives outcome := by
    simp [TcpState.takes, hreception]
  rw [htakes]
  cases hreceives : state.receives outcome with
  | false => rfl
  | true =>
      simp only [TcpState.receives, Bool.and_eq_true] at hreceives
      simp only [if_true, TcpState.received, Bool.and_eq_true, hreceives.1,
        and_self, hreception]

/-- Without an order the car stays as it is. -/
theorem tcpStep_takes_nothing (htaken : state.takes (.tcp outcome) = false) :
    (tcpStep state outcome).1.car = state.car := by
  cases hreception : outcome.reception with
  | text floor => rw [tcpStep_takes hreception, htaken, if_neg Bool.false_ne_true]
  | nothing | broken =>
      rcases (tcpStep_car state outcome).1 with hcar | ⟨floor, htext, -⟩
      · exact hcar
      · rw [hreception] at htext
        cases htext

theorem readsWholeOrders_of_nothing (link : Link)
    (hnothing : outcome.reception = .nothing) :
    ReadsWholeOrders link (.car (.tcp outcome)) := by
  intro htakes
  simp [TcpState.takes, hnothing] at htakes

/-- The car takes the first order under way, or none. -/
theorem linkStep_tcp {socket : Int} {link : Link}
    (hwhole : ReadsWholeOrders link (.car (.tcp outcome))) :
    let after := linkStep socket link (.car (.tcp outcome))
    after.session.tcp.car = link.session.tcp.car ∧ after.orders = link.orders ∨
      ∃ label rest, link.orders = label :: rest ∧ after.orders = rest ∧
        after.session.tcp.car = receiveFloor link.session.tcp.car label := by
  intro after
  cases htaken : link.session.tcp.takes (.tcp outcome) with
  | false =>
      have hcar : after.session.tcp.car = link.session.tcp.car :=
        tcpStep_takes_nothing htaken
      exact Or.inl ⟨hcar, by simp [after, linkStep, htaken]⟩
  | true =>
      obtain ⟨label, hlabel, hreception⟩ := hwhole htaken
      obtain ⟨rest, horders⟩ := List.head?_eq_some_iff.mp hlabel
      have hcar := @tcpStep_takes link.session.tcp outcome _ hreception
      rw [htaken, if_pos rfl] at hcar
      exact Or.inr ⟨label, rest, horders, by simp [after, linkStep, htaken, horders],
        hcar⟩

end Receiving

section Records

variable {j : Nat} {cars : List ConnectedCar} {car : ConnectedCar}

/-- The loop drops the head of the queue, and only when the doors have closed. -/
theorem removals_statusLoop (hown : OwnRecord j cars car) (socket : Int)
    (reported : CString 4) (k : Nat) (sends : Bool) :
    removals (statusLoop socket car.name reported cars k sends).2.2 =
      if doorsClosed car then car.queue.head?.toList else [] := by
  obtain ⟨before, behind, rfl, hbefore, hbehind⟩ := hown.split
  have hnone : firstNamed behind car.name = none :=
    List.find?_eq_none.mpr fun other hother => by
      simpa using (hbehind other hother).1
  have hquiet := @statusLoop_eq_self car.name behind (by simp [hnone]) socket
    reported (k + before.length + 1) false
  have hfreed (i : Nat) (log : List ControllerEvent) :
      removals ((removeFromCarQueue car).2.toList.map
          (fun stop => ControllerEvent.removed i stop reported) ++ log) =
        car.queue.head?.toList ++ removals log := by
    cases hqueue : car.queue <;> simp [removeFromCarQueue, hqueue, removals]
  rw [statusLoop_append socket car.name reported fun other hother =>
    (hbefore other hother).1]
  simp only [statusLoop, if_pos, hquiet]
  split_ifs <;> simp_all [removals]

theorem exists_stop_of_mem_answerTo {statusStr : CString 8} {sends : Bool}
    {label : CString 4} (hlabel : label ∈ answerTo car statusStr sends) :
    ∃ stop ∈ car.queue.tail, label = floorToString stop.floor := by
  unfold answerTo nextOrder at hlabel
  split_ifs at hlabel with hclosed hnext
  · exact absurd hlabel List.not_mem_nil
  · obtain ⟨stop, hstop, hfloor⟩ := exists_stop_of_getNextDestination hnext
    rw [removeFromCarQueue_queue] at hstop
    exact ⟨stop, hstop, by rw [List.mem_singleton.mp hlabel, hfloor]⟩
  · exact absurd hlabel List.not_mem_nil

/-- After a report of its own the record shows it.  The head of its queue has been
dropped if the doors have gone from closing to closed, and what has been ordered
is the floor of a stop that is left. -/
theorem OwnRecord.own_report {state : ControllerState}
    (hown : OwnRecord j state.cars car) (statusStr : CString 8)
    (currentFloor destinationFloor : CString 4) (sends : Bool) :
    let after := statusStep state car.connectionsocket statusStr currentFloor
      destinationFloor sends
    OwnRecord j after.1.cars
        (recordAfter car statusStr currentFloor destinationFloor) ∧
      removals after.2 =
        (if car.previousStatus = statusNames .Closing ∧
          statusStr = statusNames .Closed then car.queue.head?.toList else []) ∧
      ∀ label ∈ ordersTo car.connectionsocket after.2,
        ∃ stop ∈ car.queue.tail, label = floorToString stop.floor := by
  intro after
  have hname := controllerGetNameBySocket_own hown
  refine ⟨hown.of_identity (statusStep_identity _ _ _ _ _ _)
    (statusStep_record hown statusStr currentFloor destinationFloor sends), ?_, ?_⟩
  · have hreported := hown.of_identity
      (reportedCars_map _ _ _ _ _ _ (fun _ _ => rfl) (fun _ _ => rfl)
        fun _ _ => rfl)
      (reportedCars_own hown statusStr currentFloor destinationFloor)
    have hdropped := removals_statusLoop hreported car.connectionsocket currentFloor
      0 sends
    simp only [doorsClosed_reportedCar] at hdropped
    rw [show after.2 = _ from statusStep_events hname]
    exact hdropped
  · intro label hlabel
    rw [hown.ordersTo_report, if_pos rfl] at hlabel
    exact exists_stop_of_mem_answerTo hlabel

end Records

end Elevator
