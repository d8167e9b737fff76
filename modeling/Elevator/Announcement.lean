/-
Cars that have announced themselves out of service.  The controller does nothing
on the announcement and forgets the car when its connection ends; which cars it
has heard from in between is kept beside its state here.
-/
import Elevator.CarTcp
import Elevator.Connections
import Elevator.Dispatch

namespace Elevator

open CText Framing Least Transition

/-- The messages by which a car goes out of service. -/
def IsAnnouncement (length : Nat) (body : List UInt8) : Prop :=
  ∃ message ∈ [CarMessage.emergency, CarMessage.individualService],
    length = message.text.length ∧ body.take length = bytesOf message.text

instance (length : Nat) (body : List UInt8) :
    Decidable (IsAnnouncement length body) :=
  inferInstanceAs (Decidable (∃ message ∈
    [CarMessage.emergency, CarMessage.individualService], _))

/-- A car that is out of service, by its name, and its connection while that is
open. -/
structure Announcement where
  name : CString 50
  socket : Option Int
deriving DecidableEq, Repr

def announcements (cars : List ConnectedCar) (socket : Int) :
    List Announcement :=
  (cars.filter (·.connectionsocket = socket)).map fun car => ⟨car.name, some socket⟩

/-- What an event says about who is out of service: an announcement on a car's
socket adds the car, and a registration takes out who bears the name. -/
def noted (state : LoopState) (announced : List Announcement) :
    SocketEvent → List Announcement
  | .readable socket (.frame length body) stale _ =>
      if socket ∉ state.registry.masterSet then announced
      else if IsAnnouncement length body then
        announced ++ announcements state.registry.cars socket
      else
        match parseCommand (state.buffer.readBody length body).text stale with
        | some (.car name _ _) => announced.filter (·.name ≠ name)
        | _ => announced
  | _ => announced

/-- The controller with the cars that are out of service, one event on. -/
def announcingNext (state : LoopState × List Announcement) (event : SocketEvent) :
    LoopState × List Announcement :=
  let after := loopNext state.1 event
  (after, (noted state.1 state.2 event).map fun announcement =>
    { announcement with
      socket := announcement.socket.filter (· ∈ after.registry.masterSet) })

/-- A message gives no car that is out of service passengers: it is no answer
with its name, and no order on its connection. -/
def SparesAnnounced (announced : List Announcement) (receiver : Int) :
    ControllerMessage → Prop
  | .car selectedCar =>
      ∀ announcement ∈ announced, announcement.name ≠ selectedCar
  | .floor _ =>
      ∀ announcement ∈ announced, announcement.socket ≠ some receiver
  | .unavailable => True

instance (announced : List Announcement) (receiver : Int) :
    (message : ControllerMessage) →
      Decidable (SparesAnnounced announced receiver message)
  | .car _ => inferInstanceAs (Decidable (∀ announcement ∈ announced, _))
  | .floor _ => inferInstanceAs (Decidable (∀ announcement ∈ announced, _))
  | .unavailable => inferInstanceAs (Decidable True)

/-- Everything that is sent on an event spares them. -/
def Spared (state : LoopState × List Announcement) (event : SocketEvent) : Prop :=
  ∀ output ∈ (loopStep state.1 event).2,
    match output with
    | .sent receiver message => SparesAnnounced state.2 receiver message
    | _ => True

instance (state : LoopState × List Announcement) (event : SocketEvent) :
    Decidable (Spared state event) :=
  @List.decidableBAll _ _ (fun output => by
    cases output <;> dsimp only <;> infer_instance) _

/-- With the stops of the request in its queue an order is due to the car. -/
def OrderFollows (car : ConnectedCar) (sourceFloor destFloor : Int) : Prop :=
  CallOrderDue (addToCarQueue true car sourceFloor destFloor).1

/-- The answer to a call that the car is taken for can be sent: the caller's
socket is open, and it is not the one that has just been closed on an order. -/
def Answerable (registry : ControllerState) (socket : Int) (car : ConnectedCar)
    (sourceFloor destFloor : Int) (outcome : CallOutcome) : Prop :=
  outcome.replySent = true ∧ socket ∈ registry.masterSet ∧
    ¬ (OrderFollows car sourceFloor destFloor ∧
      controllerGetSocketByName registry.cars car.name = socket ∧
      outcome.orderSent = false)

/-- A command passes the announced cars over.  A call is for the first of the
records that serve both floors with the least score: where its answer can be
sent, this one does not bear an announced name, and an order that follows and can
be sent is not for an announced connection. -/
def CommandPassesOver (registry : ControllerState)
    (announced : List Announcement) (socket : Int) (outcome : CallOutcome) :
    Command → Prop
  | .call source destination =>
      let sourceFloor := stringToFloor source
      let destFloor := stringToFloor destination
      ∀ record car, FirstLeast (Serves · sourceFloor destFloor)
          (distanceScore · sourceFloor destFloor) registry.cars record car →
        distanceScore car sourceFloor destFloor < 100 → outcome.allocated = true →
        let carSocket := controllerGetSocketByName registry.cars car.name
        (Answerable registry socket car sourceFloor destFloor outcome →
          ∀ announcement ∈ announced, announcement.name ≠ car.name) ∧
        (OrderFollows car sourceFloor destFloor → carSocket ∈ registry.masterSet →
          outcome.orderSent = true →
          ∀ announcement ∈ announced, announcement.socket ≠ some carSocket)
  | .car _ _ _ => True
  | .status statusStr _ _ =>
      outcome.orderSent = true → socket ∈ registry.masterSet →
        ∀ name ∈ controllerGetNameBySocket registry.cars socket,
          ∀ car ∈ firstNamed registry.cars name, OrderDue statusStr car →
            ∀ announcement ∈ announced, announcement.socket ≠ some socket

/-- The event does not lead the controller to a car that is out of service. -/
def PassesOver (state : LoopState × List Announcement) : SocketEvent → Prop
  | .readable socket (.frame length body) stale outcome =>
      socket ∈ state.1.registry.masterSet →
        let received := receive state.1 socket length body
        ∀ command ∈ parseCommand received.buffer.text stale,
          CommandPassesOver received.registry state.2 socket outcome command
  | _ => True

section Call

variable {state : ControllerState}

/-- What is sent on a call: the order, if it is due, and the answer. -/
theorem sent_callStep_iff
    (hsockets : ∀ car ∈ state.cars, 0 ≤ car.connectionsocket)
    (socket receiver : Int) (source destination : CString 4)
    (outcome : CallOutcome) (message : ControllerMessage) :
    .sent receiver message ∈
        (callStep state socket source destination outcome).2 ↔
      (outcome.orderSent = true ∧
        receiver = orderSocket state.cars (stringToFloor source)
          (stringToFloor destination) ∧
        ∃ label ∈ callOrder state.cars (stringToFloor source)
          (stringToFloor destination) outcome.allocated,
            message = .floor label) ∨
      (outcome.replySent = true ∧ receiver = socket ∧
        message = match bestCar state.cars (stringToFloor source)
            (stringToFloor destination) with
          | some (_, car) =>
              if outcome.allocated then .car car.name else .unavailable
          | none => .unavailable) := by
  rcases outcome with ⟨allocated, orderSent, replySent⟩
  cases hbest : bestCar state.cars (stringToFloor source)
      (stringToFloor destination) with
  | none =>
      rw [(callStep_refused socket _ (Or.inl hbest)).2]
      have hnone : callOrder state.cars (stringToFloor source)
          (stringToFloor destination) allocated = none := by
        simp [callOrder, hbest]
      cases replySent <;> simp [hnone]
  | some found =>
      obtain ⟨record, car⟩ := found
      cases allocated with
      | false =>
          rw [(callStep_refused socket _ (Or.inr rfl)).2]
          have hnone := callOrder_refused state.cars (stringToFloor source)
            (stringToFloor destination)
          cases replySent <;> simp [hnone]
      | true =>
          have hold := getElem?_of_bestCar hbest
          have hidentity := addToCarQueue_identity true car
            (stringToFloor source) (stringToFloor destination)
          have hselected := sendNextDestination_selected hsockets hold hidentity
            orderSent
          have hnonneg := controllerGetSocketByName_nonneg hsockets
            ⟨car, List.mem_of_getElem? hold, rfl⟩
          have hfound : controllerGetSocketByName state.cars car.name ≠ -1 := by
            omega
          have hsent := mem_sendNextDestination_iff hold hidentity orderSent
            (.sent receiver message)
          rw [orderSocket_eq hbest, callOrder_eq hbest]
          simp only [callStep, handleElevatorCall, hbest, addToCarQueue_allocated,
            if_true, hselected]
          cases replySent <;>
            simp [hsent, CallOrderDue, hfound, and_assoc, and_left_comm]

theorem sendable_orderSent_iff (state : ControllerState) (socket : Int)
    (source destination : CString 4) (outcome : CallOutcome) :
    (sendable state socket source destination outcome).orderSent = true ↔
      outcome.orderSent = true ∧ orderSocket state.cars (stringToFloor source)
        (stringToFloor destination) ∈ state.masterSet := by
  simp [sendable]

theorem callOrder_ne_none_iff {sourceFloor destFloor : Int} {record : Nat}
    {car : ConnectedCar}
    (hbest : bestCar state.cars sourceFloor destFloor = some (record, car)) :
    callOrder state.cars sourceFloor destFloor true ≠ none ↔
      OrderFollows car sourceFloor destFloor := by
  rw [callOrder_eq hbest]
  split
  · next hdue => exact iff_of_true (Option.some_ne_none _) hdue
  · next hdue => exact iff_of_false (fun hne => hne rfl) hdue

theorem sendable_replySent_iff
    (hsockets : ∀ car ∈ state.cars, 0 ≤ car.connectionsocket) (socket : Int)
    (source destination : CString 4) {outcome : CallOutcome} {record : Nat}
    {car : ConnectedCar} (hbest : bestCar state.cars (stringToFloor source)
      (stringToFloor destination) = some (record, car))
    (hallocated : outcome.allocated = true) :
    (sendable state socket source destination outcome).replySent = true ↔
      Answerable state socket car (stringToFloor source)
        (stringToFloor destination) outcome := by
  have hset (sent : Bool) := @callStep_masterSet state socket source destination
    ⟨outcome.allocated, sent, true⟩ hsockets
  simp only [if_true, hallocated, orderSocket_eq hbest] at hset
  simp only [sendable, Bool.and_eq_true, decide_eq_true_eq, hallocated, hset,
    Answerable, orderSocket_eq hbest]
  refine and_congr_right fun _ => ?_
  split
  · next hfails =>
      -- the order is due and cannot go out, so its socket has been closed
      simp only [decide_not, List.mem_filter, Bool.not_eq_true',
        decide_eq_false_iff_not]
      refine and_congr_right fun hopen => not_congr ?_
      constructor
      · rintro rfl
        exact ⟨(callOrder_ne_none_iff hbest).mp hfails.1, rfl,
          by simpa [hopen] using hfails.2⟩
      · exact fun hclosed => hclosed.2.1.symm
  · next hgoes =>
      refine (and_iff_left_of_imp fun hopen hclosed => hgoes ?_).symm
      exact ⟨(callOrder_ne_none_iff hbest).mpr hclosed.1, by simp [hclosed.2.2]⟩

/-- A call spares the announced cars exactly when it passes them over. -/
theorem spares_call_iff
    (hsockets : ∀ car ∈ state.cars, 0 ≤ car.connectionsocket)
    (announced : List Announcement) (socket : Int)
    (source destination : CString 4) (outcome : CallOutcome) :
    (∀ receiver message, .sent receiver message ∈
        (callStep state socket source destination
          (sendable state socket source destination outcome)).2 →
        SparesAnnounced announced receiver message) ↔
      CommandPassesOver state announced socket outcome
        (.call source destination) := by
  have hsame : (sendable state socket source destination outcome).allocated =
      outcome.allocated := rfl
  simp only [sent_callStep_iff hsockets, CommandPassesOver, hsame]
  constructor
  · intro hspares record car hleast hscore hallocated
    have hbest := (bestCar_eq_some_iff state.cars record car).mpr ⟨hleast, hscore⟩
    constructor
    · intro hreply
      exact hspares socket (.car car.name) (Or.inr
        ⟨(sendable_replySent_iff hsockets _ _ _ hbest hallocated).mpr hreply, rfl,
          by rw [hbest, hallocated]; rfl⟩)
    · intro hdue hopen hsent
      rw [← callOrder_ne_none_iff hbest, ← hallocated] at hdue
      rw [← orderSocket_eq hbest] at hopen ⊢
      obtain ⟨label, hlabel⟩ := Option.ne_none_iff_exists'.mp hdue
      exact hspares _ (.floor label)
        (Or.inl ⟨(sendable_orderSent_iff _ _ _ _ _).mpr ⟨hsent, hopen⟩, rfl,
          label, hlabel, rfl⟩)
  · intro hpasses receiver message hmessage
    cases hbest : bestCar state.cars (stringToFloor source)
        (stringToFloor destination) with
    | none =>
        rcases hmessage with ⟨-, -, label, hlabel, -⟩ | ⟨-, -, rfl⟩
        · simp [callOrder, hbest] at hlabel
        · rw [hbest]
          trivial
    | some found =>
        obtain ⟨record, car⟩ := found
        obtain ⟨hleast, hscore⟩ := (bestCar_eq_some_iff state.cars record car).mp hbest
        cases hallocated : outcome.allocated with
        | false =>
            rcases hmessage with ⟨-, -, label, hlabel, -⟩ | ⟨-, -, rfl⟩
            · rw [hallocated, callOrder_refused] at hlabel
              cases hlabel
            · rw [hbest, hallocated]
              trivial
        | true =>
            obtain ⟨hreply, horder⟩ := hpasses record car hleast hscore hallocated
            rcases hmessage with ⟨hsent, rfl, label, hlabel, rfl⟩ | ⟨hsent, rfl, rfl⟩
            · obtain ⟨hsent, hopen⟩ := (sendable_orderSent_iff _ _ _ _ _).mp hsent
              rw [orderSocket_eq hbest] at hopen ⊢
              refine horder ((callOrder_ne_none_iff hbest).mp ?_) hopen hsent
              rw [← hallocated]
              exact Option.ne_none_iff_exists'.mpr ⟨label, hlabel⟩
            · rw [hbest, hallocated]
              exact hreply
                ((sendable_replySent_iff hsockets _ _ _ hbest hallocated).mp hsent)

theorem spares_status_iff (announced : List Announcement) (socket : Int)
    (statusStr : CString 8) (currentFloor destinationFloor : CString 4)
    (outcome : CallOutcome) :
    (∀ receiver message, .sent receiver message ∈
        (statusStep state socket statusStr currentFloor destinationFloor
          (outcome.orderSent && decide (socket ∈ state.masterSet))).2 →
        SparesAnnounced announced receiver message) ↔
      CommandPassesOver state announced socket outcome
        (.status statusStr currentFloor destinationFloor) := by
  cases hname : controllerGetNameBySocket state.cars socket with
  | none => simp [statusStep_none hname, CommandPassesOver, hname]
  | some name =>
      simp only [sent_statusStep_iff _ _ _ _ _ _ hname, CommandPassesOver, hname,
        Bool.and_eq_true, decide_eq_true_eq]
      constructor
      · intro hspares hsent hopen other hother car hcar hdue
        obtain rfl : name = other := Option.some.inj hother
        exact hspares socket (.floor _) ⟨car, hcar, hdue, ⟨hsent, hopen⟩, rfl, rfl⟩
      · rintro hpasses receiver message ⟨car, hcar, hdue, ⟨hsent, hopen⟩, rfl, rfl⟩
        exact hpasses hsent hopen name rfl car hcar hdue

end Call

theorem forall_sent_iff {P : Int → ControllerMessage → Prop}
    (outputs : List ControllerEvent) :
    (∀ output ∈ outputs, match output with
      | .sent receiver message => P receiver message
      | _ => True) ↔
      ∀ receiver message, .sent receiver message ∈ outputs → P receiver message := by
  constructor
  · exact fun h receiver message hsent => h _ hsent
  · intro h output houtput
    cases output with
    | sent receiver message => exact h receiver message houtput
    | assigned record sourceFloor destFloor => trivial
    | removed record stop reported => trivial

/-- One event spares the announced cars exactly when it passes them over. -/
theorem spared_iff {state : LoopState} (announced : List Announcement)
    (hsockets : ∀ car ∈ state.registry.cars, 0 ≤ car.connectionsocket)
    (event : SocketEvent) :
    Spared (state, announced) event ↔ PassesOver (state, announced) event := by
  rw [Spared, forall_sent_iff]
  cases event with
  | accepted socket =>
      simp only [loopStep, PassesOver]
      split <;> simp
  | readable socket arrival stale outcome =>
      by_cases hopen : socket ∈ state.registry.masterSet
      · cases arrival with
        | again => simp [loopStep, hopen, PassesOver]
        | hangUp => simp [loopStep, hopen, PassesOver, controllerStep]
        | failed => simp [loopStep, hopen, PassesOver]
        | frame length body =>
            have hreceived : ∀ car ∈ (receive state socket length
                body).registry.cars, 0 ≤ car.connectionsocket :=
              (receive_cars state socket length body).symm ▸ hsockets
            simp only [loopStep, hopen, not_true_eq_false, if_false, PassesOver,
              forall_const, handleFrame]
            cases parseCommand (receive state socket length body).buffer.text
                stale with
            | none => simp
            | some command =>
                simp only [Option.mem_def, Option.some.injEq, forall_eq']
                cases command with
                | call source destination =>
                    exact spares_call_iff hreceived announced socket source
                      destination outcome
                | car name lowestFloor highestFloor =>
                    simp [execute, Command.input, controllerStep,
                      CommandPassesOver]
                | status statusStr currentFloor destinationFloor =>
                    exact spares_status_iff announced socket statusStr
                      currentFloor destinationFloor outcome
      · cases arrival <;> simp [loopStep, hopen, PassesOver]

/-- As it does once the registry has forgotten them. -/
theorem passesOver_of_forgotten {state : LoopState}
    {announced : List Announcement}
    (hforgotten : ∀ announcement ∈ announced, ∀ car ∈ state.registry.cars,
      announcement.name ≠ car.name ∧
        announcement.socket ≠ some car.connectionsocket)
    (event : SocketEvent) : PassesOver (state, announced) event := by
  unfold PassesOver
  split
  · next socket length body stale outcome =>
      intro _ received command _
      rw [← receive_cars state socket length body] at hforgotten
      cases command with
      | call source destination =>
          intro record car hleast _ _
          have hcar := List.mem_of_getElem? hleast.place
          constructor
          · exact fun _ announcement hannounced =>
              (hforgotten announcement hannounced car hcar).1
          · intro _ _ _ announcement hannounced
            obtain ⟨first, hfirst, hsocket⟩ := exists_socketByName hcar
            exact hsocket ▸ (hforgotten announcement hannounced first hfirst).2
      | car name lowestFloor highestFloor => trivial
      | status statusStr currentFloor destinationFloor =>
          intro _ _ name hname _ _ _ announcement hannounced
          obtain ⟨car, hcar, hsocket, -⟩ :=
            controllerGetNameBySocket_eq_some hname
          exact hsocket ▸ (hforgotten announcement hannounced car hcar).2
  · trivial

/-- Records are registered with the descriptor they came in on. -/
theorem loopNext_sockets {state : LoopState}
    (hnonneg : ∀ socket ∈ state.registry.masterSet, 0 ≤ socket)
    (hsockets : ∀ car ∈ state.registry.cars, 0 ≤ car.connectionsocket)
    (event : SocketEvent) :
    ∀ car ∈ (loopNext state event).registry.cars, 0 ≤ car.connectionsocket := by
  cases event with
  | accepted socket =>
      simp only [loopNext, loopStep]
      split <;> exact hsockets
  | readable socket arrival stale outcome =>
      simp only [loopNext, loopStep]
      split
      · exact hsockets
      · next hopen =>
          cases arrival with
          | again => exact hsockets
          | failed => exact hsockets
          | hangUp =>
              simp only [controllerStep, hangUpStep]
              split
              · exact fun car hcar => hsockets car (List.mem_of_mem_eraseP hcar)
              · exact hsockets
          | frame length body =>
              have hreceived : ∀ car ∈ (receive state socket length
                  body).registry.cars, 0 ≤ car.connectionsocket :=
                (receive_cars state socket length body).symm ▸ hsockets
              simp only [handleFrame]
              split
              · exact hreceived
              · next command _ =>
                  cases command with
                  | call source destination =>
                      exact sockets_of_identity (callStep_identity _ _ _ _ _)
                        hreceived
                  | status statusStr currentFloor destinationFloor =>
                      exact sockets_of_identity (statusStep_identity _ _ _ _ _ _)
                        hreceived
                  | car name lowestFloor highestFloor =>
                      intro car hcar
                      rcases List.mem_append.mp hcar with hold | hnew
                      · exact hreceived car hold
                      · obtain rfl := List.mem_singleton.mp hnew
                        exact hnonneg socket (not_not.mp hopen)

/-- In every run the controller spares the cars that have announced themselves
out of service exactly when it passes them over throughout. -/
theorem spared_iff_passesOver (events : List SocketEvent) :
    Along announcingNext Spared (startController, []) events ↔
      Along announcingNext PassesOver (startController, []) events := by
  have hstep (state : LoopState × List Announcement) (event : SocketEvent)
      (hinv : (∀ socket ∈ state.1.registry.masterSet, 0 ≤ socket) ∧
        ∀ car ∈ state.1.registry.cars, 0 ≤ car.connectionsocket) :
      (∀ socket ∈ (announcingNext state event).1.registry.masterSet, 0 ≤ socket) ∧
        ∀ car ∈ (announcingNext state event).1.registry.cars,
          0 ≤ car.connectionsocket :=
    ⟨loopNext_nonneg hinv.1 event, loopNext_sockets hinv.1 hinv.2 event⟩
  have hstart : (∀ socket ∈ startController.registry.masterSet, 0 ≤ socket) ∧
      ∀ car ∈ startController.registry.cars, 0 ≤ car.connectionsocket := by
    simp [startController]
  exact along_iff_of_invariant hstep
    (fun state event hinv => spared_iff state.2 hinv.2 event) hstart events

/-- Alpha announces an emergency on socket 4; before its connection ends a call
pad on socket 5 asks for a car, and is given Alpha. -/
def callAfterEmergency : List SocketEvent :=
  [.accepted 4, .accepted 5, textFrame 4 "CAR Alpha 1 10 \n",
    textFrame 4 "STATUS Closed 1 1 \n", textFrame 4 "EMERGENCY",
    textFrame 5 "CALL 2 5"]

theorem announced_car_called :
    ¬ Along announcingNext Spared (startController, []) callAfterEmergency := by
  decide

end Elevator
