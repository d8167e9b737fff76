/-
Where orders come from.  The controller queues the requests that it assigns and
orders the stops that it has queued, so what holds of the floors of all requests
assigned to a car holds of every stop in its record, and of every order that is
under way to it.
-/
import Elevator.Beliefs

namespace Elevator

open CText Framing Transition

def InRange (lowest highest : CString 4) (floor : Int) : Prop :=
  stringToFloor lowest ≤ floor ∧ floor ≤ stringToFloor highest

def requestsUnder (name : CString 50) (cars : List ConnectedCar)
    (log : List ControllerEvent) : List (Int × Int) :=
  log.filterMap fun
    | .assigned record sourceFloor destFloor =>
        if (cars[record]?).any fun car => car.name = name then
          some (sourceFloor, destFloor)
        else none
    | _ => none

/-- The requests that a step assigns to the car.  Nothing that the car says is a
call, so they come from other clients. -/
def Link.requests (name : CString 50) (link : Link) :
    LinkAction → List (Int × Int)
  | .client event => requestsUnder name link.controller.registry.cars
      (loopStep link.controller event).2
  | _ => []

/-- A step of the link, with the requests that it assigns to the car. -/
def linkAsked (name : CString 50) (socket : Int) (link : Link)
    (action : LinkAction) : Link × List (Int × Int) :=
  (linkStep socket link action, link.requests name action)

/-- What is asked of the car in this step is asked for floors of `P`. -/
def AsksFor (lowest highest : CString 4) (P : Int → Prop)
    (requests : List (Int × Int)) : Prop :=
  ∀ request ∈ requests, ∀ floor, floor = request.1 ∨ floor = request.2 →
    InRange lowest highest floor → P floor

/-- The record has the floors that the car registered with, and stops on floors
of `P` only. -/
structure RecordKeeps (lowest highest : CString 4) (P : Int → Prop)
    (record : ConnectedCar) : Prop where
  low : record.lowestFloor = lowest
  high : record.highestFloor = highest
  stops : ∀ stop ∈ record.queue, P stop.floor

/-- Every order under way to the car and every stop in its record is for a floor
of `P`. -/
structure Sanctioned (name : CString 50) (lowest highest : CString 4)
    (P : Int → Prop) (link : Link) : Prop where
  orders : ∀ label ∈ link.orders, ∃ floor, P floor ∧ label = floorToString floor
  records : ∀ record ∈ link.controller.registry.cars, record.name = name →
    RecordKeeps lowest highest P record

section Records

variable {lowest highest : CString 4} {P : Int → Prop}

/-- The requests assigned under a name are those assigned to the one record that
bears it. -/
theorem OwnRecord.requestsUnder {j : Nat} {cars : List ConnectedCar}
    {car : ConnectedCar} (hown : OwnRecord j cars car) (log : List ControllerEvent) :
    requestsUnder car.name cars log = requestsOf j log := by
  have hrecord (record : Nat) :
      ((cars[record]?).any fun other => other.name = car.name) = true ↔
        record = j := by
    constructor
    · intro hnamed
      obtain ⟨other, hother, hname⟩ := (Option.any_eq_true _ _).mp hnamed
      exact hown.unique record other hother (.inl (of_decide_eq_true hname))
    · rintro rfl
      simp [hown.record]
  apply List.filterMap_congr
  intro event hevent
  cases event with
  | assigned record sourceFloor destFloor => simp only [hrecord]
  | removed record stop reported => rfl
  | sent receiver message => rfl

/-- There is but one record under the name. -/
theorem OwnRecord.forall_named {j : Nat} {cars : List ConnectedCar}
    {car : ConnectedCar} (hown : OwnRecord j cars car) {Q : ConnectedCar → Prop}
    (hcar : Q car) : ∀ record ∈ cars, record.name = car.name → Q record := by
  intro record hrecord hname
  rw [hown.eq_of_clash hrecord (.inl hname)]
  exact hcar

theorem RecordKeeps.furthered {before after : ConnectedCar}
    {requests : List (Int × Int)} {orders : List (CString 4)}
    (hkeeps : RecordKeeps lowest highest P before)
    (hfurthered : Furthered before after requests orders)
    (hasks : AsksFor lowest highest P requests) :
    RecordKeeps lowest highest P after where
  low := by rw [hfurthered.frame]; exact hkeeps.low
  high := by rw [hfurthered.frame]; exact hkeeps.high
  stops := by
    intro stop hstop
    rcases hfurthered.stops stop hstop with hold | ⟨hreaches, request, hrequest, hfloor⟩
    · exact hkeeps.stops stop hold
    · rw [Reaches, hkeeps.low, hkeeps.high] at hreaches
      exact hasks request hrequest stop.floor hfloor hreaches

theorem RecordKeeps.report {record : ConnectedCar}
    (hkeeps : RecordKeeps lowest highest P record) (statusStr : CString 8)
    (currentFloor destinationFloor : CString 4) :
    RecordKeeps lowest highest P
      (recordAfter record statusStr currentFloor destinationFloor) := by
  obtain ⟨-, -, hqueue⟩ :=
    recordAfter_frame record statusStr currentFloor destinationFloor
  have hrange : (recordAfter record statusStr currentFloor
      destinationFloor).lowestFloor = record.lowestFloor ∧
      (recordAfter record statusStr currentFloor
        destinationFloor).highestFloor = record.highestFloor := by
    unfold recordAfter cycleEnded
    rw [removeFromCarQueue_car]
    split <;> exact ⟨rfl, rfl⟩
  refine ⟨hrange.1.trans hkeeps.low, hrange.2.trans hkeeps.high, ?_⟩
  intro stop hstop
  rw [hqueue] at hstop
  split_ifs at hstop
  · exact hkeeps.stops stop (List.mem_of_mem_tail hstop)
  · exact hkeeps.stops stop hstop

end Records

section Steps

variable {carname : CString 256} {lowest highest : CString 4} {P : Int → Prop}
  {socket : Int} {link : Link}

theorem Sanctioned.car
    (hkept : Sanctioned (.store 50 carname.chars) lowest highest P link)
    (action : TcpAction) :
    Sanctioned (.store 50 carname.chars) lowest highest P
      (linkStep socket link (.car action)) := by
  refine ⟨fun label hlabel => ?_, hkept.records⟩
  simp only [linkStep] at hlabel
  split at hlabel
  · exact hkept.orders label (List.mem_of_mem_tail hlabel)
  · exact hkept.orders label hlabel

theorem Sanctioned.client (hjoined : Joined carname lowest highest socket link)
    (hkept : Sanctioned (.store 50 carname.chars) lowest highest P link)
    (hnonneg : 0 ≤ socket) {event : SocketEvent} (hother : event.socket ≠ socket)
    (hspares : SparesName (.store 50 carname.chars) link.controller event)
    (hasks : AsksFor lowest highest P
      (link.requests (.store 50 carname.chars) (.client event))) :
    Sanctioned (.store 50 carname.chars) lowest highest P
      (linkStep socket link (.client event)) := by
  cases hjoined.view with
  | vacant hvacant hquiet =>
      obtain ⟨hafter, horders⟩ := hvacant.after_event hnonneg hother hspares
      constructor
      · simp only [linkStep, horders, List.append_nil]
        exact hkept.orders
      · intro record hrecord hname
        exact absurd hname (hafter record hrecord).1
  | record j car hown hname hsocket hread hbelieves =>
      subst hsocket
      obtain ⟨i, new, hnew, hfurthered⟩ :=
        hown.after_event hnonneg hother (hname ▸ hspares)
      have hnewName : new.name = .store 50 carname.chars := by
        rw [hfurthered.frame]
        exact hname
      rw [Link.requests, ← hname, hown.requestsUnder] at hasks
      have hkeeps := (hkept.records car (List.mem_of_getElem? hown.record)
        hname).furthered hfurthered hasks
      constructor
      · intro label hlabel
        rcases List.mem_append.mp hlabel with hold | hordered
        · exact hkept.orders label hold
        · obtain ⟨stop, hstop, rfl⟩ := hfurthered.orders label hordered
          exact ⟨stop.floor, hkeeps.stops stop hstop, rfl⟩
      · rw [← hnewName]
        exact hnew.forall_named hkeeps

theorem Sanctioned.hangUp
    (hkept : Sanctioned (.store 50 carname.chars) lowest highest P link) :
    Sanctioned (.store 50 carname.chars) lowest highest P
      (linkStep socket link .hangUp) := by
  have hsub : (linkStep socket link .hangUp).controller.registry.cars.Sublist
      link.controller.registry.cars := by
    simp only [linkStep, loopNext, loopStep, controllerStep, hangUpStep,
      ControllerState.drop]
    split
    · exact List.Sublist.refl _
    · split
      · exact List.eraseP_sublist
      · exact List.Sublist.refl _
  exact ⟨hkept.orders, fun record hrecord => hkept.records record (hsub.subset hrecord)⟩

theorem Sanctioned.closes
    (hkept : Sanctioned (.store 50 carname.chars) lowest highest P link) {after : Link}
    (hcloses : ClosesAtMost link after) :
    Sanctioned (.store 50 carname.chars) lowest highest P after := by
  obtain ⟨controller, rfl, hcars, -⟩ := hcloses
  exact ⟨hkept.orders, fun record hrecord => hkept.records record (hcars ▸ hrecord)⟩

theorem Sanctioned.handle
    (hcar : (CarMessage.car carname lowest highest).IsReadable)
    (hjoined : Joined carname lowest highest socket link)
    (hkept : Sanctioned (.store 50 carname.chars) lowest highest P link)
    {message : CarMessage}
    (hmessage : link.session.messages[link.handled]? = some message)
    (hopen : socket ∈ link.controller.registry.masterSet) {stale : Locals}
    (hfresh : link.handled = 0 → stale.fresh.queue = []) (outcome : CallOutcome) :
    Sanctioned (.store 50 carname.chars) lowest highest P
      (link.handle socket message stale outcome) := by
  have hstep := loopStep_message (hjoined.isReadable hcar hmessage) hopen stale outcome
  rcases hjoined.session.message hmessage with ⟨hunread, hsaid⟩ |
    ⟨hpast, ⟨shm, -, rfl⟩ | hmode⟩
  · rw [hjoined.carMessage] at hsaid
    subst hsaid
    obtain ⟨hregistry, hevents⟩ := hstep
    have hquiet : (loopStep link.controller ((CarMessage.car carname lowest
        highest).arrival socket stale outcome)).2 = [] := hevents
    constructor
    · simp only [Link.handle, hquiet, ordersTo_nil, List.append_nil]
      exact hkept.orders
    · intro record hrecord hname
      simp only [Link.handle, hregistry] at hrecord
      rcases List.mem_append.mp hrecord with hold | hnew
      · exact hkept.records record hold hname
      · rw [List.mem_singleton.mp hnew]
        refine ⟨rfl, rfl, fun stop hstop => ?_⟩
        simp [registeredCar, hfresh hunread] at hstop
  · cases hjoined.view with
    | vacant hvacant hquiet =>
        rcases hquiet with hunread | hclosed
        · omega
        · exact absurd hopen hclosed
    | record j car hown hname hsocket hread hbelieves =>
        subst hsocket
        obtain ⟨hafter, -, horders⟩ := hown.handle_report
          (hjoined.isReadable hcar hmessage) hopen stale outcome
        have hkeeps := hkept.records car (List.mem_of_getElem? hown.record) hname
        constructor
        · rw [horders]
          intro label hlabel
          rcases List.mem_append.mp hlabel with hold | hnew
          · exact hkept.orders label hold
          · obtain ⟨stop, hstop, rfl⟩ := exists_stop_of_mem_answerTo hnew
            exact ⟨stop.floor, hkeeps.stops stop (List.mem_of_mem_tail hstop), rfl⟩
        · have hsame := (recordAfter_identity car shm.status shm.currentFloor
            shm.destinationFloor).1.trans hname
          rw [← hsame]
          exact hafter.forall_named (hkeeps.report _ _ _)
  · obtain ⟨hregistry, -, horders⟩ :=
      link.handle_announcement hmode hopen stale outcome
    constructor
    · rw [horders]
      exact hkept.orders
    · rw [hregistry]
      exact hkept.records

/-- The handler's local record has no stops when the car registers. -/
def RegistersEmpty (link : Link) : LinkAction → Prop
  | .handle stale _ => link.handled = 0 → stale.fresh.queue = []
  | _ => True

/-- Whatever step is taken, the orders and the stops stay on floors of `P` if
what it asks for is. -/
theorem Sanctioned.step
    (hcar : (CarMessage.car carname lowest highest).IsReadable)
    (hjoined : Joined carname lowest highest socket link)
    (hkept : Sanctioned (.store 50 carname.chars) lowest highest P link)
    (hnonneg : 0 ≤ socket) {action : LinkAction}
    (hwithin : WithinConnection (.store 50 carname.chars) socket link action)
    (hempty : RegistersEmpty link action)
    (hasks : AsksFor lowest highest P
      (link.requests (.store 50 carname.chars) action)) :
    Sanctioned (.store 50 carname.chars) lowest highest P
      (linkStep socket link action) := by
  cases action with
  | car action => exact hkept.car action
  | client event => exact hkept.client hjoined hnonneg hwithin.1 hwithin.2 hasks
  | hangUp => exact hkept.hangUp
  | fails => exact hkept.closes closesAtMost_fails
  | cutShort length body stale outcome =>
      exact hkept.closes (closesAtMost_cutShort hwithin.1 hwithin.2 stale outcome)
  | handle stale outcome =>
      simp only [linkStep]
      split
      · next message hmessage =>
          split
          · next hopen => exact hkept.handle hcar hjoined hmessage hopen hempty outcome
          · exact hkept
      · exact hkept

/-- Nobody has asked for anything yet. -/
theorem Connected.sanctioned (hstart : Connected carname lowest highest socket link)
    (P : Int → Prop) :
    Sanctioned (.store 50 carname.chars) lowest highest P link where
  orders := by simp [hstart.noOrders]
  records := fun record hrecord hname =>
    absurd hname (hstart.vacant record hrecord).1

end Steps

end Elevator
