/-
A controller that keeps up.  Where the process thread of a car goes on only when
the controller knows what its doors show and no order is under way, the queue is
worked off: stop after stop is dropped with the car standing on its floor, and
after a bounded number of steps none is left.
-/
import Elevator.Errand
import Mathlib.Data.List.Chain

namespace Elevator

open CText Framing Transition Succession

/-- Stops in the shaft.  No two that follow each other are on one floor, and none
behind the first is on B1, whose number is what `get_next_destination` returns
for an empty queue. -/
structure Workable (lowest highest : CString 4) (queue : List QueueNode) : Prop where
  inRange : ∀ stop ∈ queue, InRange lowest highest stop.floor
  apart : queue.IsChain fun first second => first.floor ≠ second.floor
  ordered : ∀ stop ∈ queue.tail, stop.floor ≠ -1

/-- How far the work on a queue has got, when `previous` is what the controller
knows of the doors: it is done, or the car has its errand for the first stop, or
the doors have closed there and the controller is still to hear of it, or the
order for the stop is under way.  The car needs `n` more steps at most. -/
inductive Stage (lowest highest : CString 4) (previous : CString 8) (car : CarState) :
    List (CString 4) → List QueueNode → Nat → Prop where
  | idle (n : Nat) : Stage lowest highest previous car [] [] n
  | errand {stop : QueueNode} {rest : List QueueNode} {n : Nat}
      (herrand : Errand car)
      (hfor : car.data.destinationFloor = floorToString stop.floor)
      (hopen : ¬ (previous = statusNames .Closing ∧
        car.data.status = statusNames .Closed))
      (hsteps : car.errandSteps + stopSteps lowest highest * rest.length ≤ n) :
      Stage lowest highest previous car [] (stop :: rest) n
  | closed {stop : QueueNode} {rest : List QueueNode} {n : Nat} (hready : Ready car)
      (hfor : car.data.destinationFloor = floorToString stop.floor)
      (hprevious : previous = statusNames .Closing)
      (hsteps : stopSteps lowest highest * rest.length + 1 ≤ n) :
      Stage lowest highest previous car [] (stop :: rest) n
  | ordered {stop : QueueNode} {rest : List QueueNode} {n : Nat} (hready : Ready car)
      (haway : floorToString stop.floor ≠ car.data.currentFloor ∨
        car.process = .start ∨ car.process = .top)
      (hprevious : previous ≠ statusNames .Closing)
      (hsteps : stopSteps lowest highest * (rest.length + 1) ≤ n) :
      Stage lowest highest previous car [floorToString stop.floor] (stop :: rest) n

section Stages

variable {lowest highest : CString 4} {previous : CString 8} {car : CarState}
  {orders : List (CString 4)} {left : List QueueNode} {n : Nat}

theorem Workable.suffix {served left : List QueueNode}
    (hworkable : Workable lowest highest (served ++ left)) :
    Workable lowest highest left where
  inRange := fun stop hstop => hworkable.inRange stop (List.mem_append_right _ hstop)
  apart := (List.isChain_append.mp hworkable.apart).2.1
  ordered := by
    intro stop hstop
    apply hworkable.ordered stop
    cases served with
    | nil => exact hstop
    | cons first rest => exact List.mem_append_right _ (List.mem_of_mem_tail hstop)

theorem Workable.tail (hworkable : Workable lowest highest left) :
    Workable lowest highest left.tail := by
  cases left with
  | nil => exact hworkable
  | cons stop rest => exact @Workable.suffix lowest highest [stop] rest hworkable

/-- The process thread goes on when the controller knows what the doors show. -/
theorem Stage.process (hstage : Stage lowest highest previous car orders left n)
    (hnone : orders = []) (hknown : previous = car.data.status) :
    Stage lowest highest previous (processStep car) orders left (n - 1) := by
  cases hstage with
  | idle => exact .idle _
  | errand herrand hfor hopen hsteps =>
      obtain ⟨hafter, hless⟩ := herrand.process
      have hdestination := herrand.destination_process.trans hfor
      cases hafter with
      | onward hafter hstatus =>
          exact .errand hafter hdestination (hknown ▸ hstatus) (by omega)
      | done hready hstatus hmore =>
          exact .closed hready hdestination (hknown.trans hstatus.1) (by omega)
  | closed hready hfor hprevious hsteps =>
      rw [hknown, hready.closed, statusNames_inj] at hprevious
      cases hprevious
  | ordered hready haway hprevious hsteps => cases hnone

/-- Other processes leave the doors and both floors alone. -/
theorem Stage.external (hstage : Stage lowest highest previous car orders left n)
    {edit : CarSharedData → CarSharedData}
    (hguard : DoorsLeftAlone (.external edit)) :
    Stage lowest highest previous (carStep car (.external edit)) orders left n := by
  obtain ⟨hstatus, hcurrent, hdestination, -, -⟩ := hguard car.data
  cases hstage with
  | idle => exact .idle _
  | errand herrand hfor hopen hsteps =>
      apply Stage.errand (herrand.external hguard) (hdestination.trans hfor)
      · simpa only [carStep, hstatus] using hopen
      · rwa [hguard.errandSteps]
  | closed hready hfor hprevious hsteps =>
      exact .closed (hready.external hguard) (hdestination.trans hfor) hprevious hsteps
  | ordered hready haway hprevious hsteps =>
      refine .ordered (hready.external hguard) ?_ hprevious hsteps
      simpa only [carStep, hcurrent] using haway

/-- The poll for the open button finds nothing while there is work to do. -/
theorem Stage.doorcontrol (hstage : Stage lowest highest previous car orders left n)
    (hleft : left ≠ []) : doorcontrolStep car = car := by
  have hcar : car.doorcontrol = none ∧ car.data.openButton = 0 := by
    cases hstage with
    | idle => exact absurd rfl hleft
    | errand herrand hfor hopen hsteps =>
        cases herrand with
        | going horder hdue =>
            exact ⟨horder.undisturbed.doorcontrol, horder.undisturbed.openButton⟩
        | leaving frame hpc hending horder hdue =>
            exact ⟨horder.undisturbed.doorcontrol, horder.undisturbed.openButton⟩
    | closed hready hfor hprevious hsteps =>
        have hcar := hready.attends.undisturbed
        exact ⟨hcar.doorcontrol, hcar.openButton⟩
    | ordered hready haway hprevious hsteps =>
        have hcar := hready.attends.undisturbed
        exact ⟨hcar.doorcontrol, hcar.openButton⟩
  simp [doorcontrolStep, hcar.1, readSharedMemory, hcar.2]

theorem Stage.takes {label : CString 4}
    (hstage : Stage lowest highest previous car (label :: orders) left n)
    (hsided : OneSided lowest highest) (hlow : car.lowestFloor = lowest)
    (hhigh : car.highestFloor = highest) (hwork : Workable lowest highest left) :
    Stage lowest highest previous (receiveFloor car label) orders left n := by
  cases hstage with
  | @ordered stop rest _ hready haway hprevious hsteps =>
      have hcar := hready.attends.undisturbed
      obtain ⟨hlowStop, hhighStop⟩ := hwork.inRange stop List.mem_cons_self
      have hfloor := hsided.isFloor hlowStop hhighStop
      have hdecode := stringToFloor_floorToString hfloor
      have hserves : ServesFloor car (floorToString stop.floor) := by
        rw [ServesFloor, hlow, hhigh, hdecode]
        exact ⟨hlowStop, hhighStop⟩
      have hhere : ServesFloor car car.data.currentFloor := hready.here ▸ hcar.serves
      rw [ServesFloor, hlow, hhigh] at hhere
      have hside := hsided.side
      obtain ⟨herrand, hbound⟩ := hready.takes (isLabel_floorToString hfloor) hserves
        (by rw [hdecode]; omega) haway
      have hfor : (receiveFloor car (floorToString stop.floor)).data.destinationFloor =
          floorToString stop.floor := by
        rw [receiveFloor_data, if_pos hready.readFlag]
      apply Stage.errand herrand hfor fun h => hprevious h.1
      rw [hdecode] at hbound
      rw [Nat.mul_succ, stopSteps] at hsteps
      simp only [stopSteps]
      omega

/-- A stop is dropped when its floor has been served: the car stands on it. -/
theorem Stage.here {stop : QueueNode} {rest : List QueueNode}
    (hstage : Stage lowest highest previous car orders (stop :: rest) n)
    (hcloses : previous = statusNames .Closing ∧
      car.data.status = statusNames .Closed) :
    car.data.currentFloor = floorToString stop.floor := by
  cases hstage with
  | errand herrand hfor hopen hsteps => exact absurd hcloses hopen
  | closed hready hfor hprevious hsteps => exact hready.here.symm.trans hfor
  | ordered hready haway hprevious hsteps => exact absurd hcloses.1 hprevious

def orderBehind (left : List QueueNode) : List (CString 4) :=
  (left.tail.head?.map fun stop => floorToString stop.floor).toList

/-- The order behind the first stop is given when that is dropped. -/
theorem answerTo_of_workable {record : ConnectedCar}
    (hwork : Workable lowest highest record.queue) (statusStr : CString 8) :
    answerTo record statusStr true =
      if record.previousStatus = statusNames .Closing ∧
          statusStr = statusNames .Closed then orderBehind record.queue
      else [] := by
  have hnext : nextOrder (removeFromCarQueue record).1 = orderBehind record.queue := by
    rw [nextOrder, getNextDestination, removeFromCarQueue_queue, orderBehind]
    cases htail : record.queue.tail with
    | nil => rfl
    | cons next rest =>
        have hsent := hwork.ordered next (htail ▸ List.mem_cons_self)
        simp [hsent]
  simp only [answerTo, and_true, hnext]

theorem Stage.report (hstage : Stage lowest highest previous car orders left n)
    (hsided : OneSided lowest highest) (hwork : Workable lowest highest left)
    {statusStr : CString 8}
    (hshown : left ≠ [] → statusStr = previous ∨ statusStr = car.data.status) :
    if previous = statusNames .Closing ∧ statusStr = statusNames .Closed then
      Stage lowest highest statusStr car (orders ++ orderBehind left) left.tail n
    else Stage lowest highest statusStr car orders left n := by
  cases hstage with
  | idle =>
      split
      · exact .idle n
      · exact .idle n
  | @errand stop rest _ herrand hfor hopen hsteps =>
      have hshown := hshown (List.cons_ne_nil stop rest)
      have hsame : ¬ (previous = statusNames .Closing ∧
          statusStr = statusNames .Closed) := by
        rintro ⟨rfl, rfl⟩
        rcases hshown with hshown | hshown
        · exact absurd (statusNames_injective hshown) (by decide)
        · exact hopen ⟨rfl, hshown.symm⟩
      rw [if_neg hsame]
      apply Stage.errand herrand hfor _ hsteps
      rintro ⟨rfl, hstatus⟩
      rcases hshown with rfl | hshown
      · exact hopen ⟨rfl, hstatus⟩
      · exact absurd (statusNames_injective (hshown.trans hstatus)) (by decide)
  | @closed stop rest _ hready hfor hprevious hsteps =>
      have hshown := hshown (List.cons_ne_nil stop rest)
      rw [hprevious, hready.closed] at hshown
      rcases hshown with rfl | rfl
      · rw [if_neg fun h => absurd (statusNames_injective h.2) (by decide)]
        exact .closed hready hfor rfl hsteps
      · rw [if_pos ⟨hprevious, rfl⟩]
        cases rest with
        | nil => exact .idle n
        | cons next rest =>
            have hapart := (List.isChain_cons_cons.mp hwork.apart).1
            obtain ⟨hlow, hhigh⟩ := hwork.inRange stop List.mem_cons_self
            obtain ⟨hlowNext, hhighNext⟩ := hwork.inRange next
              (List.mem_cons_of_mem stop List.mem_cons_self)
            refine .ordered hready (.inl ?_) (by decide) ?_
            · rw [← hready.here, hfor]
              intro hsame
              have hdecode := congrArg stringToFloor hsame
              rw [stringToFloor_floorToString (hsided.isFloor hlowNext hhighNext),
                stringToFloor_floorToString (hsided.isFloor hlow hhigh)] at hdecode
              exact hapart hdecode.symm
            · rw [List.length_cons] at hsteps
              omega
  | @ordered stop rest _ hready haway hprevious hsteps =>
      have hshown := hshown (List.cons_ne_nil stop rest)
      rw [if_neg fun h => hprevious h.1]
      apply Stage.ordered hready haway _ hsteps
      rintro rfl
      rcases hshown with rfl | hshown
      · exact hprevious rfl
      · rw [hready.closed] at hshown
        exact absurd (statusNames_injective hshown) (by decide)

end Stages

/-- The statuses in the reports that the controller has not read yet. -/
def Link.unread (link : Link) : List (CString 8) :=
  (reportsOf (link.session.messages.drop link.handled)).map Prod.fst

/-- The record knows the status of the doors or will read of it, and the work on
its queue is at some stage. -/
structure Attended (lowest highest : CString 4) (record : ConnectedCar) (link : Link)
    (n : Nat) : Prop where
  workable : Workable lowest highest record.queue
  unread : record.queue ≠ [] → Switches record.previousStatus
    link.session.tcp.car.data.status link.unread
  stage : Stage lowest highest record.previousStatus link.session.tcp.car link.orders
    record.queue n

/-- Of the queue some stops have been dropped, one after the other, and the
others are still in the record; `n` more steps are enough for them. -/
def AtWork (name : CString 50) (lowest highest : CString 4)
    (earlier queue : List QueueNode) (n : Nat) (link : Link) : Prop :=
  ∃ served, link.removed = earlier ++ served ∧
    ∃ record ∈ link.controller.registry.cars, record.name = name ∧
      queue = served ++ record.queue ∧ Attended lowest highest record link n

/-- The controller keeps up: when the process thread goes on, the last report
that has been read shows the status as it is, and no order is under way.  Its
sends succeed, the connection stays, nobody else asks anything of the car, and
other processes leave the doors and both floors alone. -/
def KeepsUp (name : CString 50) (link : Link) : LinkAction → Prop
  | .car .process => link.orders = [] ∧
      (reportsOf (link.session.messages.take link.handled)).getLast?.map Prod.fst =
        some link.session.tcp.car.data.status
  | .car (.external edit) => DoorsLeftAlone (.external edit)
  | .handle _ outcome => outcome.orderSent = true
  | .hangUp => False
  | .client event => link.requests name (.client event) = []
  | _ => True

def LinkAction.processSteps : LinkAction → Nat
  | .car .process => 1
  | _ => 0

/-- A stop is dropped with the car on its floor. -/
def DropsHere (socket : Int) (link : Link) (action : LinkAction) : Prop :=
  (linkStep socket link action).removed = link.removed ∨
    ∃ stop, (linkStep socket link action).removed = link.removed ++ [stop] ∧
      link.session.tcp.car.data.currentFloor = floorToString stop.floor

section CarSteps

variable {carname : CString 256} {lowest highest : CString 4} {socket : Int}
  {link : Link} {record : ConnectedCar} {n : Nat}

/-- What a step of the car adds to the reports that are still to be read. -/
theorem unread_car (hjoined : Joined carname lowest highest socket link)
    {action : TcpAction} (hconnects : link.session.tcp.connects action = false) :
    (linkStep socket link (.car action)).unread = link.unread ++
      (reportsOf (messagesOf (tcpCarStep link.session.tcp action).2)).map Prod.fst := by
  simp only [Link.unread, linkStep, sessionStep, hconnects, Bool.false_eq_true,
    if_false]
  rw [List.drop_append_of_le_length hjoined.handled, reportsOf_append, List.map_append]

/-- A step of the TCP thread after the registration reports the status at most. -/
theorem reports_tcpStep {state : TcpState} (outcome : TcpOutcome)
    (hconnect : state.pc ≠ .connect) (hregister : state.pc ≠ .register) :
    (reportsOf (messagesOf (tcpStep state outcome).2)).map Prod.fst = [] ∨
      (reportsOf (messagesOf (tcpStep state outcome).2)).map Prod.fst =
        [state.car.data.status] := by
  rcases (speaksOnce_tcpStep outcome hconnect hregister).said with
    hnone | ⟨-, hreport | ⟨hmode | hmode, -⟩⟩
  · rw [hnone]
    exact Or.inl rfl
  · rw [hreport]
    exact Or.inr rfl
  · rw [hmode]
    exact Or.inl rfl
  · rw [hmode]
    exact Or.inl rfl

/-- The car stands by the range that it registered with. -/
theorem Joined.range (hjoined : Joined carname lowest highest socket link) :
    link.session.tcp.car.lowestFloor = lowest ∧
      link.session.tcp.car.highestFloor = highest := by
  have hmessage := hjoined.carMessage
  rw [TcpState.carMessage, CarMessage.car.injEq] at hmessage
  exact hmessage.2

/-- Once the controller has read the registration the TCP thread is past it. -/
theorem Joined.pc_ne_register (hjoined : Joined carname lowest highest socket link)
    (hread : 0 < link.handled) : link.session.tcp.pc ≠ .register := by
  intro hpc
  have hhandled := hjoined.handled
  rw [hjoined.session.unsaid hpc, List.length_nil] at hhandled
  omega

theorem Attended.process (hjoined : Joined carname lowest highest socket link)
    (hattended : Attended lowest highest record link n)
    (hknown : record.previousStatus = link.session.tcp.car.data.status)
    (hnone : link.orders = []) :
    Attended lowest highest record (linkStep socket link (.car .process)) (n - 1) where
  workable := hattended.workable
  unread := by
    intro hleft
    rw [unread_car hjoined rfl]
    have hunread := hattended.unread hleft
    rw [← hknown] at hunread
    simpa [linkStep, sessionStep, tcpCarStep, messagesOf, reportsOf] using
      hunread.restart _
  stage := hattended.stage.process hnone hknown

/-- A step that leaves the status as it is, and reports it at most. -/
theorem Attended.of_status (hjoined : Joined carname lowest highest socket link)
    (hattended : Attended lowest highest record link n) {action : TcpAction}
    (hconnects : link.session.tcp.connects action = false)
    (hstatus : (linkStep socket link (.car action)).session.tcp.car.data.status =
      link.session.tcp.car.data.status)
    (hreports : (reportsOf (messagesOf
        (tcpCarStep link.session.tcp action).2)).map Prod.fst = [] ∨
      (reportsOf (messagesOf (tcpCarStep link.session.tcp action).2)).map Prod.fst =
        [link.session.tcp.car.data.status])
    (hstage : Stage lowest highest record.previousStatus
      (linkStep socket link (.car action)).session.tcp.car
      (linkStep socket link (.car action)).orders record.queue n) :
    Attended lowest highest record (linkStep socket link (.car action)) n where
  workable := hattended.workable
  unread := by
    intro hleft
    rw [unread_car hjoined hconnects, hstatus]
    have hunread := hattended.unread hleft
    rcases hreports with hnone | hone
    · rwa [hnone, List.append_nil]
    · rw [hone]
      exact hunread.concat
  stage := hstage

theorem Attended.doorcontrol (hjoined : Joined carname lowest highest socket link)
    (hattended : Attended lowest highest record link n) :
    Attended lowest highest record (linkStep socket link (.car .doorcontrol)) n := by
  cases hleft : record.queue with
  | nil =>
      have hstage := hattended.stage
      rw [hleft] at hstage
      refine ⟨hattended.workable, fun h => absurd hleft h, ?_⟩
      rw [hleft]
      cases horders : link.orders with
      | nil =>
          rw [show (linkStep socket link (.car .doorcontrol)).orders = [] from horders]
          exact .idle n
      | cons label rest =>
          rw [horders] at hstage
          cases hstage
  | cons stop rest =>
      have hsame : doorcontrolStep link.session.tcp.car = link.session.tcp.car :=
        hattended.stage.doorcontrol (by simp [hleft])
      have hcar : (linkStep socket link (.car .doorcontrol)).session.tcp.car =
          link.session.tcp.car := hsame
      apply hattended.of_status hjoined rfl (by rw [hcar]) (.inl rfl)
      rw [hcar]
      exact hattended.stage

theorem Attended.tcp (hjoined : Joined carname lowest highest socket link)
    (hattended : Attended lowest highest record link n) (hread : 0 < link.handled)
    (hsided : OneSided lowest highest) {outcome : TcpOutcome}
    (hconnects : link.session.tcp.connects (.tcp outcome) = false)
    (hwhole : ReadsWholeOrders link (.car (.tcp outcome))) :
    Attended lowest highest record (linkStep socket link (.car (.tcp outcome))) n := by
  have hreports := @reports_tcpStep link.session.tcp outcome
    (by simpa [TcpState.connects] using hconnects) (hjoined.pc_ne_register hread)
  rcases @linkStep_tcp outcome socket link hwhole with
    ⟨hcar, horders⟩ | ⟨label, rest, horders, hrest, hcar⟩
  · apply hattended.of_status hjoined hconnects (by rw [hcar]) hreports
    rw [hcar, horders]
    exact hattended.stage
  · apply hattended.of_status hjoined hconnects _ hreports
    · rw [hcar, hrest]
      have hstage := hattended.stage
      rw [horders] at hstage
      exact hstage.takes hsided hjoined.range.1 hjoined.range.2 hattended.workable
    · rw [hcar, receiveFloor_data]

theorem Attended.external (hjoined : Joined carname lowest highest socket link)
    (hattended : Attended lowest highest record link n)
    {edit : CarSharedData → CarSharedData}
    (hguard : DoorsLeftAlone (.external edit)) :
    Attended lowest highest record (linkStep socket link (.car (.external edit))) n :=
  hattended.of_status hjoined rfl (hguard link.session.tcp.car.data).1 (.inl rfl)
    (hattended.stage.external hguard)

end CarSteps

section Reading

variable {carname : CString 256} {lowest highest : CString 4} {socket : Int}
  {link : Link} {record : ConnectedCar} {n : Nat} {name : CString 50}
  {earlier queue : List QueueNode}

theorem unread_handle {message : CarMessage}
    (hmessage : link.session.messages[link.handled]? = some message)
    (stale : Locals) (outcome : CallOutcome) :
    link.unread = (reportsOf [message]).map Prod.fst ++
      (link.handle socket message stale outcome).unread := by
  obtain ⟨hlt, hget⟩ := List.getElem?_eq_some_iff.mp hmessage
  rw [Link.unread, List.drop_eq_getElem_cons hlt, hget, ← List.singleton_append,
    reportsOf_append, List.map_append]
  rfl

theorem Attended.report {j : Nat}
    (hown : OwnRecord j link.controller.registry.cars record)
    (hattended : Attended lowest highest record link n)
    (hsided : OneSided lowest highest) {shm : CarSharedData}
    (hreadable : shm.report.IsReadable)
    (hmessage : link.session.messages[link.handled]? = some shm.report)
    (hopen : record.connectionsocket ∈ link.controller.registry.masterSet)
    {outcome : CallOutcome} (hsent : outcome.orderSent = true) (stale : Locals) :
    Attended lowest highest
      (recordAfter record shm.status shm.currentFloor shm.destinationFloor)
      (link.handle record.connectionsocket shm.report stale outcome) n := by
  obtain ⟨-, hprevious, hqueue⟩ :=
    recordAfter_frame record shm.status shm.currentFloor shm.destinationFloor
  obtain ⟨-, -, horders⟩ := hown.handle_report hreadable hopen stale outcome
  have hswitches (hleft : record.queue ≠ []) := by
    have hunread := hattended.unread hleft
    rw [@unread_handle record.connectionsocket link _ hmessage stale outcome] at hunread
    exact hunread.tail
  have hstage := hattended.stage.report hsided hattended.workable
    fun hleft => (hswitches hleft).1
  rw [hsent, answerTo_of_workable hattended.workable] at horders
  constructor
  · rw [hqueue]
    split
    · exact hattended.workable.tail
    · exact hattended.workable
  · intro hleft
    rw [hprevious]
    apply (hswitches _).2
    intro hnil
    rw [hqueue, hnil] at hleft
    exact hleft (by simp)
  · rw [hprevious, hqueue, horders]
    split at hstage
    · next hcloses =>
        rw [if_pos hcloses, if_pos hcloses]
        exact hstage
    · next hcloses =>
        rw [if_neg hcloses, if_neg hcloses, List.append_nil]
        exact hstage

/-- The car stands on the floor of a stop that its report drops. -/
theorem Attended.here (hattended : Attended lowest highest record link n)
    {shm : CarSharedData}
    (hmessage : link.session.messages[link.handled]? = some shm.report)
    (hcloses : record.previousStatus = statusNames .Closing ∧
      shm.status = statusNames .Closed)
    {stop : QueueNode} {rest : List QueueNode} (hleft : record.queue = stop :: rest) :
    link.session.tcp.car.data.currentFloor = floorToString stop.floor := by
  have hunread := hattended.unread (by simp [hleft])
  rw [@unread_handle record.connectionsocket link _ hmessage blankLocals
    ⟨true, true, true⟩] at hunread
  have hshown : shm.status = record.previousStatus ∨
      shm.status = link.session.tcp.car.data.status := hunread.tail.1
  rw [hcloses.1, hcloses.2] at hshown
  have hstatus := hshown.resolve_left
    fun heq => absurd (statusNames_injective heq) (by decide)
  have hstage := hattended.stage
  rw [hleft] at hstage
  exact hstage.here ⟨hcloses.1, hstatus.symm⟩

theorem AtWork.handle (hcar : (CarMessage.car carname lowest highest).IsReadable)
    (hjoined : Joined carname lowest highest socket link)
    (hwork : AtWork (.store 50 carname.chars) lowest highest earlier queue n link)
    (hsided : OneSided lowest highest) {message : CarMessage}
    (hmessage : link.session.messages[link.handled]? = some message)
    (hopen : socket ∈ link.controller.registry.masterSet) (stale : Locals)
    {outcome : CallOutcome} (hsent : outcome.orderSent = true) :
    AtWork (.store 50 carname.chars) lowest highest earlier queue n
        (link.handle socket message stale outcome) ∧
      ((link.handle socket message stale outcome).removed = link.removed ∨
        ∃ stop, (link.handle socket message stale outcome).removed =
            link.removed ++ [stop] ∧
          link.session.tcp.car.data.currentFloor = floorToString stop.floor) := by
  obtain ⟨served, hremoved, record, hrecord, hname, hqueue, hattended⟩ := hwork
  obtain ⟨j, hown, rfl, hread⟩ := hjoined.exists_own hrecord hname
  have hreadable := hjoined.isReadable hcar hmessage
  rcases hjoined.session.message hmessage with ⟨hunread, -⟩ |
    ⟨-, ⟨shm, -, rfl⟩ | hmode⟩
  · omega
  · have hafter := hattended.report hown hsided hreadable hmessage hopen hsent stale
    obtain ⟨hnew, hdrops, -⟩ := hown.handle_report hreadable hopen stale outcome
    obtain ⟨-, -, hleft⟩ :=
      recordAfter_frame record shm.status shm.currentFloor shm.destinationFloor
    have hsame := (recordAfter_identity record shm.status shm.currentFloor
      shm.destinationFloor).1.trans hname
    by_cases hcloses : record.previousStatus = statusNames .Closing ∧
        shm.status = statusNames .Closed
    · rw [if_pos hcloses] at hdrops hleft
      cases hstops : record.queue with
      | nil =>
          rw [hstops, List.head?_nil, Option.toList_none, List.append_nil] at hdrops
          refine ⟨⟨served, hdrops.trans hremoved, _, List.mem_of_getElem? hnew.record,
            hsame, ?_, hafter⟩, Or.inl hdrops⟩
          rw [hqueue, hleft, hstops, List.tail_nil]
      | cons stop rest =>
          rw [hstops, List.head?_cons, Option.toList_some] at hdrops
          refine ⟨⟨served ++ [stop], ?_, _, List.mem_of_getElem? hnew.record, hsame,
            ?_, hafter⟩, Or.inr ⟨stop, hdrops, hattended.here hmessage hcloses hstops⟩⟩
          · rw [hdrops, hremoved, List.append_assoc]
          · rw [hqueue, hleft, hstops, List.tail_cons, List.append_assoc,
              List.singleton_append]
    · rw [if_neg hcloses] at hdrops hleft
      rw [List.append_nil] at hdrops
      exact ⟨⟨served, hdrops.trans hremoved, _, List.mem_of_getElem? hnew.record,
        hsame, by rw [hqueue, hleft], hafter⟩, Or.inl hdrops⟩
  · obtain ⟨hregistry, hdrops, horders⟩ :=
      link.handle_announcement hmode hopen stale outcome
    have hunread := @unread_handle record.connectionsocket link _ hmessage stale outcome
    refine ⟨⟨served, hdrops.trans hremoved, record, by rw [hregistry]; exact hrecord,
      hname, hqueue, hattended.workable, ?_, ?_⟩, Or.inl hdrops⟩
    · have hsilent : (reportsOf [message]).map Prod.fst = [] := by
        rcases hmode with rfl | rfl <;> rfl
      rw [hsilent, List.nil_append] at hunread
      rw [← hunread]
      exact hattended.unread
    · rw [horders]
      exact hattended.stage

theorem AtWork.client (hjoined : Joined carname lowest highest socket link)
    (hwork : AtWork (.store 50 carname.chars) lowest highest earlier queue n link)
    (hnonneg : 0 ≤ socket) {event : SocketEvent} (hother : event.socket ≠ socket)
    (hspares : SparesName (.store 50 carname.chars) link.controller event)
    (hnone : link.requests (.store 50 carname.chars) (.client event) = []) :
    AtWork (.store 50 carname.chars) lowest highest earlier queue n
      (linkStep socket link (.client event)) := by
  obtain ⟨served, hremoved, record, hrecord, hname, hqueue, hattended⟩ := hwork
  obtain ⟨j, hown, rfl, -⟩ := hjoined.exists_own hrecord hname
  rw [Link.requests, ← hname, hown.requestsUnder] at hnone
  obtain ⟨i, hi, horders⟩ :=
    hown.untouched_event hnonneg hother (hname ▸ hspares) hnone
  refine ⟨served, hremoved, record, List.mem_of_getElem? hi.record, hname, hqueue,
    hattended.workable, hattended.unread, ?_⟩
  simp only [linkStep, horders, List.append_nil]
  exact hattended.stage

theorem AtWork.car (hjoined : Joined carname lowest highest socket link)
    (hwork : AtWork (.store 50 carname.chars) lowest highest earlier queue n link)
    (hsided : OneSided lowest highest) {action : TcpAction}
    (hconnects : link.session.tcp.connects action = false)
    (hwhole : ReadsWholeOrders link (.car action))
    (hkeeps : KeepsUp (.store 50 carname.chars) link (.car action)) :
    AtWork (.store 50 carname.chars) lowest highest earlier queue
      (n - (LinkAction.car action).processSteps)
      (linkStep socket link (.car action)) := by
  obtain ⟨served, hremoved, record, hrecord, hname, hqueue, hattended⟩ := hwork
  obtain ⟨j, hown, -, hread⟩ := hjoined.exists_own hrecord hname
  refine ⟨served, hremoved, record, hrecord, hname, hqueue, ?_⟩
  cases action with
  | process =>
      obtain ⟨hnone, hlast⟩ := hkeeps
      apply hattended.process hjoined _ hnone
      rw [(hjoined.view.believes hrecord hname).previous, hlast, Option.getD_some]
  | doorcontrol => exact hattended.doorcontrol hjoined
  | external edit => exact hattended.external hjoined hkeeps
  | tcp outcome => exact hattended.tcp hjoined hread hsided hconnects hwhole

theorem AtWork.closes
    (hwork : AtWork (.store 50 carname.chars) lowest highest earlier queue n link)
    {after : Link} (hcloses : ClosesAtMost link after) :
    AtWork (.store 50 carname.chars) lowest highest earlier queue n after ∧
      after.removed = link.removed := by
  obtain ⟨controller, rfl, hcars, -⟩ := hcloses
  obtain ⟨served, hremoved, record, hrecord, hname, hqueue, hattended⟩ := hwork
  exact ⟨⟨served, hremoved, record, hcars ▸ hrecord, hname, hqueue,
    hattended.workable, hattended.unread, hattended.stage⟩, rfl⟩

/-- Every step keeps the work going, at the cost of one for a step of the process
thread. -/
theorem AtWork.step (hcar : (CarMessage.car carname lowest highest).IsReadable)
    (hjoined : Joined carname lowest highest socket link)
    (hwork : AtWork (.store 50 carname.chars) lowest highest earlier queue n link)
    (hsided : OneSided lowest highest) (hnonneg : 0 ≤ socket) {action : LinkAction}
    (hwithin : WithinConnection (.store 50 carname.chars) socket link action)
    (hwhole : ReadsWholeOrders link action)
    (hkeeps : KeepsUp (.store 50 carname.chars) link action) :
    AtWork (.store 50 carname.chars) lowest highest earlier queue
        (n - action.processSteps) (linkStep socket link action) ∧
      DropsHere socket link action := by
  cases action with
  | car action =>
      exact ⟨hwork.car hjoined hsided hwithin.1 hwhole hkeeps, Or.inl rfl⟩
  | client event =>
      exact ⟨hwork.client hjoined hnonneg hwithin.1 hwithin.2 hkeeps, Or.inl rfl⟩
  | hangUp => exact hkeeps.elim
  | fails => exact (hwork.closes closesAtMost_fails).imp_right Or.inl
  | cutShort length body stale outcome =>
      exact (hwork.closes (closesAtMost_cutShort hwithin.1 hwithin.2 stale
        outcome)).imp_right Or.inl
  | handle stale outcome =>
      simp only [DropsHere, linkStep]
      split
      · next message hmessage =>
          split
          · next hopen =>
              exact hwork.handle hcar hjoined hsided hmessage hopen stale hkeeps
          · exact ⟨hwork, Or.inl rfl⟩
      · exact ⟨hwork, Or.inl rfl⟩

end Reading

/-- A parked car whose reports have all been read, with the order for the first
stop of its queue under way. -/
structure OrderedOut (name : CString 50) (lowest highest : CString 4)
    (queue : List QueueNode) (link : Link) : Prop where
  parked : Parked link.session.tcp.car
  readFlag : link.session.tcp.car.readFlag = 1
  heard : link.handled = link.session.messages.length
  shown : (reportsOf link.session.messages).getLast?.map Prod.fst =
    some link.session.tcp.car.data.status
  record : ∃ record ∈ link.controller.registry.cars,
    record.name = name ∧ record.queue = queue
  order : ∃ stop ∈ queue.head?, link.orders = [floorToString stop.floor]
  workable : Workable lowest highest queue

section Results

variable {carname : CString 256} {lowest highest : CString 4} {socket : Int}
  {link : Link} {queue : List QueueNode}

theorem OrderedOut.atWork (hjoined : Joined carname lowest highest socket link)
    (hout : OrderedOut (.store 50 carname.chars) lowest highest queue link) :
    AtWork (.store 50 carname.chars) lowest highest link.removed queue
      (stopSteps lowest highest * queue.length) link := by
  obtain ⟨hparked, hread, hheard, hshown, ⟨record, hrecord, hname, rfl⟩,
    ⟨stop, hstop, horders⟩, hworkable⟩ := hout
  have hprevious : record.previousStatus = statusNames .Closed := by
    rw [(hjoined.view.believes hrecord hname).previous, hheard, List.take_length,
      hshown, Option.getD_some, hparked.status]
  refine ⟨[], (List.append_nil _).symm, record, hrecord, hname, rfl, hworkable, ?_, ?_⟩
  · intro _
    rw [Link.unread, hheard, List.drop_length]
    exact .nil _ _
  · have hplace : link.session.tcp.car.process = .start ∨
        link.session.tcp.car.process = .top := hparked.process.imp_right And.left
    rw [horders]
    cases hqueue : record.queue with
    | nil => simp [hqueue] at hstop
    | cons head rest =>
        obtain rfl : head = stop := by simpa [hqueue] using hstop
        refine .ordered ⟨⟨[], attending_parked hparked⟩, hparked.here, hread,
          .inl hplace⟩ (.inr hplace) ?_ (Nat.le_refl _)
        rw [hprevious]
        decide

/-- With no steps left there is no stop left. -/
theorem Stage.done {previous : CString 8} {car : CarState}
    {orders : List (CString 4)} {left : List QueueNode}
    (hstage : Stage lowest highest previous car orders left 0) : left = [] := by
  cases hstage with
  | idle => rfl
  | errand herrand hfor hopen hsteps =>
      have hless := herrand.process.2
      omega
  | closed hready hfor hprevious hsteps => omega
  | ordered hready haway hprevious hsteps =>
      rw [Nat.mul_succ, stopSteps] at hsteps
      omega

/-- Only the two programs go on, in turn, and the orders come in whole. -/
def InLockstep (link : Link) : LinkAction → Prop
  | .car .process => link.orders = [] ∧
      (reportsOf (link.session.messages.take link.handled)).getLast?.map Prod.fst =
        some link.session.tcp.car.data.status
  | .car (.tcp outcome) => link.session.tcp.pc ≠ .connect ∧
      (outcome.reception = .nothing ∨ ∃ label ∈ link.orders.head?,
        outcome.reception = .text (some label) ∧ IsOperand label.chars)
  | .handle _ outcome => outcome.orderSent = true
  | _ => False

instance (link : Link) : DecidablePred (InLockstep link)
  | .car .process => inferInstanceAs (Decidable (_ ∧ _))
  | .car (.tcp _) => inferInstanceAs (Decidable (_ ∧ _))
  | .handle _ outcome => inferInstanceAs (Decidable (outcome.orderSent = true))
  | .car (.external _) | .car .doorcontrol | .cutShort _ _ _ _ | .hangUp | .fails
  | .client _ => isFalse id

theorem InLockstep.keepsUp {name : CString 50} {action : LinkAction}
    (hlockstep : InLockstep link action) :
    WithinConnection name socket link action ∧ ReadsWholeOrders link action ∧
      KeepsUp name link action := by
  cases action with
  | car action =>
      cases action with
      | process => exact ⟨⟨rfl, trivial⟩, trivial, hlockstep⟩
      | tcp outcome =>
          obtain ⟨hplace, hnothing | ⟨label, hlabel, hreception, hword⟩⟩ := hlockstep
          · exact ⟨⟨decide_eq_false hplace, by simp [KeepsReadable, hnothing]⟩,
              readsWholeOrders_of_nothing link hnothing, trivial⟩
          · exact ⟨⟨decide_eq_false hplace, by simpa [KeepsReadable, hreception]⟩,
              fun _ => ⟨label, hlabel, hreception⟩, trivial⟩
      | external edit => exact hlockstep.elim
      | doorcontrol => exact hlockstep.elim
  | handle stale outcome => exact ⟨trivial, trivial, hlockstep⟩
  | hangUp => exact hlockstep.elim
  | fails => exact hlockstep.elim
  | cutShort length body stale outcome => exact hlockstep.elim
  | client event => exact hlockstep.elim

def reads : LinkAction := .handle blankLocals ⟨true, true, true⟩

/-- Alpha stands on floor 1 and is called there for a trip to floor 3. -/
def alphaIsCalled : List LinkAction :=
  [.car idleNetwork, .car .process, reads, reads, .client (textFrame 5 "CALL 1 3")]

/-- The TCP thread goes on until it has reported, the controller reads the
report, and the process thread goes on for `n` steps. -/
def inTurn (polls : List TcpAction) (n : Nat) : List LinkAction :=
  polls.map .car ++ reads :: List.replicate n (.car .process)

/-- Alpha opens its doors, drives to floor 3 and opens them again. -/
def alphaWorks : List LinkAction :=
  inTurn [idleNetwork, orderArrives (floorToString 1)] 4 ++
    [5, 5, 5, 0].flatMap (inTurn [idleNetwork]) ++
    inTurn [orderArrives (floorToString 3)] 8 ++
    [3, 2, 3, 3, 5, 5, 5, 0].flatMap (inTurn [idleNetwork, idleNetwork])

theorem inLockstep_alphaWorks : Along (linkStep 4) InLockstep
    (run (linkStep 4) connectedAlpha alphaIsCalled) alphaWorks := by
  decide +kernel

end Results

end Elevator
