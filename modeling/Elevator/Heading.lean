/-
Heading for the head.  The controller sends an order when a stop at the head
has been removed, and on a call only if the car's destination is the floor it
is on: a call that puts a new stop before the head of a car under way changes
the head and sends nothing.
-/
import Mathlib.Data.List.InsertIdx
import Elevator.Floor
import Elevator.OwnRecord

namespace Elevator

open CText Transition

def LastOrdered (socket : Int) (log : List ControllerEvent) (floor : Int) : Prop :=
  ∃ label ∈ (ordersTo socket log).getLast?, stringToFloor label = floor

instance (socket : Int) (log : List ControllerEvent) (floor : Int) :
    Decidable (LastOrdered socket log floor) :=
  inferInstanceAs (Decidable (∃ _ ∈ (ordersTo socket log).getLast?, _))

/-- If there is a stop at the head of the record's queue, the last order sent
to its socket names its floor. -/
def HeadOrdered (j : Nat) (socket : Int)
    (state : ControllerState × List ControllerEvent) : Prop :=
  ∀ head ∈ (queueAt state.1.cars j).head?,
    LastOrdered socket state.2 head.floor

instance (j : Nat) (socket : Int)
    (state : ControllerState × List ControllerEvent) :
    Decidable (HeadOrdered j socket state) :=
  inferInstanceAs (Decidable (∀ _ ∈ (queueAt state.1.cars j).head?, _))

/-- A call or a status report whose orders can be sent. -/
def OrdersSent : ControllerInput → Prop
  | .call _ _ _ outcome => outcome.orderSent = true
  | .status _ _ _ _ sends => sends = true
  | _ => False

/-- A floor that an order can name: not -1, which the handlers take for the end
of a queue, and not 0, which has no label. -/
def Orderable (floor : Int) : Prop :=
  floor ≠ -1 ∧ floor ≠ 0

instance (floor : Int) : Decidable (Orderable floor) :=
  inferInstanceAs (Decidable (_ ∧ _))

/-- The source of the request becomes the head of the queue. -/
def TakesHead (car : ConnectedCar) (sourceFloor destFloor : Int) : Prop :=
  car.queue = [] ∨ insertsAtCurrentFloor car sourceFloor
    (requestDirection sourceFloor destFloor) = true

instance (car : ConnectedCar) (sourceFloor destFloor : Int) :
    Decidable (TakesHead car sourceFloor destFloor) :=
  inferInstanceAs (Decidable (_ ∨ _))

/-- A call that gives the record a new head finds the car with its destination
reached, so that the order goes out, or already sent to that floor; and when
the record's doors close, an order can name the stop after the head. -/
def NewHeadOrdered (j : Nat) (socket : Int)
    (state : ControllerState × List ControllerEvent) : ControllerInput → Prop
  | .call _ source destination outcome =>
      ∀ found ∈ bestCar state.1.cars (stringToFloor source)
          (stringToFloor destination),
        found.1 = j → outcome.allocated = true →
        TakesHead found.2 (stringToFloor source) (stringToFloor destination) →
          if found.2.destinationfloor = found.2.currentfloor then
            Orderable (stringToFloor source)
          else LastOrdered socket state.2 (stringToFloor source)
  | .status sender statusStr _ _ _ =>
      sender = socket → ∀ car ∈ state.1.cars[j]?,
        car.previousStatus = statusNames .Closing →
        statusStr = statusNames .Closed →
          ∀ next ∈ car.queue[1]?, Orderable next.floor
  | _ => True

instance newHeadOrderedDecidable (j : Nat) (socket : Int)
    (state : ControllerState × List ControllerEvent) :
    (input : ControllerInput) → Decidable (NewHeadOrdered j socket state input)
  | .call .. => Option.decidableForallMem _
  | .status .. => inferInstanceAs (Decidable (_ → ∀ _ ∈ state.1.cars[j]?,
      _ → _ → ∀ _ ∈ _, _))
  | .connection _ => isTrue trivial
  | .car .. => isTrue trivial
  | .hangUp _ => isTrue trivial

/-- What holds of a car's record and its orders in any case: stops have floors
a label can decode to, and orders name floors other than -1. -/
structure UnderOrders (j : Nat) (socket : Int)
    (state : ControllerState × List ControllerEvent) : Prop where
  own : ∃ car, OwnRecord j state.1.cars car ∧ car.connectionsocket = socket
  stops : ∀ stop ∈ queueAt state.1.cars j, -99 ≤ stop.floor ∧ stop.floor ≤ 999
  orders : ∀ label ∈ ordersTo socket state.2,
    IsFloor (stringToFloor label) ∧ stringToFloor label ≠ -1

/-- The label of any number that can be read off a label is the label of a
floor, and of the same one unless it is 0. -/
theorem stringToFloor_floorToString_of_bounds {floor : Int} (hlow : -99 ≤ floor)
    (hhigh : floor ≤ 999) :
    stringToFloor (floorToString floor) = if floor = 0 then 1 else floor := by
  by_cases hzero : floor = 0
  · subst hzero
    decide
  · rw [if_neg hzero]
    apply stringToFloor_floorToString
    unfold IsFloor
    omega

theorem LastOrdered.orderable {socket : Int} {log : List ControllerEvent}
    (horders : ∀ label ∈ ordersTo socket log,
      IsFloor (stringToFloor label) ∧ stringToFloor label ≠ -1)
    {floor : Int} (hlast : LastOrdered socket log floor) : Orderable floor := by
  obtain ⟨label, hlabel, rfl⟩ := hlast
  obtain ⟨hfloor, hne⟩ := horders label (List.mem_of_getLast? hlabel)
  exact ⟨hne, hfloor.ne_zero⟩

/-- A queue's new head is what the step's order names, or else what the last
order named before. -/
theorem lastOrdered_append_nextOrder {socket : Int} {log events : List ControllerEvent}
    {car : ConnectedCar} {head : QueueNode}
    (horders : ∀ label ∈ ordersTo socket log,
      IsFloor (stringToFloor label) ∧ stringToFloor label ≠ -1)
    (hhead : car.queue.head? = some head) (hlow : -99 ≤ head.floor)
    (hhigh : head.floor ≤ 999)
    (hevents : ordersTo socket events = nextOrder car) :
    LastOrdered socket (log ++ events) head.floor ↔ Orderable head.floor := by
  have hnext : getNextDestination car = head.floor := by
    obtain ⟨rest, hqueue⟩ := List.head?_eq_some_iff.mp hhead
    simp [getNextDestination, hqueue]
  by_cases hminus : head.floor = -1
  · have hsame : ordersTo socket (log ++ events) = ordersTo socket log := by
      simp [hevents, nextOrder, hnext, hminus]
    refine iff_of_false ?_ fun horderable => horderable.1 hminus
    rw [LastOrdered, hsame]
    exact fun hlast => (LastOrdered.orderable horders hlast).1 hminus
  · have hlast : (ordersTo socket (log ++ events)).getLast? =
        some (floorToString head.floor) := by
      simp [hevents, nextOrder, hnext, hminus]
    simp only [LastOrdered, hlast, Option.mem_some_iff, exists_eq_left',
      stringToFloor_floorToString_of_bounds hlow hhigh, Orderable]
    by_cases hzero : head.floor = 0
    · simp [hzero]
    · simp [hzero, hminus]

section Queue

variable {car : ConnectedCar} {sourceFloor destFloor : Int}

/-- A direction block is entered behind one of its nodes. -/
theorem findBlock_pos {direction block : Direction} {queue : List QueueNode}
    {position : Nat}
    (hfind : findBlock direction sourceFloor block queue = some position) :
    0 < position := by
  cases queue with
  | nil => simp [findBlock] at hfind
  | cons current rest =>
      simp only [findBlock] at hfind
      split at hfind
      · have hone : 1 = position := Option.some.inj hfind
        omega
      · obtain ⟨earlier, -, rfl⟩ := Option.map_eq_some_iff.mp hfind
        omega

theorem head?_addToCarQueue_of_takesHead
    (htakes : TakesHead car sourceFloor destFloor) :
    (addToCarQueue true car sourceFloor destFloor).1.queue.head? =
      some ⟨sourceFloor, requestDirection sourceFloor destFloor⟩ := by
  by_cases hempty : car.queue = []
  · simp [addToCarQueue, hempty]
  · simp [addToCarQueue, hempty, htakes.resolve_left hempty]

theorem head?_addToCarQueue_of_not_takesHead
    (htakes : ¬ TakesHead car sourceFloor destFloor) :
    (addToCarQueue true car sourceFloor destFloor).1.queue.head? =
      car.queue.head? := by
  obtain ⟨hempty, hcurrent⟩ := not_or.mp htakes
  obtain ⟨head, rest, hqueue⟩ := List.exists_cons_of_ne_nil hempty
  simp only [addToCarQueue, Bool.not_true, Bool.false_eq_true, if_false,
    if_neg hempty, if_neg hcurrent]
  split
  · rename_i position hfind
    obtain ⟨earlier, rfl⟩ := Nat.exists_eq_succ_of_ne_zero
      (Nat.ne_of_gt (findBlock_pos hfind))
    simp [hqueue]
  · simp [hqueue]

theorem mem_addToCarQueue {stop : QueueNode}
    (hmem : stop ∈ (addToCarQueue true car sourceFloor destFloor).1.queue) :
    stop ∈ car.queue ∨
      (stop.floor = sourceFloor ∨ stop.floor = destFloor) ∧
        stop.direction = requestDirection sourceFloor destFloor := by
  simp only [addToCarQueue, Bool.not_true, Bool.false_eq_true, if_false] at hmem
  split_ifs at hmem
  · simp only [List.mem_cons, List.not_mem_nil, or_false] at hmem
    rcases hmem with rfl | rfl <;> simp
  · rcases List.mem_cons.mp hmem with rfl | hmem
    · simp
    · exact Or.inl hmem
  · split at hmem
    · rcases List.eq_or_mem_of_mem_insertIdx hmem with rfl | hmem
      · simp
      · exact Or.inl hmem
    · simp only [List.mem_append, List.mem_cons, List.not_mem_nil, or_false] at hmem
      rcases hmem with hmem | rfl | rfl
      · exact Or.inl hmem
      · simp
      · simp

@[simp] theorem removeFromCarQueue_queue (car : ConnectedCar) :
    (removeFromCarQueue car).1.queue = car.queue.tail := by
  unfold removeFromCarQueue
  cases hqueue : car.queue <;> simp [hqueue]

/-- Any order names a floor, and not -1. -/
theorem isFloor_of_mem_nextOrder
    (hstops : ∀ stop ∈ car.queue, -99 ≤ stop.floor ∧ stop.floor ≤ 999)
    {label : CString 4} (hlabel : label ∈ nextOrder car) :
    IsFloor (stringToFloor label) ∧ stringToFloor label ≠ -1 := by
  rw [nextOrder, getNextDestination] at hlabel
  cases hqueue : car.queue with
  | nil => simp [hqueue] at hlabel
  | cons head rest =>
      obtain ⟨hlow, hhigh⟩ := hstops head (by simp [hqueue])
      by_cases hminus : head.floor = -1
      · simp [hqueue, hminus] at hlabel
      · simp only [hqueue, if_neg hminus, List.mem_singleton] at hlabel
        rw [hlabel, stringToFloor_floorToString_of_bounds hlow hhigh]
        unfold IsFloor
        split <;> omega

end Queue

section Steps

variable {j : Nat} {socket : Int} {state after : ControllerState}
  {log events : List ControllerEvent}

/-- No order, and the head stays what it was. -/
theorem headOrdered_of_quiet
    (hhead : (queueAt after.cars j).head? = (queueAt state.cars j).head?)
    (horders : ordersTo socket events = []) :
    HeadOrdered j socket (after, log ++ events) ↔
      HeadOrdered j socket (state, log) := by
  simp [HeadOrdered, LastOrdered, hhead, horders]

/-- The record's queue is now that of `queued`, and its head is ordered. -/
theorem headOrdered_of_ordered {queued : ConnectedCar}
    (hinv : UnderOrders j socket (state, log))
    (hstops : ∀ stop ∈ queued.queue, -99 ≤ stop.floor ∧ stop.floor ≤ 999)
    (hqueue : queueAt after.cars j = queued.queue)
    (horders : ordersTo socket events = nextOrder queued) :
    HeadOrdered j socket (after, log ++ events) ↔
      ∀ head ∈ queued.queue.head?, Orderable head.floor := by
  simp only [HeadOrdered, hqueue]
  refine forall₂_congr fun head hhead => ?_
  obtain ⟨hlow, hhigh⟩ := hstops head (List.mem_of_mem_head? hhead)
  exact lastOrdered_append_nextOrder hinv.orders hhead hlow hhigh horders

/-- The record keeps its name and socket, and whatever is put into its queue or
sent to its socket comes off a label. -/
theorem UnderOrders.step {queued : ConnectedCar}
    (hinv : UnderOrders j socket (state, log))
    (hidentity : after.cars.map ConnectedCar.identity =
      state.cars.map ConnectedCar.identity)
    (hstops : ∀ stop ∈ queued.queue, -99 ≤ stop.floor ∧ stop.floor ≤ 999)
    (hqueue : queueAt after.cars j = queued.queue)
    (horders : ordersTo socket events = nextOrder queued ∨
      ordersTo socket events = []) :
    UnderOrders j socket (after, log ++ events) where
  own := by
    obtain ⟨car, hown, hsocket⟩ := hinv.own
    obtain ⟨new, hnew, hsame⟩ := hown.exists_of_identity hidentity
    exact ⟨new, hnew, hsame.trans hsocket⟩
  stops := by
    rw [hqueue]
    exact hstops
  orders := by
    intro label hlabel
    rw [ordersTo_append, List.mem_append] at hlabel
    rcases hlabel with hold | hnew
    · exact hinv.orders label hold
    · rcases horders with hnext | hnone
      · exact isFloor_of_mem_nextOrder hstops (hnext ▸ hnew)
      · simp [hnone] at hnew

variable {car : ConnectedCar}

theorem headOrdered_status_own (hinv : UnderOrders j socket (state, log))
    (hordered : HeadOrdered j socket (state, log))
    (hown : OwnRecord j state.cars car) (hsocket : car.connectionsocket = socket)
    (statusStr : CString 8) (currentFloor destinationFloor : CString 4) :
    let input := .status socket statusStr currentFloor destinationFloor true
    let after := logged controllerStep (state, log) input
    UnderOrders j socket after ∧
      (HeadOrdered j socket after ↔ NewHeadOrdered j socket (state, log) input) := by
  obtain ⟨hqueue, horders⟩ := statusStep_own hown statusStr currentFloor
    destinationFloor
  rw [hsocket] at hqueue horders
  have hidentity := statusStep_identity state socket statusStr currentFloor
    destinationFloor true
  have hbefore := queueAt_of_getElem? hown.record
  have hstops : ∀ stop ∈ car.queue, -99 ≤ stop.floor ∧ stop.floor ≤ 999 :=
    hbefore ▸ hinv.stops
  have hguard : NewHeadOrdered j socket (state, log)
      (.status socket statusStr currentFloor destinationFloor true) ↔
        (doorsClosed (reportedCar car statusStr currentFloor destinationFloor) →
          ∀ next ∈ car.queue[1]?, Orderable next.floor) := by
    rw [doorsClosed_reportedCar]
    simp [NewHeadOrdered, hown.record]
  intro input after
  rw [hguard]
  by_cases hclosed : doorsClosed
      (reportedCar car statusStr currentFloor destinationFloor) = true
  · rw [if_pos hclosed] at hqueue horders
    have hrest : ∀ stop ∈ (removeFromCarQueue
        (reportedCar car statusStr currentFloor destinationFloor)).1.queue,
        -99 ≤ stop.floor ∧ stop.floor ≤ 999 := by
      intro stop hstop
      rw [removeFromCarQueue_queue] at hstop
      exact hstops stop (List.mem_of_mem_tail hstop)
    refine ⟨hinv.step hidentity hrest hqueue (.inl horders), ?_⟩
    refine (headOrdered_of_ordered hinv hrest hqueue horders).trans ?_
    rw [removeFromCarQueue_queue, List.head?_tail]
    exact ⟨fun h _ => h, fun h => h hclosed⟩
  · rw [if_neg hclosed] at hqueue horders
    refine ⟨hinv.step hidentity hstops hqueue (.inr horders), ?_⟩
    have hhead := congrArg List.head? (hqueue.trans hbefore.symm)
    exact iff_of_true ((headOrdered_of_quiet hhead horders).mpr hordered)
      fun h => absurd h hclosed

theorem headOrdered_call_own (hinv : UnderOrders j socket (state, log))
    (hordered : HeadOrdered j socket (state, log)) (hnonneg : 0 ≤ socket)
    (hown : OwnRecord j state.cars car) (hsocket : car.connectionsocket = socket)
    (pad : Int) {source destination : CString 4} {outcome : CallOutcome}
    (hallocated : outcome.allocated = true) (hsent : outcome.orderSent = true)
    (hbest : bestCar state.cars (stringToFloor source)
      (stringToFloor destination) = some (j, car)) :
    let input := .call pad source destination outcome
    let after := logged controllerStep (state, log) input
    UnderOrders j socket after ∧
      (HeadOrdered j socket after ↔ NewHeadOrdered j socket (state, log) input) := by
  obtain ⟨hqueue, horders⟩ := callStep_own pad hown (hsocket ▸ hnonneg) hallocated
    hsent hbest
  rw [hsocket] at horders
  have hidentity := callStep_identity state pad source destination outcome
  have hbefore := queueAt_of_getElem? hown.record
  have hstops : ∀ stop ∈ (addToCarQueue true car (stringToFloor source)
      (stringToFloor destination)).1.queue,
      -99 ≤ stop.floor ∧ stop.floor ≤ 999 := by
    intro stop hstop
    rcases mem_addToCarQueue hstop with hmem | ⟨hfloor | hfloor, -⟩
    · exact hinv.stops stop (by rwa [hbefore])
    · rw [hfloor]
      exact stringToFloor_bounds source
    · rw [hfloor]
      exact stringToFloor_bounds destination
  have hguard : NewHeadOrdered j socket (state, log)
      (.call pad source destination outcome) ↔
        (TakesHead car (stringToFloor source) (stringToFloor destination) →
          if car.destinationfloor = car.currentfloor then
            Orderable (stringToFloor source)
          else LastOrdered socket log (stringToFloor source)) := by
    simp [NewHeadOrdered, hbest, hallocated]
  intro input after
  rw [hguard]
  by_cases hhere : car.destinationfloor = car.currentfloor
  · rw [if_pos hhere] at horders ⊢
    refine ⟨hinv.step hidentity hstops hqueue (.inl horders), ?_⟩
    refine (headOrdered_of_ordered hinv hstops hqueue horders).trans ?_
    by_cases htakes : TakesHead car (stringToFloor source)
        (stringToFloor destination)
    · simp [head?_addToCarQueue_of_takesHead htakes, htakes]
    · rw [head?_addToCarQueue_of_not_takesHead htakes]
      -- The order repeats the one that the old head was last named in.
      refine iff_of_true (fun head hhead => ?_) fun h => absurd h htakes
      exact (hordered head (by rwa [hbefore])).orderable hinv.orders
  · rw [if_neg hhere] at horders ⊢
    refine ⟨hinv.step hidentity hstops hqueue (.inr horders), ?_⟩
    by_cases htakes : TakesHead car (stringToFloor source)
        (stringToFloor destination)
    · simp [after, input, logged, controllerStep, HeadOrdered, LastOrdered, hqueue,
        horders, head?_addToCarQueue_of_takesHead htakes, htakes]
    · have hhead := head?_addToCarQueue_of_not_takesHead htakes
      rw [← hqueue, ← hbefore] at hhead
      exact iff_of_true ((headOrdered_of_quiet hhead horders).mpr hordered)
        fun h => absurd h htakes

/-- A call or status report leaves the record with a head that is ordered if and
only if it meets the guard. -/
theorem headOrdered_step (hnonneg : 0 ≤ socket)
    (hinv : UnderOrders j socket (state, log))
    (hordered : HeadOrdered j socket (state, log)) {input : ControllerInput}
    (hinput : OrdersSent input) :
    UnderOrders j socket (logged controllerStep (state, log) input) ∧
      (HeadOrdered j socket (logged controllerStep (state, log) input) ↔
        NewHeadOrdered j socket (state, log) input) := by
  obtain ⟨car, hown, hsocket⟩ := hinv.own
  have hbefore := queueAt_of_getElem? hown.record
  have hstops : ∀ stop ∈ car.queue, -99 ≤ stop.floor ∧ stop.floor ≤ 999 :=
    hbefore ▸ hinv.stops
  -- What a step that passes the record by leaves.
  have hpassed {after : ControllerState} {events : List ControllerEvent}
      (hidentity : after.cars.map ConnectedCar.identity =
        state.cars.map ConnectedCar.identity)
      (hcar : after.cars[j]? = some car) (horders : ordersTo socket events = []) :
      UnderOrders j socket (after, log ++ events) ∧
        HeadOrdered j socket (after, log ++ events) := by
    have hqueue := queueAt_of_getElem? hcar
    have hhead := congrArg List.head? (hqueue.trans hbefore.symm)
    exact ⟨hinv.step hidentity hstops hqueue (.inr horders),
      (headOrdered_of_quiet hhead horders).mpr hordered⟩
  cases input with
  | call pad source destination outcome =>
      by_cases hchosen : outcome.allocated = true ∧ ∃ found ∈ bestCar state.cars
          (stringToFloor source) (stringToFloor destination), found.1 = j
      · obtain ⟨hallocated, ⟨record, found⟩, hbest, rfl⟩ := hchosen
        obtain rfl : found = car := Option.some.inj
          ((getElem?_of_bestCar hbest).symm.trans hown.record)
        exact headOrdered_call_own hinv hordered hnonneg hown hsocket pad hallocated
          hinput hbest
      · have hother : outcome.allocated = true → ∀ found ∈ bestCar state.cars
            (stringToFloor source) (stringToFloor destination), found.1 ≠ j :=
          fun hallocated found hfound heq =>
            hchosen ⟨hallocated, found, hfound, heq⟩
        obtain ⟨hcar, horders⟩ := callStep_other pad hown (hsocket ▸ hnonneg) hother
        rw [hsocket] at horders
        obtain ⟨hunder, hafter⟩ := hpassed
          (callStep_identity state pad source destination outcome) hcar horders
        exact ⟨hunder, iff_of_true hafter fun found hfound heq hallocated =>
          absurd heq (hother hallocated found hfound)⟩
  | status sender statusStr currentFloor destinationFloor sends =>
      obtain rfl : sends = true := hinput
      by_cases hsender : sender = socket
      · subst hsender
        exact headOrdered_status_own hinv hordered hown hsocket _ _ _
      · obtain ⟨hcar, horders⟩ := statusStep_other hown
          (fun heq => hsender (heq.trans hsocket)) statusStr currentFloor
          destinationFloor true
        rw [hsocket] at horders
        obtain ⟨hunder, hafter⟩ := hpassed (statusStep_identity state sender
          statusStr currentFloor destinationFloor true) hcar horders
        exact ⟨hunder, iff_of_true hafter fun heq => absurd heq hsender⟩
  | connection _ => exact hinput.elim
  | car _ _ _ _ _ => exact hinput.elim
  | hangUp _ => exact hinput.elim

end Steps

/-- The invariant: the record is under orders, and its head is ordered. -/
def Heading (j : Nat) (socket : Int)
    (state : ControllerState × List ControllerEvent) : Prop :=
  UnderOrders j socket state ∧ HeadOrdered j socket state

theorem heading_step {j : Nat} {socket : Int} (hnonneg : 0 ≤ socket)
    (state : ControllerState × List ControllerEvent) (input : ControllerInput)
    (hinv : Heading j socket state) (hinput : OrdersSent input)
    (hguard : NewHeadOrdered j socket state input) :
    Heading j socket (logged controllerStep state input) := by
  obtain ⟨hunder, hiff⟩ := headOrdered_step hnonneg hinv.1 hinv.2 hinput
  exact ⟨hunder, hiff.mpr hguard⟩

theorem newHeadOrdered_of_headOrdered {j : Nat} {socket : Int}
    (hnonneg : 0 ≤ socket) (state : ControllerState × List ControllerEvent)
    (input : ControllerInput) (hinv : Heading j socket state)
    (hinput : OrdersSent input)
    (hafter : HeadOrdered j socket (logged controllerStep state input)) :
    NewHeadOrdered j socket state input :=
  (headOrdered_step hnonneg hinv.1 hinv.2 hinput).2.mp hafter

/-- A registered car that starts with an empty queue, and shares neither its
name nor its socket with another record, heads for the head of its queue
throughout if and only if each new head finds an order that names it. -/
theorem headOrdered_iff_newHeadOrdered (state : ControllerState) (j : Nat)
    (car : ConnectedCar) (hown : OwnRecord j state.cars car)
    (hqueue : car.queue = []) (hnonneg : 0 ≤ car.connectionsocket)
    (inputs : List ControllerInput)
    (hinputs : ∀ input ∈ inputs, OrdersSent input) :
    Always (logged controllerStep) (HeadOrdered j car.connectionsocket)
        (state, []) inputs ↔
      Along (logged controllerStep) (NewHeadOrdered j car.connectionsocket)
        (state, []) inputs := by
  have hbefore := (queueAt_of_getElem? hown.record).trans hqueue
  have hstart : Heading j car.connectionsocket (state, []) :=
    ⟨⟨⟨car, hown, rfl⟩, by simp [hbefore], by simp⟩,
      by simp [HeadOrdered, hbefore]⟩
  exact always_iff_along (heading_step hnonneg) (fun _ hinv => hinv.2)
    (newHeadOrdered_of_headOrdered hnonneg) hstart (along_of_forall_mem hinputs)

/-- Alpha is called to floor 3 while it stands idle, and told to go on to 6 when
its doors have closed there. -/
theorem headOrdered_one_trip :
    Always (logged controllerStep) (HeadOrdered 0 4) (idleRegistry, [])
      [callFrom 3 6, reportAt .Between 1 3, callFrom 5 2, reportAt .Closing 3 3,
        reportAt .Closed 3 3] :=
  (headOrdered_iff_newHeadOrdered idleRegistry 0 idleCar
    ⟨rfl, fun i other hother _ => by
      cases i with
      | zero => rfl
      | succ i => simp [idleRegistry] at hother⟩
    rfl (by decide) _ (by simp [OrdersSent, callFrom, reportAt])).mpr (by decide)

/-- Alpha is under way from floor 1 to floor 3, as far as the controller knows
still on floor 1, when somebody calls from there: floor 1 is put at the head of
the queue, and no order is sent. -/
theorem head_not_ordered :
    idleCar.queue = [] ∧
      (queueAt (run (logged controllerStep) (idleRegistry, [])
        [callFrom 3 6, callFrom 1 2]).1.cars 0).map (·.floor) = [1, 3, 6] ∧
      ordersTo 4 (run (logged controllerStep) (idleRegistry, [])
        [callFrom 3 6, callFrom 1 2]).2 = [floorToString 3] ∧
      ¬ Always (logged controllerStep) (HeadOrdered 0 4) (idleRegistry, [])
        [callFrom 3 6, callFrom 1 2] := by
  refine ⟨rfl, by decide, by decide, ?_⟩
  intro halways
  exact absurd halways.final (by decide)

end Elevator
