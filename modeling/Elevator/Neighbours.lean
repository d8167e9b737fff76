/-
What other clients can do to a car's record.  They call it, which adds to its
queue and may send it an order; they report, register, hang up and fail, which
leaves the record of another name and socket as it is.
-/
import Elevator.Independence
import Elevator.Connections
import Elevator.Heading
import Elevator.Dispatch
import Elevator.Turns
import Mathlib.Data.List.NodupEquivFin

namespace Elevator

open CText Framing Transition Turns

/-- The floor lies between the lowest and the highest of the record. -/
def Reaches (car : ConnectedCar) (floor : Int) : Prop :=
  stringToFloor car.lowestFloor ≤ floor ∧ floor ≤ stringToFloor car.highestFloor

/-- The record has been furthered: nothing but its queue and its destination has
changed, the stops that are new lie between its floors and are those of a
request, each request has overtaken the others once at most, and whatever has
been ordered is the floor of a stop in the queue. -/
structure Furthered (before after : ConnectedCar) (requests : List (Int × Int))
    (orders : List (CString 4)) : Prop where
  frame : after = { before with
    queue := after.queue
    destinationfloor := after.destinationfloor }
  stops : ∀ stop ∈ after.queue, stop ∈ before.queue ∨
    Reaches before stop.floor ∧
      ∃ request ∈ requests, stop.floor = request.1 ∨ stop.floor = request.2
  turn : Overtakes requests.length before.queue after.queue
  orders : ∀ label ∈ orders, ∃ stop ∈ after.queue,
    label = floorToString stop.floor

theorem Furthered.refl (car : ConnectedCar) (requests : List (Int × Int)) :
    Furthered car car requests [] where
  frame := rfl
  stops := fun _ hstop => Or.inl hstop
  turn := .refl _ car.queue
  orders := fun _ hlabel => absurd hlabel List.not_mem_nil

/-- Nobody has registered under the name, or on the socket. -/
def Vacant (name : CString 50) (socket : Int) (cars : List ConnectedCar) : Prop :=
  ∀ other ∈ cars, other.name ≠ name ∧ other.connectionsocket ≠ socket

def ControllerInput.socket : ControllerInput → Int
  | .connection socket => socket
  | .call socket _ _ _ => socket
  | .car socket _ _ _ _ => socket
  | .status socket _ _ _ _ => socket
  | .hangUp socket => socket

/-- A registration is not one under this name. -/
def ControllerInput.SparesName (name : CString 50) : ControllerInput → Prop
  | .car _ newName _ _ _ => newName ≠ name
  | _ => True

/-- A call that the scan gives to the record. -/
def ControllerInput.AsksOf (cars : List ConnectedCar) (j : Nat) :
    ControllerInput → Prop
  | .call _ source destination outcome => outcome.allocated = true ∧
      ∃ found, bestCar cars (stringToFloor source) (stringToFloor destination) =
        some (j, found)
  | _ => False

section Records

variable {j : Nat} {cars : List ConnectedCar} {car : ConnectedCar}

theorem OwnRecord.sublist (hown : OwnRecord j cars car)
    {after : List ConnectedCar} (hsub : after.Sublist cars) (hkept : car ∈ after) :
    ∃ i, OwnRecord i after car := by
  obtain ⟨i, hi⟩ := List.mem_iff_getElem?.mp hkept
  obtain ⟨place, hplace⟩ :=
    List.sublist_iff_exists_orderEmbedding_getElem?_eq.mp hsub
  refine ⟨i, hi, fun k other hother hclash => ?_⟩
  have hfirst := hown.unique (place k) other ((hplace k).symm.trans hother) hclash
  have hsecond := hown.unique (place i) car ((hplace i).symm.trans hi) (.inl rfl)
  exact place.injective (hfirst.trans hsecond.symm)

theorem OwnRecord.push (hown : OwnRecord j cars car) {newCar : ConnectedCar}
    (hname : newCar.name ≠ car.name)
    (hsocket : newCar.connectionsocket ≠ car.connectionsocket) :
    OwnRecord j (controllerPush cars newCar) car := by
  obtain ⟨hj, -⟩ := List.getElem?_eq_some_iff.mp hown.record
  refine ⟨by rw [controllerPush, List.getElem?_append_left hj, hown.record], ?_⟩
  intro i other hother hclash
  by_cases hi : i < cars.length
  · rw [controllerPush, List.getElem?_append_left hi] at hother
    exact hown.unique i other hother hclash
  · rw [controllerPush, List.getElem?_append_right (Nat.le_of_not_lt hi)] at hother
    obtain rfl : other = newCar :=
      List.mem_singleton.mp (List.mem_of_getElem? hother)
    exact absurd hclash (not_or.mpr ⟨hname, hsocket⟩)

/-- The records before and behind it have neither its name nor its socket. -/
theorem OwnRecord.split (hown : OwnRecord j cars car) :
    ∃ before behind, cars = before ++ car :: behind ∧
      Vacant car.name car.connectionsocket before ∧
      Vacant car.name car.connectionsocket behind := by
  obtain ⟨before, behind, rfl, rfl, -⟩ := exists_split_of_unique car.name
    hown.record rfl fun k first hfirst hname => hown.unique k first hfirst (.inl hname)
  refine ⟨before, behind, rfl, ?_, ?_⟩
  · intro other hother
    rw [← not_or]
    intro hclash
    obtain ⟨k, hk⟩ := List.mem_iff_getElem?.mp hother
    obtain ⟨hlt, -⟩ := List.getElem?_eq_some_iff.mp hk
    have heq := hown.unique k other
      (by rw [List.getElem?_append_left hlt, hk]) hclash
    omega
  · intro other hother
    rw [← not_or]
    intro hclash
    obtain ⟨k, hk⟩ := List.mem_iff_getElem?.mp hother
    have heq := hown.unique (before.length + (k + 1)) other
      (by rw [List.getElem?_append_right (Nat.le_add_right _ _),
        Nat.add_sub_cancel_left, List.getElem?_cons_succ, hk]) hclash
    omega

/-- The record is taken out when its connection ends, and with it everything
that has its name or its socket. -/
theorem OwnRecord.vacant (hown : OwnRecord j cars car) :
    Vacant car.name car.connectionsocket
      (cars.eraseP fun other => other.name = car.name) := by
  obtain ⟨before, behind, rfl, hbefore, hbehind⟩ := hown.split
  rw [List.eraseP_append_right _ fun other hother => by
      simpa using (hbefore other hother).1,
    List.eraseP_cons_of_pos (by simp)]
  intro other hother
  exact (List.mem_append.mp hother).elim (hbefore other) (hbehind other)

end Records

section Inputs

variable {state : ControllerState} {j : Nat} {car : ConnectedCar}

theorem mem_ordersTo {socket : Int} {label : CString 4}
    {log : List ControllerEvent} :
    label ∈ ordersTo socket log ↔ .sent socket (.floor label) ∈ log := by
  constructor
  · intro hlabel
    obtain ⟨event, hevent, hsome⟩ := List.mem_filterMap.mp hlabel
    split at hsome
    · split_ifs at hsome with hreceiver
      rw [Option.some.injEq] at hsome
      rwa [← hreceiver, ← hsome]
    · cases hsome
  · intro hevent
    exact List.mem_filterMap.mpr ⟨_, hevent, if_pos rfl⟩

theorem exists_stop_of_getNextDestination
    (hnext : getNextDestination car ≠ -1) :
    ∃ stop ∈ car.queue, getNextDestination car = stop.floor := by
  unfold getNextDestination at hnext ⊢
  split at hnext
  · exact absurd rfl hnext
  · next head rest hqueue =>
      rw [hqueue]
      exact ⟨head, List.mem_cons_self, rfl⟩

/-- A request that the scan gives to the car is put on record. -/
theorem OwnRecord.requestsOf_call (hown : OwnRecord j state.cars car)
    (hnonneg : 0 ≤ car.connectionsocket) {source destination : CString 4}
    {outcome : CallOutcome} (socket : Int) (hallocated : outcome.allocated = true)
    (hbest : bestCar state.cars (stringToFloor source)
      (stringToFloor destination) = some (j, car)) :
    (stringToFloor source, stringToFloor destination) ∈
      requestsOf j (callStep state socket source destination outcome).2 := by
  have hselected : (sendNextDestination state j (addToCarQueue true car
      (stringToFloor source) (stringToFloor destination)).1
        outcome.orderSent).2.1 = true := by
    rw [sendNextDestination_selected_iff hown.record
      (addToCarQueue_identity true car _ _), controllerGetSocketByName_own hown]
    intro _
    omega
  simp only [callStep, handleElevatorCall, hbest, hallocated,
    addToCarQueue_allocated, if_true, hselected]
  split <;> simp

/-- A request puts one stop before others at most. -/
theorem overtakes_addToCarQueue (car : ConnectedCar) (sourceFloor destFloor : Int) :
    Overtakes 1 car.queue
      (addToCarQueue true car sourceFloor destFloor).1.queue := by
  simp only [addToCarQueue, Bool.not_true, Bool.false_eq_true, if_false]
  split_ifs with hempty hfront
  · rw [hempty]
    exact (Overtakes.append [] _).mono (Nat.zero_le 1)
  · exact .head _ car.queue
  · split
    · exact .insertIdx _ car.queue _
    · exact (Overtakes.append car.queue _).mono (Nat.zero_le 1)

/-- A call that the scan gives to the car. -/
theorem OwnRecord.furthered_assigned (hown : OwnRecord j state.cars car)
    (hnonneg : 0 ≤ car.connectionsocket) {source destination : CString 4}
    {outcome : CallOutcome} (socket : Int) (hallocated : outcome.allocated = true)
    (hbest : bestCar state.cars (stringToFloor source)
      (stringToFloor destination) = some (j, car)) :
    let after := callStep state socket source destination outcome
    ∃ new, OwnRecord j after.1.cars new ∧
      Furthered car new (requestsOf j after.2)
        (ordersTo car.connectionsocket after.2) := by
  intro after
  have hserves : Serves car (stringToFloor source) (stringToFloor destination) :=
    ((bestCar_eq_some_iff _ _ _).mp hbest).1.admitted
  have hidentity : (addToCarQueue true car (stringToFloor source)
      (stringToFloor destination)).1.identity = car.identity :=
    addToCarQueue_identity true car _ _
  obtain ⟨destination', hcars⟩ := sendNextDestination_cars state j
    (addToCarQueue true car (stringToFloor source) (stringToFloor destination)).1
    outcome.orderSent
  have hafter : after.1.cars[j]? = some { (addToCarQueue true car
      (stringToFloor source) (stringToFloor destination)).1 with
        destinationfloor := destination' } := by
    rw [callStep_cars hallocated hbest, hcars, List.getElem?_set_self
      (List.getElem?_eq_some_iff.mp hown.record).1]
  refine ⟨_, hown.of_identity (callStep_identity _ _ _ _ _) hafter, ?_, ?_, ?_, ?_⟩
  · rw [addToCarQueue_frame]
  · intro stop hstop
    apply (mem_addToCarQueue hstop).imp_right
    rintro ⟨hfloor, -⟩
    refine ⟨?_, _, hown.requestsOf_call hnonneg socket hallocated hbest, hfloor⟩
    rcases hfloor with hfloor | hfloor
    · exact hfloor ▸ hserves _ (by simp)
    · exact hfloor ▸ hserves _ (by simp)
  · apply (overtakes_addToCarQueue car _ _).mono
    exact List.length_pos_of_mem
      (hown.requestsOf_call hnonneg socket hallocated hbest)
  · intro label hlabel
    rw [ordersTo_callStep socket hallocated hbest, mem_ordersTo,
      mem_sendNextDestination_iff hown.record hidentity] at hlabel
    obtain ⟨hdue, -, -, hsent⟩ := hlabel
    obtain ⟨stop, hstop, hnext⟩ := exists_stop_of_getNextDestination hdue.2
    simp only [ControllerEvent.sent.injEq, ControllerMessage.floor.injEq] at hsent
    exact ⟨stop, hstop, by rw [hsent.2, hnext]⟩

/-- What another client does without asking anything of the car leaves its record
alone, and sends it no order. -/
theorem OwnRecord.untouched (hown : OwnRecord j state.cars car)
    (hnonneg : 0 ≤ car.connectionsocket) {input : ControllerInput}
    (hother : input.socket ≠ car.connectionsocket)
    (hspares : input.SparesName car.name) (hasks : ¬ input.AsksOf state.cars j) :
    ∃ i, OwnRecord i (controllerStep state input).1.cars car ∧
      ordersTo car.connectionsocket (controllerStep state input).2 = [] := by
  cases input with
  | connection socket => exact ⟨j, hown, rfl⟩
  | car socket name lowestFloor highestFloor fresh =>
      exact ⟨j, hown.push hspares hother, rfl⟩
  | hangUp socket =>
      have hsub : (hangUpStep state socket).cars.Sublist state.cars := by
        simp only [hangUpStep, ControllerState.drop]
        split
        · exact List.eraseP_sublist
        · exact List.Sublist.refl _
      have hkept : car ∈ (hangUpStep state socket).cars := by
        simp only [hangUpStep, ControllerState.drop]
        split
        · next name hname =>
            apply (List.mem_eraseP_of_neg _).mpr
              (List.mem_of_getElem? hown.record)
            rw [decide_eq_true_iff]
            rintro rfl
            exact controllerGetNameBySocket_other hown hother hname
        · exact List.mem_of_getElem? hown.record
      obtain ⟨i, hi⟩ := hown.sublist hsub hkept
      exact ⟨i, hi, rfl⟩
  | status socket statusStr currentFloor destinationFloor sends =>
      have hsocket : socket ≠ car.connectionsocket := hother
      obtain ⟨hrecord, horders⟩ := statusStep_other hown hsocket statusStr
        currentFloor destinationFloor sends
      exact ⟨j, hown.of_identity (statusStep_identity _ _ _ _ _ _) hrecord, horders⟩
  | call socket source destination outcome =>
      obtain ⟨hrecord, horders⟩ := callStep_other socket hown hnonneg
        fun hallocated found hbest hplace =>
          hasks ⟨hallocated, found.2, by rw [← hplace]; exact hbest⟩
      exact ⟨j, hown.of_identity (callStep_identity _ _ _ _ _) hrecord, horders⟩

/-- Whatever another client does furthers the record, if it does not register
under the same name. -/
theorem OwnRecord.furthered (hown : OwnRecord j state.cars car)
    (hnonneg : 0 ≤ car.connectionsocket) {input : ControllerInput}
    (hother : input.socket ≠ car.connectionsocket)
    (hspares : input.SparesName car.name) :
    ∃ i new, OwnRecord i (controllerStep state input).1.cars new ∧
      Furthered car new (requestsOf j (controllerStep state input).2)
        (ordersTo car.connectionsocket (controllerStep state input).2) := by
  by_cases hasks : input.AsksOf state.cars j
  · cases input with
    | call socket source destination outcome =>
        obtain ⟨hallocated, found, hbest⟩ := hasks
        obtain rfl : found = car := Option.some.inj
          ((getElem?_of_bestCar hbest).symm.trans hown.record)
        obtain ⟨new, hnew, hfurthered⟩ :=
          hown.furthered_assigned hnonneg socket hallocated hbest
        exact ⟨j, new, hnew, hfurthered⟩
    | _ => exact hasks.elim
  · obtain ⟨i, hi, horders⟩ := hown.untouched hnonneg hother hspares hasks
    refine ⟨i, car, hi, ?_⟩
    rw [horders]
    exact .refl car _

/-- A request that is asked of the car is put on record. -/
theorem OwnRecord.requestsOf_of_asksOf (hown : OwnRecord j state.cars car)
    (hnonneg : 0 ≤ car.connectionsocket) {input : ControllerInput}
    (hasks : input.AsksOf state.cars j) :
    requestsOf j (controllerStep state input).2 ≠ [] := by
  cases input with
  | call socket source destination outcome =>
      obtain ⟨hallocated, found, hbest⟩ := hasks
      obtain rfl : found = car := Option.some.inj
        ((getElem?_of_bestCar hbest).symm.trans hown.record)
      exact List.ne_nil_of_mem (hown.requestsOf_call hnonneg socket hallocated hbest)
  | _ => exact hasks.elim

variable {name : CString 50} {socket : Int}

theorem Vacant.sublist {before after : List ConnectedCar}
    (hvacant : Vacant name socket before) (hsub : after.Sublist before) :
    Vacant name socket after :=
  fun other hother => hvacant other (hsub.subset hother)

theorem Vacant.of_identity {before after : List ConnectedCar}
    (hvacant : Vacant name socket before)
    (hmap : after.map ConnectedCar.identity = before.map ConnectedCar.identity) :
    Vacant name socket after := by
  intro other hother
  have hmem : other.identity ∈ before.map ConnectedCar.identity :=
    hmap ▸ List.mem_map_of_mem hother
  obtain ⟨first, hfirst, hsame⟩ := List.mem_map.mp hmem
  obtain ⟨hname, hsocket⟩ := hvacant first hfirst
  rw [show first.name = other.name from congrArg Prod.fst hsame] at hname
  rw [show first.connectionsocket = other.connectionsocket from
    congrArg Prod.snd hsame] at hsocket
  exact ⟨hname, hsocket⟩

theorem Vacant.register {cars : List ConnectedCar}
    (hvacant : Vacant name socket cars) {newCar : ConnectedCar}
    (hname : newCar.name = name) (hsocket : newCar.connectionsocket = socket) :
    OwnRecord cars.length (controllerPush cars newCar) newCar := by
  refine ⟨by simp [controllerPush], fun i other hother hclash => ?_⟩
  by_cases hi : i < cars.length
  · rw [controllerPush, List.getElem?_append_left hi] at hother
    obtain ⟨hne, hne'⟩ := hvacant other (List.mem_of_getElem? hother)
    rw [hname, hsocket] at hclash
    exact absurd hclash (not_or.mpr ⟨hne, hne'⟩)
  · obtain ⟨hlt, -⟩ := List.getElem?_eq_some_iff.mp hother
    rw [controllerPush, List.length_append, List.length_singleton] at hlt
    omega

/-- A socket that no record has is found for no name. -/
theorem Vacant.getSocketByName {cars : List ConnectedCar}
    (hvacant : Vacant name socket cars) (hnonneg : 0 ≤ socket)
    (other : CString 50) : controllerGetSocketByName cars other ≠ socket := by
  rw [controllerGetSocketByName]
  cases hfind : cars.find? fun car => car.name = other with
  | none =>
      rw [Option.map_none, Option.getD_none]
      omega
  | some found => exact (hvacant found (List.mem_of_find?_eq_some hfind)).2

/-- Before the car has registered, nobody sends it an order. -/
theorem Vacant.ordersTo_call (hvacant : Vacant name socket state.cars)
    (hnonneg : 0 ≤ socket) (caller : Int) (source destination : CString 4)
    (outcome : CallOutcome) :
    ordersTo socket (callStep state caller source destination outcome).2 = [] := by
  by_cases hrefused : bestCar state.cars (stringToFloor source)
      (stringToFloor destination) = none ∨ outcome.allocated = false
  · rw [(callStep_refused caller outcome hrefused).2]
    split <;> rfl
  · obtain ⟨hbest, hallocated⟩ := not_or.mp hrefused
    rw [Bool.not_eq_false] at hallocated
    obtain ⟨⟨record, found⟩, hbest⟩ := Option.ne_none_iff_exists'.mp hbest
    rw [ordersTo_callStep caller hallocated hbest]
    apply ordersTo_eq_nil
    intro label hlabel
    rw [mem_sendNextDestination_iff (getElem?_of_bestCar hbest)
      (addToCarQueue_identity true found _ _)] at hlabel
    obtain ⟨-, -, -, hsent⟩ := hlabel
    simp only [ControllerEvent.sent.injEq] at hsent
    exact hvacant.getSocketByName hnonneg found.name hsent.1.symm

/-- Others leave a name and a socket to their owner. -/
theorem Vacant.step (hvacant : Vacant name socket state.cars)
    (hnonneg : 0 ≤ socket) {input : ControllerInput}
    (hother : input.socket ≠ socket) (hspares : input.SparesName name) :
    Vacant name socket (controllerStep state input).1.cars ∧
      ordersTo socket (controllerStep state input).2 = [] := by
  cases input with
  | connection other => exact ⟨hvacant, rfl⟩
  | car other newName lowestFloor highestFloor fresh =>
      refine ⟨?_, rfl⟩
      intro record hrecord
      rcases List.mem_append.mp hrecord with hold | hnew
      · exact hvacant record hold
      · rw [List.mem_singleton.mp hnew]
        exact ⟨hspares, hother⟩
  | hangUp other =>
      refine ⟨hvacant.sublist ?_, rfl⟩
      simp only [controllerStep, hangUpStep, ControllerState.drop]
      split
      · exact List.eraseP_sublist
      · exact List.Sublist.refl _
  | call caller source destination outcome =>
      exact ⟨hvacant.of_identity (callStep_identity _ _ _ _ _),
        hvacant.ordersTo_call hnonneg caller source destination outcome⟩
  | status sender statusStr currentFloor destinationFloor sends =>
      refine ⟨hvacant.of_identity (statusStep_identity _ _ _ _ _ _), ?_⟩
      apply ordersTo_eq_nil
      intro label hlabel
      simp only [controllerStep] at hlabel
      cases hname : controllerGetNameBySocket state.cars sender with
      | none =>
          rw [statusStep_none hname] at hlabel
          exact absurd hlabel List.not_mem_nil
      | some found =>
          rw [sent_statusStep_iff _ _ _ _ _ _ hname] at hlabel
          obtain ⟨-, -, -, -, hreceiver, -⟩ := hlabel
          exact hother hreceiver.symm

end Inputs

def SocketEvent.socket : SocketEvent → Int
  | .accepted socket => socket
  | .readable socket _ _ _ => socket

/-- The event registers nobody under this name. -/
def SparesName (name : CString 50) (state : LoopState) : SocketEvent → Prop
  | .readable _ (.frame length body) stale _ =>
      ∀ newName lowestFloor highestFloor,
        parseCommand (state.buffer.readBody length body).text stale =
          some (.car newName lowestFloor highestFloor) → newName ≠ name
  | _ => True

/-- What an event does to the registry: nothing but close sockets, or what one
input of its client does. -/
inductive Amounts (state : LoopState) (event : SocketEvent)
    (after : LoopState × List ControllerEvent) : Prop where
  | quiet (hcars : after.1.registry.cars = state.registry.cars)
      (hset : after.1.registry.masterSet ⊆ state.registry.masterSet)
      (hevents : after.2 = [])
  | input (registry : ControllerState) (input : ControllerInput)
      (hcars : registry.cars = state.registry.cars)
      (hset : registry.masterSet ⊆ state.registry.masterSet)
      (hsocket : input.socket = event.socket)
      (hspares : ∀ name, SparesName name state event → input.SparesName name)
      (hregistry : after.1.registry = (controllerStep registry input).1)
      (hevents : after.2 = (controllerStep registry input).2)

theorem loopStep_amounts (state : LoopState) (event : SocketEvent) :
    Amounts state event (loopStep state event) := by
  cases event with
  | accepted socket =>
      simp only [loopStep]
      split
      · exact .quiet rfl (List.Subset.refl _) rfl
      · exact .input state.registry (.connection socket) rfl (List.Subset.refl _)
          rfl (fun _ _ => trivial) rfl rfl
  | readable socket arrival stale outcome =>
      simp only [loopStep]
      split
      · exact .quiet rfl (List.Subset.refl _) rfl
      · cases arrival with
        | again => exact .quiet rfl (List.Subset.refl _) rfl
        | failed => exact .quiet rfl (drop_shrinks _ _) rfl
        | hangUp =>
            exact .input state.registry (.hangUp socket) rfl (List.Subset.refl _)
              rfl (fun _ _ => trivial) rfl rfl
        | frame length body =>
            have hcars := receive_cars state socket length body
            have hset := receive_shrinks state socket length body
            simp only [handleFrame]
            split
            · exact .quiet hcars hset rfl
            · next command hcommand =>
                refine .input _ (command.input
                  (receive state socket length body).registry socket stale outcome)
                  hcars hset ?_ ?_ rfl rfl
                · cases command <;> rfl
                · intro name hspares
                  cases command with
                  | car newName lowestFloor highestFloor =>
                      exact hspares newName lowestFloor highestFloor hcommand
                  | call source destination => trivial
                  | status statusStr currentFloor destinationFloor => trivial

/-- Only `accept` opens a socket. -/
theorem loopStep_masterSet (state : LoopState) (event : SocketEvent) {socket : Int}
    (hother : event.socket ≠ socket) (hclosed : socket ∉ state.registry.masterSet) :
    socket ∉ (loopStep state event).1.registry.masterSet := by
  rcases loopStep_amounts state event with
    ⟨-, hset, -⟩ | ⟨registry, input, -, hset, hsocket, -, hregistry, -⟩
  · exact fun hopen => hclosed (hset hopen)
  · rw [hregistry]
    intro hopen
    by_cases hconnection : ∃ accepted, input = .connection accepted
    · obtain ⟨accepted, rfl⟩ := hconnection
      rcases List.mem_append.mp hopen with hold | hnew
      · exact hclosed (hset hold)
      · rw [List.mem_singleton.mp hnew] at hother
        exact hother hsocket.symm
    · have hshrinks := controllerStep_shrinks registry input
        fun accepted haccepted => hconnection ⟨accepted, haccepted⟩
      exact hclosed (hset (hshrinks hopen))

section Events

variable {state : LoopState} {event : SocketEvent} {name : CString 50}
  {socket : Int}

/-- An event of another client's leaves a vacant name vacant. -/
theorem Vacant.after_event (hvacant : Vacant name socket state.registry.cars)
    (hnonneg : 0 ≤ socket) (hother : event.socket ≠ socket)
    (hspares : SparesName name state event) :
    Vacant name socket (loopStep state event).1.registry.cars ∧
      ordersTo socket (loopStep state event).2 = [] := by
  rcases loopStep_amounts state event with ⟨hcars, -, hevents⟩ |
    ⟨registry, input, hcars, -, hsocket, hinput, hregistry, hevents⟩
  · rw [hcars, hevents]
    exact ⟨hvacant, rfl⟩
  · rw [hregistry, hevents]
    exact Vacant.step (hcars ▸ hvacant) hnonneg (hsocket ▸ hother)
      (hinput name hspares)

/-- Without a request for the car it leaves the record alone. -/
theorem OwnRecord.untouched_event {j : Nat} {car : ConnectedCar}
    (hown : OwnRecord j state.registry.cars car) (hnonneg : 0 ≤ car.connectionsocket)
    (hother : event.socket ≠ car.connectionsocket)
    (hspares : SparesName car.name state event)
    (hnone : requestsOf j (loopStep state event).2 = []) :
    ∃ i, OwnRecord i (loopStep state event).1.registry.cars car ∧
      ordersTo car.connectionsocket (loopStep state event).2 = [] := by
  rcases loopStep_amounts state event with ⟨hcars, -, hevents⟩ |
    ⟨registry, input, hcars, -, hsocket, hinput, hregistry, hevents⟩
  · rw [hcars, hevents]
    exact ⟨j, hown, rfl⟩
  · rw [hevents] at hnone
    rw [hregistry, hevents]
    have hown' : OwnRecord j registry.cars car := hcars ▸ hown
    exact hown'.untouched hnonneg (hsocket ▸ hother) (hinput _ hspares)
      fun hasks => hown'.requestsOf_of_asksOf hnonneg hasks hnone

/-- And it furthers a record at most. -/
theorem OwnRecord.after_event {j : Nat} {car : ConnectedCar}
    (hown : OwnRecord j state.registry.cars car) (hnonneg : 0 ≤ car.connectionsocket)
    (hother : event.socket ≠ car.connectionsocket)
    (hspares : SparesName car.name state event) :
    ∃ i new, OwnRecord i (loopStep state event).1.registry.cars new ∧
      Furthered car new (requestsOf j (loopStep state event).2)
        (ordersTo car.connectionsocket (loopStep state event).2) := by
  rcases loopStep_amounts state event with ⟨hcars, -, hevents⟩ |
    ⟨registry, input, hcars, -, hsocket, hinput, hregistry, hevents⟩
  · rw [hcars, hevents]
    exact ⟨j, car, hown, .refl car _⟩
  · rw [hregistry, hevents]
    exact OwnRecord.furthered (hcars ▸ hown) hnonneg (hsocket ▸ hother)
      (hinput _ hspares)

end Events

end Elevator
