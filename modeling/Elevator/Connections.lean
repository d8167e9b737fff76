/-
Registered cars and live connections.  A socket is closed on many paths; only
the orderly hang-up takes a record out of the registry with it.
-/
import Elevator.NamedRecord
import Elevator.ControllerLoop

namespace Elevator

open CText Framing Transition

/-- Every registered car's socket is open and watched. -/
def Live (state : ControllerState) : Prop :=
  ∀ car ∈ state.cars, car.connectionsocket ∈ state.masterSet

instance (state : ControllerState) : Decidable (Live state) :=
  inferInstanceAs (Decidable (∀ car ∈ state.cars, _))

def NobodyOn (cars : List ConnectedCar) (socket : Int) : Prop :=
  ∀ car ∈ cars, car.connectionsocket ≠ socket

instance (cars : List ConnectedCar) (socket : Int) :
    Decidable (NobodyOn cars socket) :=
  inferInstanceAs (Decidable (∀ car ∈ cars, _))

/-- A hang-up finds the record it is about: at most one record is of the socket,
and the first record with the name of that one is of the socket as well. -/
def FindsItself (cars : List ConnectedCar) (socket : Int) : Prop :=
  cars.countP (fun car => car.connectionsocket = socket) ≤ 1 ∧
    ∀ name ∈ controllerGetNameBySocket cars socket,
      ∀ first ∈ firstNamed cars name, first.connectionsocket = socket

instance (cars : List ConnectedCar) (socket : Int) :
    Decidable (FindsItself cars socket) :=
  inferInstanceAs (Decidable (_ ∧ ∀ name ∈ controllerGetNameBySocket cars socket,
    ∀ first ∈ firstNamed cars name, _))

/-- A command does not lead to a closed socket in the registry: what has to be
sent to a car can be sent, and whoever registers has not just been hung up on. -/
def CommandKeeps (cars : List ConnectedCar) (socket : Int) (readable : Prop)
    (outcome : CallOutcome) : Command → Prop
  | .call source destination =>
      (callOrder cars (stringToFloor source) (stringToFloor destination)
          outcome.allocated ≠ none → outcome.orderSent = true) ∧
      (outcome.replySent = true ∨ NobodyOn cars socket)
  | .car _ _ _ => readable
  | .status statusStr _ _ =>
      ∀ name ∈ controllerGetNameBySocket cars socket,
        ∀ car ∈ firstNamed cars name,
          OrderDue statusStr car → outcome.orderSent = true

/-- The event does not cut off a registered car. -/
def KeepsLive (state : LoopState) : SocketEvent → Prop
  | .accepted _ => True
  | .readable socket arrival stale outcome =>
      socket ∈ state.registry.masterSet →
        match arrival with
        | .again => True
        | .hangUp => FindsItself state.registry.cars socket
        | .failed => NobodyOn state.registry.cars socket
        | .frame length body =>
            (body.take length = [] → NobodyOn state.registry.cars socket) ∧
            ∀ command ∈ parseCommand (state.buffer.readBody length body).text
                stale,
              CommandKeeps state.registry.cars socket (body.take length ≠ [])
                outcome command

theorem nobodyOn_iff_countP {cars : List ConnectedCar} {socket : Int} :
    NobodyOn cars socket ↔
      cars.countP (fun car => car.connectionsocket = socket) = 0 := by
  simp [NobodyOn, List.countP_eq_zero]

theorem live_drop_iff {state : ControllerState} (hlive : Live state)
    (socket : Int) : Live (state.drop socket) ↔ NobodyOn state.cars socket := by
  simp only [Live, ControllerState.drop, List.mem_filter, ne_eq,
    decide_not, Bool.not_eq_true', decide_eq_false_iff_not, NobodyOn]
  constructor
  · exact fun hdropped car hcar => (hdropped car hcar).2
  · exact fun hnobody car hcar => ⟨hlive car hcar, hnobody car hcar⟩

section Call

variable {state : ControllerState} {socket : Int} {source destination : CString 4}
  {outcome : CallOutcome}

theorem callOrder_eq {sourceFloor destFloor : Int} {record : Nat}
    {car : ConnectedCar}
    (hbest : bestCar state.cars sourceFloor destFloor = some (record, car)) :
    let queued := (addToCarQueue true car sourceFloor destFloor).1
    callOrder state.cars sourceFloor destFloor true =
      if queued.destinationfloor = queued.currentfloor ∧
          getNextDestination queued ≠ -1 then
        some (floorToString (getNextDestination queued))
      else none := by
  simp only [callOrder, hbest, addToCarQueue_allocated, true_and]

theorem orderSocket_eq {sourceFloor destFloor : Int} {record : Nat}
    {car : ConnectedCar}
    (hbest : bestCar state.cars sourceFloor destFloor = some (record, car)) :
    orderSocket state.cars sourceFloor destFloor =
      controllerGetSocketByName state.cars car.name := by
  simp [orderSocket, hbest]

theorem callOrder_refused (cars : List ConnectedCar)
    (sourceFloor destFloor : Int) :
    callOrder cars sourceFloor destFloor false = none := by
  cases hbest : bestCar cars sourceFloor destFloor with
  | none => simp [callOrder, hbest]
  | some found => simp [callOrder, hbest, addToCarQueue_refused]

/-- An order that is due and cannot be sent closes the car's socket. -/
theorem sendNextDestination_masterSet
    (hsockets : ∀ car ∈ state.cars, 0 ≤ car.connectionsocket) {record : Nat}
    {old car : ConnectedCar} (hold : state.cars[record]? = some old)
    (hidentity : car.identity = old.identity) (orderSent : Bool) :
    (sendNextDestination state record car orderSent).1.masterSet =
      if (car.destinationfloor = car.currentfloor ∧
          getNextDestination car ≠ -1) ∧ orderSent = false then
        state.masterSet.filter
          (· ≠ controllerGetSocketByName state.cars old.name)
      else state.masterSet := by
  have hsocket := controllerGetSocketByName_ordered hold hidentity
  have hnonneg := controllerGetSocketByName_nonneg hsockets
    ⟨old, List.mem_of_getElem? hold, rfl⟩
  have hfound : controllerGetSocketByName state.cars old.name ≠ -1 := by omega
  simp only [sendNextDestination, hsocket, if_neg hfound]
  by_cases hdue : car.destinationfloor = car.currentfloor ∧
      getNextDestination car ≠ -1
  · rw [if_pos hdue]
    cases orderSent with
    | true => simp
    | false => simp [hdue, ControllerState.drop]
  · rw [if_neg hdue, if_neg fun h => hdue h.1]

/-- What a call closes: the socket of the car, if an order is due and cannot be
sent, and the caller's, if the reply cannot. -/
theorem callStep_masterSet
    (hsockets : ∀ car ∈ state.cars, 0 ≤ car.connectionsocket) :
    (callStep state socket source destination outcome).1.masterSet =
      let ordered :=
        if callOrder state.cars (stringToFloor source)
            (stringToFloor destination) outcome.allocated ≠ none ∧
            outcome.orderSent = false then
          state.masterSet.filter (· ≠ orderSocket state.cars
            (stringToFloor source) (stringToFloor destination))
        else state.masterSet
      if outcome.replySent then ordered else ordered.filter (· ≠ socket) := by
  rcases outcome with ⟨allocated, orderSent, replySent⟩
  cases hbest : bestCar state.cars (stringToFloor source)
      (stringToFloor destination) with
  | none =>
      have hnone : callOrder state.cars (stringToFloor source)
          (stringToFloor destination) allocated = none := by
        simp [callOrder, hbest]
      cases replySent <;>
        simp [callStep, handleElevatorCall, hbest, hnone, ControllerState.drop]
  | some found =>
      obtain ⟨record, car⟩ := found
      cases allocated with
      | false =>
          have hnone := callOrder_refused state.cars (stringToFloor source)
            (stringToFloor destination)
          cases replySent <;>
            simp [callStep, handleElevatorCall, hbest, hnone,
              addToCarQueue_refused, ControllerState.drop]
      | true =>
          have horder := callOrder_eq hbest
          have hsocket := orderSocket_eq hbest
          have hidentity := addToCarQueue_identity true car
            (stringToFloor source) (stringToFloor destination)
          have hsent := sendNextDestination_masterSet hsockets
            (getElem?_of_bestCar hbest) hidentity orderSent
          have hhandled : (handleElevatorCall state (stringToFloor source)
              (stringToFloor destination)
              ⟨true, orderSent, replySent⟩).1.masterSet =
                (sendNextDestination state record (addToCarQueue true car
                  (stringToFloor source) (stringToFloor destination)).1
                    orderSent).1.masterSet := by
            simp only [handleElevatorCall, hbest, addToCarQueue_allocated, if_true]
            split <;> rfl
          have hdue : (callOrder state.cars (stringToFloor source)
              (stringToFloor destination) true ≠ none) =
                ((addToCarQueue true car (stringToFloor source)
                    (stringToFloor destination)).1.destinationfloor =
                  (addToCarQueue true car (stringToFloor source)
                    (stringToFloor destination)).1.currentfloor ∧
                getNextDestination (addToCarQueue true car (stringToFloor source)
                  (stringToFloor destination)).1 ≠ -1) := by
            rw [horder]
            split <;> simp_all
          simp only [hdue, hsocket, ← hsent, ← hhandled]
          cases replySent <;> simp [callStep, ControllerState.drop]

/-- The socket found by a registered name is a car's. -/
theorem exists_socketByName {car : ConnectedCar} (hcar : car ∈ state.cars) :
    ∃ first ∈ state.cars, first.connectionsocket =
      controllerGetSocketByName state.cars car.name := by
  obtain ⟨first, hfirst⟩ := exists_firstNamed hcar rfl
  refine ⟨first, List.mem_of_find?_eq_some hfirst, ?_⟩
  rw [firstNamed] at hfirst
  simp [controllerGetSocketByName, hfirst]

theorem orderSocket_mem {sourceFloor destFloor : Int} {allocated : Bool}
    (hdue : callOrder state.cars sourceFloor destFloor allocated ≠ none) :
    ∃ car ∈ state.cars,
      car.connectionsocket = orderSocket state.cars sourceFloor destFloor := by
  cases hbest : bestCar state.cars sourceFloor destFloor with
  | none => simp [callOrder, hbest] at hdue
  | some found =>
      obtain ⟨record, car⟩ := found
      rw [orderSocket_eq hbest]
      exact exists_socketByName (List.mem_of_getElem? (getElem?_of_bestCar hbest))

end Call

/-- Whether a state is live is a matter of its sockets. -/
theorem live_congr {first second : ControllerState}
    (hmap : first.cars.map (·.connectionsocket) =
      second.cars.map (·.connectionsocket))
    (hset : first.masterSet = second.masterSet) : Live first ↔ Live second := by
  have hiff (state : ControllerState) : Live state ↔
      ∀ socket ∈ state.cars.map (·.connectionsocket), socket ∈ state.masterSet := by
    simp [Live]
  rw [hiff, hiff, hmap, hset]

section Live

variable {state : ControllerState}

theorem orderSocket_live (hlive : Live state) {sourceFloor destFloor : Int}
    {allocated : Bool}
    (hdue : callOrder state.cars sourceFloor destFloor allocated ≠ none) :
    orderSocket state.cars sourceFloor destFloor ∈ state.masterSet := by
  obtain ⟨car, hcar, hsocket⟩ := orderSocket_mem hdue
  exact hsocket ▸ hlive car hcar

variable (socket : Int) (source destination : CString 4) (outcome : CallOutcome)

theorem Live.sockets (hlive : Live state)
    (hnonneg : ∀ socket ∈ state.masterSet, 0 ≤ socket) :
    ∀ car ∈ state.cars, 0 ≤ car.connectionsocket :=
  fun car hcar => hnonneg _ (hlive car hcar)

/-- The order that is due cannot be sent: the car is cut off. -/
theorem not_live_call (hlive : Live state)
    (hnonneg : ∀ socket ∈ state.masterSet, 0 ≤ socket)
    (hdue : callOrder state.cars (stringToFloor source)
      (stringToFloor destination) outcome.allocated ≠ none)
    (hunsent : outcome.orderSent = false) :
    ¬ Live (callStep state socket source destination
      (sendable state socket source destination outcome)).1 := by
  intro hafter
  have hset := @callStep_masterSet state socket source destination
    (sendable state socket source destination outcome) (hlive.sockets hnonneg)
  have hgone : orderSocket state.cars (stringToFloor source)
      (stringToFloor destination) ∉ (callStep state socket source destination
        (sendable state socket source destination outcome)).1.masterSet := by
    have hdue' : callOrder state.cars (stringToFloor source)
        (stringToFloor destination) (sendable state socket source destination
          outcome).allocated ≠ none := hdue
    rw [hset]
    simp only [sendable, hunsent]
    split <;> simp [hdue]
  obtain ⟨car, hcar, hsocket⟩ := orderSocket_mem hdue
  have hmem : car.connectionsocket ∈ (callStep state socket source destination
      (sendable state socket source destination outcome)).1.cars.map
        (·.connectionsocket) := by
    rw [callStep_map _ _ _ _ _ _ fun _ _ _ => rfl]
    exact List.mem_map_of_mem hcar
  obtain ⟨other, hother, hsame⟩ := List.mem_map.mp hmem
  exact hgone (hsocket ▸ hsame ▸ hafter other hother)

/-- Otherwise a call closes the caller's socket at most, if that is open. -/
theorem masterSet_call (hlive : Live state)
    (hnonneg : ∀ socket ∈ state.masterSet, 0 ≤ socket)
    (hsent : callOrder state.cars (stringToFloor source)
      (stringToFloor destination) outcome.allocated ≠ none →
        outcome.orderSent = true) :
    (callStep state socket source destination
        (sendable state socket source destination outcome)).1.masterSet =
      if outcome.replySent = true ∧ socket ∈ state.masterSet then
        state.masterSet
      else state.masterSet.filter (· ≠ socket) := by
  have hset (reply : Bool) : (callStep state socket source destination
      ⟨outcome.allocated, (sendable state socket source destination
        outcome).orderSent, reply⟩).1.masterSet =
          if reply then state.masterSet
          else state.masterSet.filter (· ≠ socket) := by
    have hnot : ¬ (callOrder state.cars (stringToFloor source)
        (stringToFloor destination) outcome.allocated ≠ none ∧
          (sendable state socket source destination outcome).orderSent =
            false) := by
      rintro ⟨hdue, hfails⟩
      simp [sendable, hsent hdue, orderSocket_live hlive hdue] at hfails
    rw [callStep_masterSet (hlive.sockets hnonneg)]
    simp only [if_neg hnot]
  have hreply : (sendable state socket source destination outcome).replySent =
      (outcome.replySent && decide (socket ∈ state.masterSet)) := by
    have hopen := hset true
    simp only [if_true] at hopen
    simp only [sendable] at hopen ⊢
    rw [hopen]
  have hall := hset (sendable state socket source destination outcome).replySent
  have houtcome : (⟨outcome.allocated, (sendable state socket source destination
      outcome).orderSent, (sendable state socket source destination
        outcome).replySent⟩ : CallOutcome) =
          sendable state socket source destination outcome := rfl
  rw [houtcome, hreply] at hall
  rw [hall]
  simp only [Bool.and_eq_true, decide_eq_true_eq]

theorem live_call_iff (hlive : Live state)
    (hnonneg : ∀ socket ∈ state.masterSet, 0 ≤ socket) :
    Live (callStep state socket source destination
        (sendable state socket source destination outcome)).1 ↔
      (callOrder state.cars (stringToFloor source) (stringToFloor destination)
          outcome.allocated ≠ none → outcome.orderSent = true) ∧
        (outcome.replySent = true ∨ NobodyOn state.cars socket) := by
  by_cases hsent : callOrder state.cars (stringToFloor source)
      (stringToFloor destination) outcome.allocated ≠ none →
        outcome.orderSent = true
  · have hset := masterSet_call socket source destination outcome hlive hnonneg
      hsent
    have hmap := callStep_map state socket source destination
      (sendable state socket source destination outcome) (·.connectionsocket)
      fun _ _ _ => rfl
    by_cases hreply : outcome.replySent = true ∧ socket ∈ state.masterSet
    · rw [if_pos hreply] at hset
      exact iff_of_true ((live_congr hmap hset).mpr hlive)
        ⟨hsent, Or.inl hreply.1⟩
    · rw [if_neg hreply] at hset
      rw [@live_congr _ (state.drop socket) hmap hset, live_drop_iff hlive]
      constructor
      · exact fun hnobody => ⟨hsent, Or.inr hnobody⟩
      · rintro ⟨-, hreplied | hnobody⟩
        · intro car hcar hsocket
          exact hreply ⟨hreplied, hsocket ▸ hlive car hcar⟩
        · exact hnobody
  · obtain ⟨hdue, hunsent⟩ := Classical.not_imp.mp hsent
    apply iff_of_false
    · apply not_live_call socket source destination outcome hlive hnonneg hdue
      simpa using hunsent
    · exact fun hkept => hsent hkept.1

theorem live_status_iff (hlive : Live state) (statusStr : CString 8)
    (currentFloor destinationFloor : CString 4) (orderSent : Bool) :
    Live (statusStep state socket statusStr currentFloor destinationFloor
        (orderSent && decide (socket ∈ state.masterSet))).1 ↔
      ∀ name ∈ controllerGetNameBySocket state.cars socket,
        ∀ car ∈ firstNamed state.cars name,
          OrderDue statusStr car → orderSent = true := by
  cases hname : controllerGetNameBySocket state.cars socket with
  | none =>
      rw [statusStep_none hname]
      exact iff_of_true hlive fun name hname => by cases hname
  | some name =>
      -- the sender is registered, so its socket is open to begin with
      obtain ⟨car, hcar, hsocket, -⟩ := controllerGetNameBySocket_eq_some hname
      have hmem : socket ∈ state.masterSet := hsocket ▸ hlive car hcar
      have hidentity := statusStep_identity state socket statusStr currentFloor
        destinationFloor (orderSent && decide (socket ∈ state.masterSet))
      have hmap := map_connectionsocket_of_identity hidentity
      have hset := statusStep_masterSet statusStr currentFloor destinationFloor
        (orderSent && decide (socket ∈ state.masterSet)) hname
      simp only [hmem, decide_true, Bool.and_true] at hset hmap ⊢
      by_cases hkept : ∀ car ∈ firstNamed state.cars name,
          OrderDue statusStr car → orderSent = true
      · rw [if_pos hkept] at hset
        apply iff_of_true ((live_congr hmap hset).mpr hlive)
        intro other hother
        obtain rfl : name = other := Option.some.inj hother
        exact hkept
      · rw [if_neg hkept] at hset
        rw [@live_congr _ (state.drop socket) hmap hset, live_drop_iff hlive]
        apply iff_of_false
        · exact fun hnobody => hnobody car hcar hsocket
        · exact fun hall => hkept (hall name rfl)

/-- A hang-up on a car's socket: the first record with the car's name goes. -/
theorem hangUpStep_some {name : CString 50}
    (hname : controllerGetNameBySocket state.cars socket = some name) :
    ∃ before removed behind, state.cars = before ++ removed :: behind ∧
      firstNamed state.cars name = some removed ∧
      hangUpStep state socket =
        ControllerState.drop { state with cars := before ++ behind } socket := by
  obtain ⟨sender, hsender, -, hsenderName⟩ :=
    controllerGetNameBySocket_eq_some hname
  obtain ⟨removed, before, behind, hbefore, hremoved, hcars, herase⟩ :=
    @List.exists_of_eraseP _ (fun car : ConnectedCar => car.name = name) _
      sender hsender (by simpa using hsenderName)
  refine ⟨before, removed, behind, hcars, ?_, ?_⟩
  · apply List.find?_eq_some_iff_append.mpr
    refine ⟨hremoved, before, behind, hcars, ?_⟩
    intro car hcar
    simpa using hbefore car hcar
  · simp only [hangUpStep, hname, controllerRemoveByName, herase]

theorem hangUpStep_none
    (hname : controllerGetNameBySocket state.cars socket = none) :
    hangUpStep state socket = state.drop socket := by
  simp only [hangUpStep, hname]

theorem findsItself_of_nobodyOn {cars : List ConnectedCar}
    (hnobody : NobodyOn cars socket) : FindsItself cars socket := by
  refine ⟨by rw [nobodyOn_iff_countP.mp hnobody]; omega, ?_⟩
  intro name hname
  obtain ⟨car, hcar, hsocket, -⟩ := controllerGetNameBySocket_eq_some hname
  exact absurd hsocket (hnobody car hcar)

/-- The records of a socket, with the one that is taken out counted apart. -/
theorem countP_removed (socket : Int) (before behind : List ConnectedCar)
    (removed : ConnectedCar) :
    (before ++ removed :: behind).countP (fun car => car.connectionsocket = socket) =
      (before ++ behind).countP (fun car => car.connectionsocket = socket) +
        if removed.connectionsocket = socket then 1 else 0 := by
  simp only [List.countP_append, List.countP_cons, decide_eq_true_eq]
  omega

theorem findsItself_iff_of_first {cars : List ConnectedCar} {name : CString 50}
    {first : ConnectedCar}
    (hname : controllerGetNameBySocket cars socket = some name)
    (hfirst : firstNamed cars name = some first) :
    FindsItself cars socket ↔
      cars.countP (fun car => car.connectionsocket = socket) ≤ 1 ∧
        first.connectionsocket = socket := by
  simp only [FindsItself, hname, Option.mem_def, Option.some.injEq, forall_eq',
    hfirst]

/-- After a hang-up nobody is left on the socket exactly when the record that
went was the only one on it. -/
theorem live_hangUp_iff (hlive : Live state) :
    Live (hangUpStep state socket) ↔ FindsItself state.cars socket := by
  cases hname : controllerGetNameBySocket state.cars socket with
  | none =>
      have hnobody : NobodyOn state.cars socket :=
        controllerGetNameBySocket_eq_none hname
      rw [hangUpStep_none socket hname]
      exact iff_of_true ((live_drop_iff hlive socket).mpr hnobody)
        (findsItself_of_nobodyOn socket hnobody)
  | some name =>
      obtain ⟨sender, hsender, hsocket, -⟩ :=
        controllerGetNameBySocket_eq_some hname
      obtain ⟨before, removed, behind, hcars, hfirst, hafter⟩ :=
        hangUpStep_some socket hname
      have hrest : Live { state with cars := before ++ behind } := by
        intro car hcar
        apply hlive
        rw [hcars]
        exact ((List.sublist_cons_self removed behind).append_left
          before).subset hcar
      have hpos : state.cars.countP (fun car => car.connectionsocket = socket) ≠
          0 := fun hzero => nobodyOn_iff_countP.mpr hzero sender hsender hsocket
      have hsum := countP_removed socket before behind removed
      rw [← hcars] at hsum
      rw [hafter, live_drop_iff hrest, nobodyOn_iff_countP,
        findsItself_iff_of_first socket hname hfirst]
      split_ifs at hsum with hown
      · simp only [hown, and_true]
        omega
      · simp only [hown, and_false, iff_false]
        omega

theorem live_push_iff (hlive : Live state) (car : ConnectedCar) :
    Live { state with cars := controllerPush state.cars car } ↔
      car.connectionsocket ∈ state.masterSet := by
  simp only [Live, controllerPush, List.mem_append, List.mem_singleton]
  constructor
  · exact fun h => h car (Or.inr rfl)
  · rintro hopen other (hother | rfl)
    · exact hlive other hother
    · exact hopen

end Live

theorem drop_shrinks (state : ControllerState) (socket : Int) :
    (state.drop socket).masterSet ⊆ state.masterSet :=
  List.filter_subset_self _

theorem callStep_shrinks (state : ControllerState) (socket : Int)
    (source destination : CString 4) (outcome : CallOutcome) :
    (callStep state socket source destination outcome).1.masterSet ⊆
      state.masterSet := by
  have hsend (record : Nat) (car : ConnectedCar) (sent : Bool) :
      (sendNextDestination state record car sent).1.masterSet ⊆
        state.masterSet := by
    simp only [sendNextDestination]
    split
    · split
      · exact List.Subset.refl _
      · split
        · exact List.Subset.refl _
        · exact drop_shrinks _ _
    · exact List.Subset.refl _
  have hhandled : (handleElevatorCall state (stringToFloor source)
      (stringToFloor destination) outcome).1.masterSet ⊆ state.masterSet := by
    simp only [handleElevatorCall]
    split
    · exact List.Subset.refl _
    · split
      · split <;> exact hsend _ _ _
      · exact List.Subset.refl _
  simp only [callStep]
  split
  · exact hhandled
  · exact List.Subset.trans (drop_shrinks _ _) hhandled

/-- No socket is opened but by a connection. -/
theorem controllerStep_shrinks (state : ControllerState)
    (input : ControllerInput) (hinput : ∀ socket, input ≠ .connection socket) :
    (controllerStep state input).1.masterSet ⊆ state.masterSet := by
  cases input with
  | connection accepted => exact absurd rfl (hinput accepted)
  | call caller source destination outcome => exact callStep_shrinks _ _ _ _ _
  | car sender name lowestFloor highestFloor fresh => exact List.Subset.refl _
  | status sender statusStr currentFloor destinationFloor sends =>
      simp only [controllerStep, statusStep]
      split
      · exact List.Subset.refl _
      · dsimp only
        split
        · exact List.Subset.refl _
        · exact drop_shrinks _ _
  | hangUp closed => exact drop_shrinks _ _

section Execute

variable {state : LoopState}

theorem execute_shrinks (state : LoopState) (socket : Int) (stale : Locals)
    (outcome : CallOutcome) (command : Command) :
    (execute state socket stale outcome command).1.registry.masterSet ⊆
      state.registry.masterSet :=
  controllerStep_shrinks _ _ fun _ => by
    cases command <;> simp [Command.input]

/-- A command takes no record away, so it mends nothing. -/
theorem live_of_execute {socket : Int} {stale : Locals} {outcome : CallOutcome}
    {command : Command}
    (hafter : Live (execute state socket stale outcome command).1.registry) :
    Live state.registry := by
  have hkept : state.registry.cars.map (·.connectionsocket) ⊆
      (execute state socket stale outcome command).1.registry.cars.map
        (·.connectionsocket) := by
    cases command with
    | call source destination =>
        simp only [execute, Command.input, controllerStep]
        rw [callStep_map _ _ _ _ _ _ fun _ _ _ => rfl]
        exact List.Subset.refl _
    | car name lowestFloor highestFloor =>
        simp [execute, Command.input, controllerStep, controllerPush]
    | status statusStr currentFloor destinationFloor =>
        simp only [execute, Command.input, controllerStep]
        rw [map_connectionsocket_of_identity (statusStep_identity _ _ _ _ _ _)]
        exact List.Subset.refl _
  intro car hcar
  obtain ⟨other, hother, hsocket⟩ :=
    List.mem_map.mp (hkept (List.mem_map_of_mem hcar))
  exact execute_shrinks state socket stale outcome command
    (hsocket ▸ hafter other hother)

theorem live_execute_iff (hlive : Live state.registry)
    (hnonneg : ∀ socket ∈ state.registry.masterSet, 0 ≤ socket) (socket : Int)
    (stale : Locals) (outcome : CallOutcome) (command : Command) :
    Live (execute state socket stale outcome command).1.registry ↔
      CommandKeeps state.registry.cars socket
        (socket ∈ state.registry.masterSet) outcome command := by
  cases command with
  | call source destination =>
      exact live_call_iff socket source destination outcome hlive hnonneg
  | car name lowestFloor highestFloor => exact live_push_iff hlive _
  | status statusStr currentFloor destinationFloor =>
      exact live_status_iff socket hlive statusStr currentFloor destinationFloor
        outcome.orderSent

theorem receive_shrinks (state : LoopState) (socket : Int) (length : Nat)
    (body : List UInt8) :
    (receive state socket length body).registry.masterSet ⊆
      state.registry.masterSet := by
  rw [receive_registry]
  split
  · exact drop_shrinks _ _
  · exact List.Subset.refl _

theorem live_receive_iff (hlive : Live state.registry) (socket : Int)
    (length : Nat) (body : List UInt8) :
    Live (receive state socket length body).registry ↔
      (body.take length = [] → NobodyOn state.registry.cars socket) := by
  rw [receive_registry]
  split
  · next hempty => simp [live_drop_iff hlive, hempty]
  · next hread => simp [hlive, hread]

theorem live_frame_iff (hlive : Live state.registry)
    (hnonneg : ∀ socket ∈ state.registry.masterSet, 0 ≤ socket) {socket : Int}
    (hopen : socket ∈ state.registry.masterSet) (length : Nat)
    (body : List UInt8) (stale : Locals) (outcome : CallOutcome) :
    Live (handleFrame state socket length body stale outcome).1.registry ↔
      KeepsLive state (.readable socket (.frame length body) stale outcome) := by
  have hreceived := live_receive_iff hlive socket length body
  have hread : socket ∈ (receive state socket length body).registry.masterSet ↔
      body.take length ≠ [] := by
    rw [receive_registry]
    split <;> simp_all [ControllerState.drop]
  simp only [KeepsLive, hopen, forall_const, handleFrame]
  cases hcommand : parseCommand (receive state socket length body).buffer.text
      stale with
  | none =>
      have hnone : parseCommand (state.buffer.readBody length body).text stale =
          none := hcommand
      simp only [hnone, hreceived]
      simp
  | some command =>
      have hsome : parseCommand (state.buffer.readBody length body).text stale =
          some command := hcommand
      simp only [hsome, Option.mem_def, Option.some.injEq, forall_eq']
      by_cases hstill : Live (receive state socket length body).registry
      · rw [live_execute_iff hstill
          (fun other hother => hnonneg other (receive_shrinks _ _ _ _ hother)),
          receive_cars, hread]
        exact (and_iff_right (hreceived.mp hstill)).symm
      · apply iff_of_false
        · exact fun hafter => hstill (live_of_execute hafter)
        · exact fun hkeeps => hstill (hreceived.mpr hkeeps.1)

end Execute

/-- One event: it leaves every registered car connected exactly when it does not
cut one off. -/
theorem live_loopNext_iff {state : LoopState} (hlive : Live state.registry)
    (hnonneg : ∀ socket ∈ state.registry.masterSet, 0 ≤ socket)
    (event : SocketEvent) :
    Live (loopNext state event).registry ↔ KeepsLive state event := by
  cases event with
  | accepted socket =>
      simp only [loopNext, loopStep, KeepsLive]
      split
      · simpa using hlive
      · apply iff_of_true _ trivial
        intro car hcar
        exact List.mem_append_left _ (hlive car hcar)
  | readable socket arrival stale outcome =>
      by_cases hopen : socket ∈ state.registry.masterSet
      · have hstep : loopNext state (.readable socket arrival stale outcome) =
            match arrival with
            | .again => state
            | .hangUp => { state with
                registry := hangUpStep state.registry socket }
            | .failed => { state with registry := state.registry.drop socket }
            | .frame length body =>
                (handleFrame state socket length body stale outcome).1 := by
          cases arrival <;> simp [loopNext, loopStep, hopen, controllerStep]
        rw [hstep]
        cases arrival with
        | again => simpa [KeepsLive] using hlive
        | hangUp => simpa [KeepsLive, hopen] using live_hangUp_iff socket hlive
        | failed => simpa [KeepsLive, hopen] using live_drop_iff hlive socket
        | frame length body =>
            exact live_frame_iff hlive hnonneg hopen length body stale outcome
      · simpa [loopNext, loopStep, hopen, KeepsLive] using hlive

/-- The descriptors that are watched are what `accept` has returned. -/
theorem loopNext_nonneg {state : LoopState}
    (hnonneg : ∀ socket ∈ state.registry.masterSet, 0 ≤ socket)
    (event : SocketEvent) :
    ∀ socket ∈ (loopNext state event).registry.masterSet, 0 ≤ socket := by
  cases event with
  | accepted socket =>
      simp only [loopNext, loopStep]
      split
      · exact hnonneg
      · next hfresh =>
          intro other hother
          rcases List.mem_append.mp hother with hold | hnew
          · exact hnonneg other hold
          · obtain rfl := List.mem_singleton.mp hnew
            omega
  | readable socket arrival stale outcome =>
      have hsubset : (loopNext state (.readable socket arrival stale
          outcome)).registry.masterSet ⊆ state.registry.masterSet := by
        simp only [loopNext, loopStep]
        split
        · exact List.Subset.refl _
        · cases arrival with
          | again => exact List.Subset.refl _
          | hangUp => exact drop_shrinks _ _
          | failed => exact drop_shrinks _ _
          | frame length body =>
              simp only [handleFrame]
              split
              · exact receive_shrinks _ _ _ _
              · exact List.Subset.trans (execute_shrinks _ _ _ _ _)
                  (receive_shrinks _ _ _ _)
      exact fun other hother => hnonneg other (hsubset hother)

/-- In every run every registered car is connected throughout exactly when no
event cuts one off. -/
theorem connected_iff_keepsLive (events : List SocketEvent) :
    Always loopNext (fun state : LoopState => Live state.registry) startController events ↔
      Along loopNext KeepsLive startController events :=
  always_iff_along_of_invariant
    (fun state : LoopState => Live state.registry ∧
      ∀ socket ∈ state.registry.masterSet, 0 ≤ socket)
    (fun _ event hinv hkeeps =>
      ⟨(live_loopNext_iff hinv.1 hinv.2 event).mpr hkeeps,
        loopNext_nonneg hinv.2 event⟩)
    (fun _ hinv => hinv.1)
    (fun _ event hinv hafter => (live_loopNext_iff hinv.1 hinv.2 event).mp hafter)
    ⟨fun _ hcar => absurd hcar (by simp [startController]),
      fun _ hsocket => absurd hsocket (by simp [startController])⟩
    events

/-- Alpha's connection breaks with an error: its socket is closed, and its record
stays. -/
theorem record_outlives_connection :
    ¬ Always loopNext (fun state : LoopState => Live state.registry)
      startController [.accepted 4, textFrame 4 "CAR Alpha 1 10 \n",
        .readable 4 .failed blankLocals ⟨true, true, true⟩] :=
  fun halways => absurd halways.final (by decide)

end Elevator
