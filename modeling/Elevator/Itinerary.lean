/-
Itineraries.  The stops a car has made and those still in its queue, one after
the other, are its itinerary; every request the car was given should show there
with both its stops, the source before the destination.  A request that goes to
the end of the queue does; one that is spliced in leaves its destination out.
-/
import Elevator.Registry

namespace Elevator

open CText Transition

inductive Leg where
  | source
  | destination
deriving DecidableEq, Repr

/-- The stops of `n` requests, request by request. -/
def allStops (n : Nat) : List (Nat × Leg) :=
  (List.range n).flatMap fun k => [(k, .source), (k, .destination)]

def stopFloor (requests : List (Int × Int)) (stop : Nat × Leg) : Option Int :=
  requests[stop.1]?.map fun request =>
    match stop.2 with
    | .source => request.1
    | .destination => request.2

/-- `plan` reads an itinerary as the stops of the requests: each stop of each
request stands for one place of it, and the source of a request comes before
its destination. -/
structure Accounts (requests : List (Int × Int)) (floors : List Int)
    (plan : List (Nat × Leg)) : Prop where
  complete : plan.Perm (allStops requests.length)
  floors : plan.map (stopFloor requests) = floors.map some
  inOrder : ∀ k < requests.length,
    List.Sublist [(k, .source), (k, .destination)] plan

def itinerary (j : Nat) (state : ControllerState × List ControllerEvent) :
    List Int :=
  (removedFrom j state.2 ++ queueAt state.1.cars j).map (·.floor)

def Accounted (j : Nat) (state : ControllerState × List ControllerEvent) : Prop :=
  ∃ plan, Accounts (requestsOf j state.2) (itinerary j state) plan

/-- A call for which there is memory, or a status report. -/
def CallOrStatus : ControllerInput → Prop
  | .call _ _ _ outcome => outcome.allocated = true
  | .status .. => True
  | _ => False

/-- A request that the queue takes whole: the queue is empty, or the request
neither starts at the floor the car is on nor fits a direction block. -/
def JoinsAtEnd (car : ConnectedCar) (sourceFloor destFloor : Int) : Prop :=
  car.queue = [] ∨
    insertsAtCurrentFloor car sourceFloor
        (requestDirection sourceFloor destFloor) = false ∧
      findBlock (requestDirection sourceFloor destFloor) sourceFloor
        car.currentDirection car.queue = none

instance (car : ConnectedCar) (sourceFloor destFloor : Int) :
    Decidable (JoinsAtEnd car sourceFloor destFloor) :=
  inferInstanceAs (Decidable (_ ∨ _ ∧ _))

/-- Every call that picks the record finds room for both its stops. -/
def BothStopsJoin (j : Nat) (state : ControllerState) : ControllerInput → Prop
  | .call _ source destination _ =>
      ∀ found ∈ bestCar state.cars (stringToFloor source)
          (stringToFloor destination),
        found.1 = j →
          JoinsAtEnd found.2 (stringToFloor source) (stringToFloor destination)
  | _ => True

instance bothStopsJoinDecidable (j : Nat) (state : ControllerState) :
    (input : ControllerInput) → Decidable (BothStopsJoin j state input)
  | .call .. => Option.decidableForallMem _
  | .connection _ => isTrue trivial
  | .car .. => isTrue trivial
  | .status .. => isTrue trivial
  | .hangUp _ => isTrue trivial

theorem length_allStops (n : Nat) : (allStops n).length = 2 * n := by
  induction n with
  | zero => rfl
  | succ n ih =>
      rw [allStops, List.range_succ, List.flatMap_append, List.length_append]
      have hlength : ((List.range n).flatMap fun k =>
        [(k, Leg.source), (k, Leg.destination)]).length = 2 * n := ih
      simp [hlength]
      omega

theorem lt_of_mem_allStops {n : Nat} {stop : Nat × Leg}
    (hmem : stop ∈ allStops n) : stop.1 < n := by
  obtain ⟨k, hk, hstop⟩ := List.mem_flatMap.mp hmem
  have hlt := List.mem_range.mp hk
  simp only [List.mem_cons, List.not_mem_nil, or_false] at hstop
  rcases hstop with rfl | rfl <;> exact hlt

theorem stopFloor_append {requests : List (Int × Int)} {stop : Nat × Leg}
    (hlt : stop.1 < requests.length) (request : Int × Int) :
    stopFloor (requests ++ [request]) stop = stopFloor requests stop := by
  rw [stopFloor, stopFloor, List.getElem?_append_left hlt]

theorem stopFloor_allStops (requests : List (Int × Int)) :
    (allStops requests.length).map (stopFloor requests) =
      (requests.flatMap fun request => [request.1, request.2]).map some := by
  induction requests using List.reverseRecOn with
  | nil => rfl
  | append_singleton requests request ih =>
      have hearlier : (allStops requests.length).map
          (stopFloor (requests ++ [request])) =
            (allStops requests.length).map (stopFloor requests) :=
        List.map_congr_left fun stop hstop =>
          stopFloor_append (lt_of_mem_allStops hstop) request
      rw [List.length_append, List.length_singleton, allStops, List.range_succ,
        List.flatMap_append, List.map_append, List.flatMap_append,
        List.map_append]
      rw [allStops] at hearlier ih
      rw [hearlier, ih]
      simp [stopFloor]

/-- Served in the order of the requests, everything is accounted for. -/
theorem accounts_of_inOrder {requests : List (Int × Int)} {floors : List Int}
    (hfloors : floors = requests.flatMap fun request => [request.1, request.2]) :
    Accounts requests floors (allStops requests.length) where
  complete := List.Perm.refl _
  floors := by rw [stopFloor_allStops, hfloors]
  inOrder := by
    intro k hk
    apply List.sublist_flatten_of_mem
    exact List.mem_map.mpr ⟨k, List.mem_range.mpr hk, rfl⟩

/-- The floors accounted for are those of the requests, with multiplicity. -/
theorem Accounts.perm {requests : List (Int × Int)} {floors : List Int}
    {plan : List (Nat × Leg)} (haccounts : Accounts requests floors plan) :
    floors.Perm (requests.flatMap fun request => [request.1, request.2]) := by
  have hmap := haccounts.complete.map (stopFloor requests)
  rw [haccounts.floors, stopFloor_allStops] at hmap
  simpa [List.map_map, Function.comp_def] using
    hmap.map (fun floor : Option Int => floor.getD 0)

theorem Accounts.length {requests : List (Int × Int)} {floors : List Int}
    {plan : List (Nat × Leg)} (haccounts : Accounts requests floors plan) :
    floors.length = 2 * requests.length := by
  have hfloors := congrArg List.length haccounts.floors
  rw [List.length_map, List.length_map] at hfloors
  rw [← hfloors, haccounts.complete.length_eq, length_allStops]

theorem findBlock_le_length {direction : Direction} {sourceFloor : Int}
    {block : Direction} {queue : List QueueNode} {position : Nat}
    (hfind : findBlock direction sourceFloor block queue = some position) :
    position ≤ queue.length := by
  induction queue generalizing block position with
  | nil => simp [findBlock] at hfind
  | cons current rest ih =>
      simp only [findBlock] at hfind
      split at hfind
      · have hone : 1 = position := Option.some.inj hfind
        simp [← hone]
      · obtain ⟨earlier, hearlier, rfl⟩ := Option.map_eq_some_iff.mp hfind
        have hle := ih hearlier
        simpa using hle

theorem addToCarQueue_of_joinsAtEnd {car : ConnectedCar}
    {sourceFloor destFloor : Int}
    (hjoins : JoinsAtEnd car sourceFloor destFloor) :
    (addToCarQueue true car sourceFloor destFloor).1.queue =
      car.queue ++ [⟨sourceFloor, requestDirection sourceFloor destFloor⟩,
        ⟨destFloor, requestDirection sourceFloor destFloor⟩] := by
  by_cases hempty : car.queue = []
  · simp [addToCarQueue, hempty]
  · obtain ⟨hcurrent, hblock⟩ := hjoins.resolve_left hempty
    simp [addToCarQueue, hempty, hcurrent, hblock]

/-- The paths that splice put one node into the queue. -/
theorem length_addToCarQueue_of_not_joinsAtEnd {car : ConnectedCar}
    {sourceFloor destFloor : Int}
    (hsplices : ¬ JoinsAtEnd car sourceFloor destFloor) :
    (addToCarQueue true car sourceFloor destFloor).1.queue.length =
      car.queue.length + 1 := by
  obtain ⟨hempty, hboth⟩ := not_or.mp hsplices
  simp only [addToCarQueue, Bool.not_true, Bool.false_eq_true, if_false,
    if_neg hempty]
  split
  · rfl
  · rename_i hcurrent
    split
    · rename_i position hfind
      exact List.length_insertIdx_of_le_length (findBlock_le_length hfind) _
    · rename_i hfind
      exact absurd ⟨Bool.eq_false_iff.mpr hcurrent, hfind⟩ hboth

/-- The invariant: the itinerary is that of the requests, one by one. -/
def InOrder (j : Nat) (state : ControllerState × List ControllerEvent) : Prop :=
  (∀ car ∈ state.1.cars, 0 ≤ car.connectionsocket) ∧
    itinerary j state =
      (requestsOf j state.2).flatMap fun request => [request.1, request.2]

theorem InOrder.accounted {j : Nat}
    {state : ControllerState × List ControllerEvent} (hinv : InOrder j state) :
    Accounted j state :=
  ⟨_, accounts_of_inOrder hinv.2⟩

section Steps

variable {j : Nat} {state : ControllerState} {log : List ControllerEvent}

/-- A call that passes the record by leaves its itinerary alone. -/
theorem itinerary_call_of_not_chosen (log : List ControllerEvent) (socket : Int)
    {source destination : CString 4} {outcome : CallOutcome}
    (hsockets : ∀ car ∈ state.cars, 0 ≤ car.connectionsocket)
    (hallocated : outcome.allocated = true)
    (hother : ∀ found ∈ bestCar state.cars (stringToFloor source)
      (stringToFloor destination), found.1 ≠ j) :
    let after := logged controllerStep (state, log)
      (.call socket source destination outcome)
    itinerary j after = itinerary j (state, log) ∧
      requestsOf j after.2 = requestsOf j log := by
  cases hbest : bestCar state.cars (stringToFloor source)
      (stringToFloor destination) with
  | none =>
      obtain ⟨hcars, hevents⟩ := callStep_refused socket outcome (.inl hbest)
      simp only [logged, controllerStep, itinerary, hcars, hevents]
      split <;> simp
  | some found =>
      obtain ⟨record, car⟩ := found
      have hne : record ≠ j := hother _ hbest
      obtain ⟨hqueue, hrequests, hremoved⟩ := callStep_some socket hsockets
        hallocated hbest j
      rw [if_neg hne] at hqueue hrequests
      simp [logged, controllerStep, itinerary, hqueue, hrequests, hremoved]

/-- A call that picks the record adds its request, and what the queue takes of
it, to the itinerary. -/
theorem itinerary_call_of_chosen (log : List ControllerEvent) (socket : Int)
    {source destination : CString 4} {outcome : CallOutcome}
    (hsockets : ∀ car ∈ state.cars, 0 ≤ car.connectionsocket)
    (hallocated : outcome.allocated = true) {car : ConnectedCar}
    (hbest : bestCar state.cars (stringToFloor source)
      (stringToFloor destination) = some (j, car)) :
    let after := logged controllerStep (state, log)
      (.call socket source destination outcome)
    itinerary j after = (removedFrom j log ++
        (addToCarQueue true car (stringToFloor source)
          (stringToFloor destination)).1.queue).map (·.floor) ∧
      requestsOf j after.2 = requestsOf j log ++
        [(stringToFloor source, stringToFloor destination)] ∧
      queueAt state.cars j = car.queue := by
  obtain ⟨hqueue, hrequests, hremoved⟩ := callStep_some socket hsockets
    hallocated hbest j
  rw [if_pos rfl] at hqueue hrequests
  refine ⟨?_, ?_, queueAt_of_getElem? (getElem?_of_bestCar hbest)⟩
  · simp [logged, controllerStep, itinerary, hqueue, hremoved]
  · simp [logged, controllerStep, hrequests]

theorem inOrder_call {socket : Int} {source destination : CString 4}
    {outcome : CallOutcome} (hinv : InOrder j (state, log))
    (hallocated : outcome.allocated = true)
    (hguard : BothStopsJoin j state (.call socket source destination outcome)) :
    InOrder j (logged controllerStep (state, log)
      (.call socket source destination outcome)) := by
  obtain ⟨hsockets, horder⟩ := hinv
  refine ⟨sockets_of_identity (callStep_identity _ _ _ _ _) hsockets, ?_⟩
  by_cases hchosen : ∃ car, bestCar state.cars (stringToFloor source)
      (stringToFloor destination) = some (j, car)
  · obtain ⟨car, hbest⟩ := hchosen
    obtain ⟨hitinerary, hrequests, hqueue⟩ :=
      itinerary_call_of_chosen log socket hsockets hallocated hbest
    rw [hitinerary, hrequests,
      addToCarQueue_of_joinsAtEnd (hguard _ hbest rfl), ← hqueue,
      ← List.append_assoc, List.map_append, List.flatMap_append]
    exact congrArg (· ++ _) horder
  · have hother : ∀ found ∈ bestCar state.cars (stringToFloor source)
        (stringToFloor destination), found.1 ≠ j := by
      rintro ⟨record, car⟩ hfound rfl
      exact hchosen ⟨car, hfound⟩
    obtain ⟨hitinerary, hrequests⟩ :=
      itinerary_call_of_not_chosen log socket hsockets hallocated hother
    rw [hitinerary, hrequests]
    exact horder

theorem inOrder_status {socket : Int} {statusStr : CString 8}
    {currentFloor destinationFloor : CString 4} {sends : Bool}
    (hinv : InOrder j (state, log)) :
    InOrder j (logged controllerStep (state, log)
      (.status socket statusStr currentFloor destinationFloor sends)) := by
  obtain ⟨hsockets, horder⟩ := hinv
  refine ⟨sockets_of_identity (statusStep_identity _ _ _ _ _ _) hsockets, ?_⟩
  obtain ⟨hrequests, hconserves⟩ := statusStep_conserves state socket statusStr
    currentFloor destinationFloor sends j
  simp only [logged, controllerStep, itinerary, removedFrom_append,
    requestsOf_append, hrequests, List.append_nil, List.append_assoc, hconserves]
  exact horder

end Steps

theorem inOrder_step (j : Nat) (state : ControllerState × List ControllerEvent)
    (input : ControllerInput) (hinv : InOrder j state)
    (hinput : CallOrStatus input) (hguard : BothStopsJoin j state.1 input) :
    InOrder j (logged controllerStep state input) := by
  cases input with
  | call socket source destination outcome =>
      exact inOrder_call hinv hinput hguard
  | status socket statusStr currentFloor destinationFloor sends =>
      exact inOrder_status hinv
  | connection socket => exact hinput.elim
  | car socket name lowestFloor highestFloor fresh => exact hinput.elim
  | hangUp socket => exact hinput.elim

/-- A splice leaves an odd number of stops to account for. -/
theorem bothStopsJoin_of_accounted (j : Nat)
    (state : ControllerState × List ControllerEvent) (input : ControllerInput)
    (hinv : InOrder j state) (hinput : CallOrStatus input)
    (hafter : Accounted j (logged controllerStep state input)) :
    BothStopsJoin j state.1 input := by
  obtain ⟨state, log⟩ := state
  cases input with
  | call socket source destination outcome =>
      rintro ⟨record, car⟩ hbest rfl
      by_contra hsplices
      obtain ⟨plan, haccounts⟩ := hafter
      obtain ⟨hitinerary, hrequests, hqueue⟩ :=
        itinerary_call_of_chosen log socket hinv.1 hinput hbest
      have hodd := haccounts.length
      have heven := (accounts_of_inOrder hinv.2).length
      rw [hitinerary, hrequests, List.length_map, List.length_append,
        length_addToCarQueue_of_not_joinsAtEnd hsplices, ← hqueue,
        List.length_append, List.length_singleton] at hodd
      rw [itinerary, List.length_map, List.length_append] at heven
      dsimp only at hodd heven
      omega
  | _ => trivial

/-- Starting with an empty queue, everything a car is given stays accounted for
if and only if every request given to it goes to the end of its queue. -/
theorem accounted_iff_bothStopsJoin (state : ControllerState) (j : Nat)
    (hqueue : queueAt state.cars j = [])
    (hsockets : ∀ car ∈ state.cars, 0 ≤ car.connectionsocket)
    (inputs : List ControllerInput)
    (hinputs : ∀ input ∈ inputs, CallOrStatus input) :
    Always (logged controllerStep) (Accounted j) (state, []) inputs ↔
      Along (logged controllerStep)
        (fun state input => BothStopsJoin j state.1 input) (state, []) inputs := by
  have hstart : InOrder j (state, []) := ⟨hsockets, by simp [itinerary, hqueue]⟩
  exact always_iff_along (inOrder_step j) (fun _ hinv => hinv.accounted)
    (bothStopsJoin_of_accounted j) hstart (along_of_forall_mem hinputs)

/-- A second request that starts away from the car joins at the end. -/
theorem accounted_two_requests :
    Always (logged controllerStep) (Accounted 0) (idleRegistry, [])
      [callFrom 3 6, reportAt .Between 1 3, reportAt .Closing 3 3,
        callFrom 5 2, reportAt .Closed 3 3, reportAt .Between 3 6] :=
  (accounted_iff_bothStopsJoin idleRegistry 0 rfl (by decide) _ (by
    simp [CallOrStatus, callFrom, reportAt])).mpr (by decide)

/-- Alpha is on its way from floor 1 to 3 and 6 when somebody on floor 1 wants
to go to floor 2: their destination never makes it into the queue. -/
theorem destination_lost :
    idleCar.queue = [] ∧ idleCar.currentDirection = .idle ∧
      itinerary 0 (run (logged controllerStep) (idleRegistry, [])
        [callFrom 3 6, callFrom 1 2]) = [1, 3, 6] ∧
      requestsOf 0 (run (logged controllerStep) (idleRegistry, [])
        [callFrom 3 6, callFrom 1 2]).2 = [(3, 6), (1, 2)] ∧
      ¬ Always (logged controllerStep) (Accounted 0) (idleRegistry, [])
        [callFrom 3 6, callFrom 1 2] := by
  refine ⟨rfl, rfl, by decide, by decide, ?_⟩
  intro halways
  obtain ⟨plan, haccounts⟩ := halways.final
  exact absurd haccounts.length (by decide)

end Elevator
