/-
Clients that only wait.  Whoever has registered nothing is sent nothing and is
not hung up on, whatever comes in on other sockets.
-/
import Elevator.Announcement
import Elevator.Neighbours

namespace Elevator

open CText Framing Transition

def sentTo (socket : Int) (log : List ControllerEvent) : List ControllerMessage :=
  log.filterMap fun
    | .sent receiver message => if receiver = socket then some message else none
    | _ => none

theorem sentTo_append (socket : Int) (first second : List ControllerEvent) :
    sentTo socket (first ++ second) = sentTo socket first ++ sentTo socket second :=
  List.filterMap_append

theorem sentTo_eq_nil_iff {socket : Int} {log : List ControllerEvent} :
    sentTo socket log = [] ↔ ∀ message, .sent socket message ∉ log := by
  rw [sentTo, List.filterMap_eq_nil_iff]
  constructor
  · intro hall message hsent
    simpa using hall _ hsent
  · intro hnone event hevent
    cases event with
    | assigned record sourceFloor destFloor => rfl
    | removed record stop reported => rfl
    | sent receiver message =>
        by_cases hreceiver : receiver = socket
        · exact absurd (hreceiver ▸ hevent) (hnone message)
        · exact if_neg hreceiver

section Input

variable {state : ControllerState} {socket : Int}

theorem mem_drop_of_ne {other : Int} (hother : other ≠ socket)
    (hopen : socket ∈ state.masterSet) : socket ∈ (state.drop other).masterSet := by
  simp [ControllerState.drop, hopen, hother.symm]

/-- A call from somebody else is answered to them, and its order goes to a
car. -/
theorem NobodyOn.call (hnobody : NobodyOn state.cars socket)
    (hsockets : ∀ car ∈ state.cars, 0 ≤ car.connectionsocket) {caller : Int}
    (hother : caller ≠ socket) (source destination : CString 4)
    (outcome : CallOutcome) :
    let after := callStep state caller source destination outcome
    (socket ∈ state.masterSet → socket ∈ after.1.masterSet) ∧
      sentTo socket after.2 = [] := by
  have hcar (hdue : callOrder state.cars (stringToFloor source)
      (stringToFloor destination) outcome.allocated ≠ none) :
      socket ≠ orderSocket state.cars (stringToFloor source)
        (stringToFloor destination) := by
    obtain ⟨car, hmem, hsocket⟩ := orderSocket_mem hdue
    exact hsocket ▸ (hnobody car hmem).symm
  constructor
  · intro hopen
    rw [callStep_masterSet hsockets]
    have hordered : socket ∈ if callOrder state.cars (stringToFloor source)
          (stringToFloor destination) outcome.allocated ≠ none ∧
          outcome.orderSent = false then
        state.masterSet.filter (· ≠ orderSocket state.cars
          (stringToFloor source) (stringToFloor destination))
      else state.masterSet := by
      split
      · next hdue => simp [hopen, hcar hdue.1]
      · exact hopen
    dsimp only
    split
    · exact hordered
    · exact List.mem_filter.mpr ⟨hordered, by simpa using hother.symm⟩
  · rw [sentTo_eq_nil_iff]
    intro message hsent
    rcases (sent_callStep_iff hsockets caller socket source destination outcome
      message).mp hsent with ⟨-, horder, label, hlabel, -⟩ | ⟨-, hcaller, -⟩
    · apply hcar _ horder
      rw [Option.mem_def.mp hlabel]
      exact Option.some_ne_none label
    · exact hother hcaller.symm

/-- A report is answered to whoever sent it. -/
theorem status_spares {sender : Int} (hother : sender ≠ socket)
    (statusStr : CString 8) (currentFloor destinationFloor : CString 4)
    (sends : Bool) :
    let after := statusStep state sender statusStr currentFloor destinationFloor
      sends
    (socket ∈ state.masterSet → socket ∈ after.1.masterSet) ∧
      sentTo socket after.2 = [] := by
  cases hname : controllerGetNameBySocket state.cars sender with
  | none =>
      rw [statusStep_none hname]
      exact ⟨id, rfl⟩
  | some name =>
      constructor
      · intro hopen
        rw [statusStep_masterSet _ _ _ _ hname]
        split
        · exact hopen
        · exact List.mem_filter.mpr ⟨hopen, by simpa using hother.symm⟩
      · rw [sentTo_eq_nil_iff]
        intro message hsent
        obtain ⟨-, -, -, -, hsender, -⟩ :=
          (sent_statusStep_iff _ _ _ _ _ _ hname).mp hsent
        exact hother hsender.symm

theorem NobodyOn.input (hnobody : NobodyOn state.cars socket)
    (hsockets : ∀ car ∈ state.cars, 0 ≤ car.connectionsocket)
    {input : ControllerInput} (hother : input.socket ≠ socket) :
    (socket ∈ state.masterSet →
        socket ∈ (controllerStep state input).1.masterSet) ∧
      sentTo socket (controllerStep state input).2 = [] := by
  cases input with
  | connection other => exact ⟨List.mem_append_left _, rfl⟩
  | call caller source destination outcome =>
      exact hnobody.call hsockets hother source destination outcome
  | car other name lowestFloor highestFloor fresh => exact ⟨id, rfl⟩
  | status sender statusStr currentFloor destinationFloor sends =>
      exact status_spares hother statusStr currentFloor destinationFloor sends
  | hangUp other => exact ⟨mem_drop_of_ne hother, rfl⟩

end Input

section Event

variable {state : LoopState} {event : SocketEvent} {socket : Int}

theorem receive_keeps_open {other : Int} (hother : other ≠ socket)
    (hopen : socket ∈ state.registry.masterSet) (length : Nat)
    (body : List UInt8) :
    socket ∈ (receive state other length body).registry.masterSet := by
  rw [receive_registry]
  split
  · exact mem_drop_of_ne hother hopen
  · exact hopen

/-- An event of another client's closes no socket that nobody is registered on,
and nothing is sent on it. -/
theorem NobodyOn.spared (hnobody : NobodyOn state.registry.cars socket)
    (hsockets : ∀ car ∈ state.registry.cars, 0 ≤ car.connectionsocket)
    (hother : event.socket ≠ socket) :
    (socket ∈ state.registry.masterSet →
        socket ∈ (loopNext state event).registry.masterSet) ∧
      sentTo socket (loopStep state event).2 = [] := by
  cases event with
  | accepted other =>
      simp only [loopNext, loopStep]
      split
      · exact ⟨id, rfl⟩
      · exact ⟨List.mem_append_left _, rfl⟩
  | readable other arrival stale outcome =>
      simp only [loopNext, loopStep]
      split
      · exact ⟨id, rfl⟩
      · cases arrival with
        | again => exact ⟨id, rfl⟩
        | failed => exact ⟨mem_drop_of_ne hother, rfl⟩
        | hangUp => exact ⟨mem_drop_of_ne hother, rfl⟩
        | frame length body =>
            have hcars := receive_cars state other length body
            rw [← hcars] at hnobody hsockets
            simp only [handleFrame]
            split
            · exact ⟨fun hopen => receive_keeps_open hother hopen length body, rfl⟩
            · next command _ =>
                have hinput : (command.input (receive state other length
                    body).registry other stale outcome).socket ≠ socket := by
                  cases command <;> exact hother
                obtain ⟨hkept, hsent⟩ := hnobody.input hsockets hinput
                exact ⟨fun hopen => hkept (receive_keeps_open hother hopen length
                  body), hsent⟩

/-- A record has been there before, or it has just been registered. -/
theorem exists_of_mem_loopNext {car : ConnectedCar}
    (hcar : car ∈ (loopNext state event).registry.cars) :
    (∃ old ∈ state.registry.cars, old.identity = car.identity) ∨
      ∃ length body stale outcome name lowestFloor highestFloor,
        event = .readable event.socket (.frame length body) stale outcome ∧
        parseCommand (state.buffer.readBody length body).text stale =
          some (.car name lowestFloor highestFloor) ∧
        car = registeredCar event.socket name lowestFloor highestFloor
          stale.fresh := by
  have hkept {cars : List ConnectedCar} (hcars : car ∈ cars)
      (hmap : cars.map ConnectedCar.identity =
        state.registry.cars.map ConnectedCar.identity) :
      ∃ old ∈ state.registry.cars, old.identity = car.identity := by
    have hidentity : car.identity ∈ cars.map ConnectedCar.identity :=
      List.mem_map_of_mem hcars
    rw [hmap] at hidentity
    exact List.mem_map.mp hidentity
  cases event with
  | accepted other =>
      simp only [loopNext, loopStep] at hcar
      split at hcar <;> exact .inl (hkept hcar rfl)
  | readable other arrival stale outcome =>
      simp only [loopNext, loopStep] at hcar
      split at hcar
      · exact .inl (hkept hcar rfl)
      · cases arrival with
        | again => exact .inl (hkept hcar rfl)
        | failed => exact .inl (hkept hcar rfl)
        | hangUp =>
            refine .inl ⟨car, ?_, rfl⟩
            simp only [controllerStep, hangUpStep] at hcar
            split at hcar
            · exact List.mem_of_mem_eraseP hcar
            · exact hcar
        | frame length body =>
            have hreceived := receive_cars state other length body
            simp only [handleFrame] at hcar
            split at hcar
            · exact .inl (hkept hcar (congrArg _ hreceived))
            · next command hcommand =>
                cases command with
                | call source destination =>
                    exact .inl (hkept hcar ((callStep_identity _ _ _ _ _).trans
                      (congrArg _ hreceived)))
                | status statusStr currentFloor destinationFloor =>
                    exact .inl (hkept hcar ((statusStep_identity _ _ _ _ _ _).trans
                      (congrArg _ hreceived)))
                | car name lowestFloor highestFloor =>
                    rcases List.mem_append.mp hcar with hold | hnew
                    · exact .inl (hkept hold (congrArg _ hreceived))
                    · exact .inr ⟨length, body, stale, outcome, name, lowestFloor,
                        highestFloor, rfl, hcommand, List.mem_singleton.mp hnew⟩

/-- Nobody registers on the socket of another client. -/
theorem NobodyOn.after_event (hnobody : NobodyOn state.registry.cars socket)
    (hother : event.socket ≠ socket) :
    NobodyOn (loopNext state event).registry.cars socket := by
  intro car hcar
  rcases exists_of_mem_loopNext hcar with ⟨old, hold, hidentity⟩ |
    ⟨_, _, _, _, _, _, _, -, -, rfl⟩
  · have hsocket : old.connectionsocket = car.connectionsocket :=
      congrArg Prod.snd hidentity
    exact hsocket ▸ hnobody old hold
  · exact hother

def CarriesName (state : LoopState) : SocketEvent → Prop
  | .readable _ (.frame length body) _ _ =>
      let text := (state.buffer.readBody length body).text
      text.take 4 = "CAR ".toList →
        scanAfter "CAR".toList [none, none, none] text ≠ []
  | _ => True

instance (state : LoopState) : (event : SocketEvent) →
    Decidable (CarriesName state event)
  | .accepted _ => inferInstanceAs (Decidable True)
  | .readable _ .again _ _ => inferInstanceAs (Decidable True)
  | .readable _ .hangUp _ _ => inferInstanceAs (Decidable True)
  | .readable _ .failed _ _ => inferInstanceAs (Decidable True)
  | .readable _ (.frame _ _) _ _ => inferInstanceAs (Decidable (_ → _))

/-- A name that has been scanned is a word of what the frame holds. -/
theorem CarriesName.isOperand {length : Nat} {body : List UInt8} {stale : Locals}
    {outcome : CallOutcome} {name : CString 50} {lowestFloor highestFloor : CString 4}
    (hcarries : CarriesName state (.readable socket (.frame length body) stale
      outcome))
    (hcommand : parseCommand (state.buffer.readBody length body).text stale =
      some (.car name lowestFloor highestFloor)) : IsOperand name.chars := by
  simp only [parseCommand] at hcommand
  split_ifs at hcommand with hcall hcar hstatus
  · cases hcommand
  · simp only [Option.some.injEq, Command.car.injEq] at hcommand
    obtain ⟨rfl, -, -⟩ := hcommand
    obtain ⟨word, words, hwords⟩ :=
      List.exists_cons_of_ne_nil (hcarries hcar)
    have hname : (assigned (scanAfter "CAR".toList [none, none, none]
        (state.buffer.readBody length body).text) 0 stale.name).chars =
          word.take 49 := by
      rw [hwords]
      rfl
    have hmem : word ∈ scanAfter "CAR".toList [none, none, none]
        (state.buffer.readBody length body).text :=
      hwords ▸ List.mem_cons_self
    rw [scanAfter] at hmem
    split at hmem
    · rw [hname]
      refine ⟨(isWord_of_mem_scanWords hmem).take (by decide), fun c hc => ?_⟩
      apply isText_textOf _ c
      exact List.mem_of_mem_drop
        (mem_of_mem_scanWords hmem (List.mem_of_mem_take hc))
    · exact absurd hmem List.not_mem_nil
  · cases hcommand

/-- What a registry in use is like: descriptors are not negative, and the names
of the cars can be read back. -/
structure InUse (registry : ControllerState) : Prop where
  masterSet : ∀ socket ∈ registry.masterSet, 0 ≤ socket
  sockets : ∀ car ∈ registry.cars, 0 ≤ car.connectionsocket
  names : ∀ car ∈ registry.cars, IsOperand car.name.chars

theorem InUse.after_event (hinUse : InUse state.registry)
    (hcarries : CarriesName state event) :
    InUse (loopNext state event).registry := by
  refine ⟨loopNext_nonneg hinUse.masterSet event,
    loopNext_sockets hinUse.masterSet hinUse.sockets event, ?_⟩
  intro car hcar
  rcases exists_of_mem_loopNext hcar with ⟨old, hold, hidentity⟩ |
    ⟨length, body, stale, outcome, name, lowestFloor, highestFloor, hevent,
      hcommand, rfl⟩
  · have hname : old.name = car.name := congrArg Prod.fst hidentity
    exact hname ▸ hinUse.names old hold
  · rw [hevent] at hcarries
    exact hcarries.isOperand hcommand

theorem inUse_startController : InUse startController.registry := by
  constructor <;> simp [startController]

structure Waiting (socket : Int) (state : LoopState × List ControllerEvent) :
    Prop where
  inUse : InUse state.1.registry
  nobody : NobodyOn state.1.registry.cars socket
  isOpen : socket ∈ state.1.registry.masterSet
  unanswered : sentTo socket state.2 = []

theorem Waiting.step {state : LoopState × List ControllerEvent}
    (hwaiting : Waiting socket state)
    (hguard : event.socket ≠ socket ∧ CarriesName state.1 event) :
    Waiting socket (logged loopStep state event) := by
  obtain ⟨hkept, hsent⟩ :=
    hwaiting.nobody.spared hwaiting.inUse.sockets hguard.1
  refine ⟨hwaiting.inUse.after_event hguard.2,
    hwaiting.nobody.after_event hguard.1, hkept hwaiting.isOpen, ?_⟩
  simp only [logged]
  rw [sentTo_append, hwaiting.unanswered, hsent, List.append_nil]

end Event

end Elevator
