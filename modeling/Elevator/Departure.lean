/-
Who leaves the registry when a connection ends.  The handler translates the
socket into a name and takes out the first record that bears it; whether that is
the record of the socket depends on all registrations before.
-/
import Elevator.Connections
import Mathlib.Data.List.Nodup

namespace Elevator

open CText Framing Transition

/-- The records of the socket are gone, and those of all other sockets are what
they were, in the same order. -/
structure Departed (socket : Int) (before after : List ConnectedCar) :
    Prop where
  gone : NobodyOn after socket
  others : after.filter (fun car => car.connectionsocket ≠ socket) =
    before.filter (fun car => car.connectionsocket ≠ socket)

theorem departed_iff {socket : Int} {before after : List ConnectedCar} :
    Departed socket before after ↔ NobodyOn after socket ∧
      after.filter (fun car => car.connectionsocket ≠ socket) =
        before.filter (fun car => car.connectionsocket ≠ socket) :=
  ⟨fun h => ⟨h.gone, h.others⟩, fun h => ⟨h.1, h.2⟩⟩

instance (socket : Int) (before after : List ConnectedCar) :
    Decidable (Departed socket before after) :=
  decidable_of_iff _ departed_iff.symm

/-- Taking out one record leaves the others alone exactly when it is of the
socket. -/
theorem filter_others_iff (socket : Int) (before behind : List ConnectedCar)
    (removed : ConnectedCar) :
    (before ++ behind).filter (fun car => car.connectionsocket ≠ socket) =
        (before ++ removed :: behind).filter
          (fun car => car.connectionsocket ≠ socket) ↔
      removed.connectionsocket = socket := by
  rw [List.filter_append, List.filter_append, List.append_cancel_left_eq]
  by_cases hremoved : removed.connectionsocket = socket
  · rw [List.filter_cons_of_neg (by simpa using hremoved)]
    exact iff_of_true rfl hremoved
  · rw [List.filter_cons_of_pos (by simpa using hremoved)]
    apply iff_of_false
    · intro heq
      have hlength := congrArg List.length heq
      rw [List.length_cons] at hlength
      omega
    · exact hremoved

/-- A hang-up removes exactly the departed car when it finds its record. -/
theorem departed_hangUpStep_iff (state : ControllerState) (socket : Int) :
    Departed socket state.cars (hangUpStep state socket).cars ↔
      FindsItself state.cars socket := by
  cases hname : controllerGetNameBySocket state.cars socket with
  | none =>
      have hnobody : NobodyOn state.cars socket :=
        controllerGetNameBySocket_eq_none hname
      rw [hangUpStep_none socket hname]
      exact iff_of_true ⟨hnobody, rfl⟩ (findsItself_of_nobodyOn socket hnobody)
  | some name =>
      obtain ⟨before, removed, behind, hcars, hfirst, hafter⟩ :=
        hangUpStep_some socket hname
      have hothers := filter_others_iff socket before behind removed
      have hstate : (hangUpStep state socket).cars = before ++ behind := by
        rw [hafter]
        rfl
      rw [findsItself_iff_of_first socket hname hfirst, departed_iff, hstate,
        nobodyOn_iff_countP, hcars, hothers, countP_removed]
      apply and_congr_left
      intro hremoved
      rw [if_pos hremoved]
      omega

/-- If the event is a hang-up, exactly the departed car leaves. -/
def HangUpDeparts (state : LoopState) (event : SocketEvent) : Prop :=
  match event with
  | .readable socket .hangUp _ _ =>
      socket ∈ state.registry.masterSet →
        Departed socket state.registry.cars (loopNext state event).registry.cars
  | _ => True

instance (state : LoopState) (event : SocketEvent) :
    Decidable (HangUpDeparts state event) := by
  unfold HangUpDeparts
  split <;> infer_instance

/-- If the event is a hang-up, it finds the record it is about. -/
def HangUpFindsItself (state : LoopState) : SocketEvent → Prop
  | .readable socket .hangUp _ _ =>
      socket ∈ state.registry.masterSet → FindsItself state.registry.cars socket
  | _ => True

theorem hangUpDeparts_iff (state : LoopState) (event : SocketEvent) :
    HangUpDeparts state event ↔ HangUpFindsItself state event := by
  cases event with
  | accepted socket => exact Iff.rfl
  | readable socket arrival stale outcome =>
      cases arrival with
      | again => exact Iff.rfl
      | failed => exact Iff.rfl
      | frame length body => exact Iff.rfl
      | hangUp =>
          apply forall_congr'
          intro hopen
          have hafter : (loopNext state (.readable socket .hangUp stale
              outcome)).registry = hangUpStep state.registry socket := by
            simp [loopNext, loopStep, hopen, controllerStep]
          rw [hafter]
          exact departed_hangUpStep_iff state.registry socket

/-- In every run, exactly the departed car leaves with each hang-up if and only
if each hang-up finds the record it is about. -/
theorem hangUps_depart_iff (events : List SocketEvent) :
    Along loopNext HangUpDeparts startController events ↔
      Along loopNext HangUpFindsItself startController events :=
  ⟨fun halong => halong.mono fun state event => (hangUpDeparts_iff state event).mp,
    fun halong => halong.mono fun state event => (hangUpDeparts_iff state event).mpr⟩

/-- Two cars of one name: when the second hangs up, the first one's record is
taken out, and the record of the closed socket stays. -/
theorem namesake_is_removed :
    ¬ Along loopNext HangUpDeparts startController
      [.accepted 4, .accepted 5, textFrame 4 "CAR Alpha 1 10 \n",
        textFrame 5 "CAR Alpha 1 5 \n",
        .readable 5 .hangUp blankLocals ⟨true, true, true⟩] := by
  decide

/-- No two records have a name or a socket in common. -/
def Distinct (cars : List ConnectedCar) : Prop :=
  (cars.map (·.name)).Nodup ∧ (cars.map (·.connectionsocket)).Nodup

/-- If the event is a registration, its name and its socket are new. -/
def RegistersAlone (state : LoopState) : SocketEvent → Prop
  | .readable socket (.frame length body) stale _ =>
      ∀ name lowestFloor highestFloor,
        parseCommand (state.buffer.readBody length body).text stale =
            some (.car name lowestFloor highestFloor) →
          NobodyOn state.registry.cars socket ∧
            ∀ car ∈ state.registry.cars, car.name ≠ name
  | _ => True

theorem Distinct.findsItself {cars : List ConnectedCar} (hdistinct : Distinct cars)
    (socket : Int) : FindsItself cars socket := by
  obtain ⟨hnames, hsockets⟩ := hdistinct
  constructor
  · have hcount := List.nodup_iff_count_le_one.mp hsockets socket
    rw [List.count, List.countP_map] at hcount
    calc cars.countP (fun car => car.connectionsocket = socket)
        = cars.countP ((· == socket) ∘ (·.connectionsocket)) :=
          List.countP_congr fun car _ => by simp
      _ ≤ 1 := hcount
  · intro name hname first hfirst
    obtain ⟨car, hcar, hsocket, hcarName⟩ := controllerGetNameBySocket_eq_some hname
    have hfirstName : first.name = name := by
      simpa using List.find?_some hfirst
    have hsame : first = car :=
      List.inj_on_of_nodup_map hnames (List.mem_of_find?_eq_some hfirst) hcar
        (hfirstName.trans hcarName.symm)
    rw [hsame, hsocket]

theorem Distinct.of_identity {first second : List ConnectedCar}
    (hdistinct : Distinct first)
    (hmap : second.map ConnectedCar.identity = first.map ConnectedCar.identity) :
    Distinct second := by
  have hnames := congrArg (List.map Prod.fst) hmap
  have hsockets := congrArg (List.map Prod.snd) hmap
  rw [List.map_map, List.map_map] at hnames hsockets
  exact ⟨hnames ▸ hdistinct.1, hsockets ▸ hdistinct.2⟩

theorem Distinct.sublist {first second : List ConnectedCar}
    (hdistinct : Distinct first) (hsub : second.Sublist first) : Distinct second :=
  ⟨hdistinct.1.sublist (hsub.map _), hdistinct.2.sublist (hsub.map _)⟩

theorem Distinct.push {cars : List ConnectedCar} (hdistinct : Distinct cars)
    {newCar : ConnectedCar} (hsocket : NobodyOn cars newCar.connectionsocket)
    (hname : ∀ car ∈ cars, car.name ≠ newCar.name) :
    Distinct (controllerPush cars newCar) := by
  unfold Distinct controllerPush
  rw [List.map_append, List.map_append]
  constructor
  · apply hdistinct.1.append (List.nodup_singleton _)
    simpa [List.disjoint_singleton] using hname
  · apply hdistinct.2.append (List.nodup_singleton _)
    simpa [List.disjoint_singleton, NobodyOn] using hsocket

/-- A command keeps names and sockets distinct, unless it registers one that is
taken. -/
theorem Distinct.execute {state : LoopState} {socket : Int} {stale : Locals}
    {outcome : CallOutcome} {command : Command}
    (hdistinct : Distinct state.registry.cars)
    (halone : ∀ name lowestFloor highestFloor,
      command = .car name lowestFloor highestFloor →
        NobodyOn state.registry.cars socket ∧
          ∀ car ∈ state.registry.cars, car.name ≠ name) :
    Distinct (execute state socket stale outcome command).1.registry.cars := by
  cases command with
  | call source destination =>
      exact hdistinct.of_identity (callStep_identity _ _ _ _ _)
  | status statusStr currentFloor destinationFloor =>
      exact hdistinct.of_identity (statusStep_identity _ _ _ _ _ _)
  | car name lowestFloor highestFloor =>
      obtain ⟨hsocket, hname⟩ := halone name lowestFloor highestFloor rfl
      exact hdistinct.push hsocket hname

theorem Distinct.loopNext {state : LoopState} {event : SocketEvent}
    (hdistinct : Distinct state.registry.cars)
    (halone : RegistersAlone state event) :
    Distinct (loopNext state event).registry.cars := by
  cases event with
  | accepted socket =>
      simp only [Elevator.loopNext, loopStep]
      split <;> exact hdistinct
  | readable socket arrival stale outcome =>
      simp only [Elevator.loopNext, loopStep]
      split
      · exact hdistinct
      · cases arrival with
        | again => exact hdistinct
        | failed => exact hdistinct
        | hangUp =>
            apply hdistinct.sublist
            simp only [controllerStep, hangUpStep, ControllerState.drop]
            split
            · exact List.eraseP_sublist
            · exact List.Sublist.refl _
        | frame length body =>
            simp only [handleFrame]
            split
            · rwa [receive_cars]
            · next command hcommand =>
                apply Distinct.execute
                · rwa [receive_cars]
                · rintro name lowestFloor highestFloor rfl
                  rw [receive_cars]
                  exact halone name lowestFloor highestFloor hcommand

/-- So it is in every run in which nobody registers under a name or on a socket
that is taken. -/
theorem hangUps_depart_of_registersAlone {events : List SocketEvent}
    (halone : Along loopNext RegistersAlone startController events) :
    Along loopNext HangUpDeparts startController events := by
  have hstep (state : LoopState) (event : SocketEvent)
      (hdistinct : Distinct state.registry.cars)
      (hevent : RegistersAlone state event) :
      Distinct (loopNext state event).registry.cars :=
    hdistinct.loopNext hevent
  have hstart : Distinct startController.registry.cars :=
    ⟨List.nodup_nil, List.nodup_nil⟩
  apply along_of_invariant hstep _ hstart halone
  intro state event hdistinct _
  rw [hangUpDeparts_iff]
  cases event with
  | accepted socket => trivial
  | readable socket arrival stale outcome =>
      cases arrival with
      | again => trivial
      | failed => trivial
      | frame length body => trivial
      | hangUp => exact fun _ => hdistinct.findsItself socket

end Elevator
