/-
The loop around `select`, with the descriptor sets and the largest descriptor.
Each time round, a connection is accepted first and then every client that is
ready is served, once, in the order of the descriptors; the rounds together are
a run of the events.
-/
import Elevator.Connections
import Elevator.CountingLoop

namespace Elevator

open CText Framing Transition

/-- An `fd_set` has room for the descriptors below this. -/
def fdSetSize : Nat := 1024

structure SelectState where
  loop : LoopState
  fdmax : Int
deriving DecidableEq, Repr

/-- What the system calls of one round bring: the descriptors that `select`
leaves set, the one that `accept` returns, and what a client's socket brings
when its turn comes. -/
structure Round where
  ready : Int → Bool
  accepted : Int
  arrival : Int → Arrival
  stale : Int → Locals
  outcome : Int → CallOutcome

def Round.turn (round : Round) (socket : Int) : SocketEvent :=
  .readable socket (round.arrival socket) (round.stale socket)
    (round.outcome socket)

/-- The copy of the master set, after `select`. -/
def readFds (serverSockfd : Nat) (state : SelectState) (round : Round) : List Int :=
  ((serverSockfd : Int) :: state.loop.registry.masterSet).filter
    (round.ready ·)

def selectBody (serverSockfd : Nat) (readFds : List Int) (round : Round)
    (state : SelectState × List ControllerEvent) (i : Nat) :
    SelectState × List ControllerEvent :=
  if (i : Int) ∈ readFds then
    if i = serverSockfd then
      let (loop, events) := loopStep state.1.loop (.accepted round.accepted)
      let fdmax := if round.accepted > state.1.fdmax then round.accepted
        else state.1.fdmax
      (⟨loop, fdmax⟩, state.2 ++ events)
    else
      let (loop, events) := loopStep state.1.loop (round.turn i)
      (⟨loop, state.1.fdmax⟩, state.2 ++ events)
  else state

def selectRound (serverSockfd : Nat) (state : SelectState) (round : Round) :
    SelectState × List ControllerEvent :=
  CountingLoop.loop (fun state => state.1.fdmax)
    (selectBody serverSockfd (readFds serverSockfd state round) round)
    fdSetSize 0 (state, [])

def selectNext (serverSockfd : Nat) (state : SelectState) (round : Round) :
    SelectState :=
  (selectRound serverSockfd state round).1

def startSelect (serverSockfd : Nat) : SelectState where
  loop := startController
  fdmax := serverSockfd

/-- `accept` returns the lowest descriptor that is not in use.  It lies above the
server's own, and the sets have room for it, as long as there are fewer than
`FD_SETSIZE` of them. -/
def AcceptsFree (serverSockfd : Nat) (state : SelectState) (round : Round) : Prop :=
  round.ready serverSockfd = true →
    (serverSockfd : Int) < round.accepted ∧ round.accepted < fdSetSize ∧
      round.accepted ∉ state.loop.registry.masterSet

instance (serverSockfd : Nat) (state : SelectState) (round : Round) :
    Decidable (AcceptsFree serverSockfd state round) :=
  inferInstanceAs (Decidable (_ → _))

/-- Every descriptor in the master set is looked at. -/
structure LooksAtAll (serverSockfd : Nat) (state : SelectState) : Prop where
  server : (serverSockfd : Int) ≤ state.fdmax
  room : state.fdmax < fdSetSize
  clients : ∀ socket ∈ state.loop.registry.masterSet,
    (serverSockfd : Int) < socket ∧ socket ≤ state.fdmax

/-- The clients that are ready, in the order of their descriptors. -/
def readyClients (serverSockfd : Nat) (ready : List Int) : List Nat :=
  (List.range' (serverSockfd + 1) (fdSetSize - (serverSockfd + 1))).filter
    fun i : Nat => (i : Int) ∈ ready

def roundEvents (serverSockfd : Nat) (state : SelectState) (round : Round) :
    List SocketEvent :=
  (if round.ready serverSockfd then [.accepted round.accepted] else []) ++
    (readyClients serverSockfd (readFds serverSockfd state round)).map
      fun i : Nat => round.turn i

section Turns

variable {serverSockfd : Nat} {ready : List Int} {round : Round}

theorem selectBody_idle (state : SelectState × List ControllerEvent) (i : Nat)
    (hidle : ¬ (i : Int) ∈ ready) :
    selectBody serverSockfd ready round state i = state :=
  if_neg hidle

theorem selectBody_fdmax (state : SelectState × List ControllerEvent) (i : Nat) :
    state.1.fdmax ≤ (selectBody serverSockfd ready round state i).1.fdmax := by
  simp only [selectBody]
  split
  · split
    · dsimp only
      split
      · omega
      · exact Int.le_refl _
    · exact Int.le_refl _
  · exact Int.le_refl _

/-- The turns of the clients are events, one after the other. -/
theorem foldl_turns {clients : List Nat}
    (hclients : ∀ i ∈ clients, (i : Int) ∈ ready ∧ i ≠ serverSockfd)
    (state : SelectState × List ControllerEvent) :
    let after := clients.foldl (selectBody serverSockfd ready round) state
    after.1.fdmax = state.1.fdmax ∧
      (after.1.loop, after.2) = run (logged loopStep) (state.1.loop, state.2)
        (clients.map fun i : Nat => round.turn i) := by
  induction clients generalizing state with
  | nil => exact ⟨rfl, rfl⟩
  | cons i rest ih =>
      obtain ⟨⟨hready, hclient⟩, hrest⟩ := List.forall_mem_cons.mp hclients
      have hbody : selectBody serverSockfd ready round state i =
          (⟨(loopStep state.1.loop (round.turn i)).1, state.1.fdmax⟩,
            state.2 ++ (loopStep state.1.loop (round.turn i)).2) := by
        rw [selectBody, if_pos hready, if_neg hclient]
      rw [List.foldl_cons, hbody]
      exact ih hrest _

/-- Nothing below the server's own descriptor is ready. -/
theorem filter_ready (hserver : serverSockfd < fdSetSize)
    (hready : ∀ socket ∈ ready, (serverSockfd : Int) ≤ socket) :
    (List.range' 0 fdSetSize).filter (fun i : Nat => (i : Int) ∈ ready) =
      (if (serverSockfd : Int) ∈ ready then [serverSockfd] else []) ++
        readyClients serverSockfd ready := by
  have hsplit : List.range' 0 fdSetSize = List.range' 0 serverSockfd ++
      serverSockfd :: List.range' (serverSockfd + 1)
        (fdSetSize - (serverSockfd + 1)) := by
    have hsize : fdSetSize = serverSockfd + (fdSetSize - (serverSockfd + 1) + 1) := by
      omega
    conv_lhs => rw [hsize]
    rw [← List.range'_append_1, List.range'_succ, Nat.zero_add]
  have hbelow : (List.range' 0 serverSockfd).filter
      (fun i : Nat => (i : Int) ∈ ready) = [] := by
    rw [List.filter_eq_nil_iff]
    intro i hi hmem
    have hlow := hready i (of_decide_eq_true hmem)
    have hhigh := (List.mem_range'_1.mp hi).2
    omega
  rw [hsplit, List.filter_append, hbelow, List.nil_append]
  by_cases hmem : (serverSockfd : Int) ∈ ready
  · rw [List.filter_cons_of_pos (by simpa using hmem), if_pos hmem]
    rfl
  · rw [List.filter_cons_of_neg (by simpa using hmem), if_neg hmem]
    rfl

theorem mem_readyClients {i : Nat} :
    i ∈ readyClients serverSockfd ready ↔
      (i : Int) ∈ ready ∧ serverSockfd < i ∧ i < fdSetSize := by
  rw [readyClients, List.mem_filter, List.mem_range'_1, decide_eq_true_eq, and_comm]
  apply and_congr_right
  intro _
  omega

end Turns

section Rounds

variable {serverSockfd : Nat} {state : SelectState} {round : Round}

theorem mem_readFds {socket : Int} :
    socket ∈ readFds serverSockfd state round ↔
      (socket = serverSockfd ∨ socket ∈ state.loop.registry.masterSet) ∧
        round.ready socket = true := by
  rw [readFds, List.mem_filter, List.mem_cons]

/-- A round is its events. -/
theorem selectRound_events (hlooks : LooksAtAll serverSockfd state) :
    let after := selectRound serverSockfd state round
    (after.1.fdmax = if round.ready serverSockfd = true then
        max round.accepted state.fdmax else state.fdmax) ∧
      (after.1.loop, after.2) = run (logged loopStep) (state.loop, [])
        (roundEvents serverSockfd state round) := by
  have hwithin (i : Nat) (hi : (i : Int) ∈ readFds serverSockfd state round) :
      (i : Int) ≤ state.fdmax := by
    rcases (mem_readFds.mp hi).1 with hserver | hclient
    · exact hserver ▸ hlooks.server
    · exact (hlooks.clients i hclient).2
  have hfrom (socket : Int) (hsocket : socket ∈ readFds serverSockfd state round) :
      (serverSockfd : Int) ≤ socket := by
    rcases (mem_readFds.mp hsocket).1 with hserver | hclient
    · exact Int.le_of_eq hserver.symm
    · exact Int.le_of_lt (hlooks.clients socket hclient).1
  have hserver : serverSockfd < fdSetSize := by
    have hroom := hlooks.room
    have hle := hlooks.server
    omega
  have hmem : (serverSockfd : Int) ∈ readFds serverSockfd state round ↔
      round.ready serverSockfd = true := by
    rw [mem_readFds]
    simp
  have hclients : ∀ i ∈ readyClients serverSockfd (readFds serverSockfd state round),
      (i : Int) ∈ readFds serverSockfd state round ∧ i ≠ serverSockfd := by
    intro i hi
    obtain ⟨hready, habove, -⟩ := mem_readyClients.mp hi
    exact ⟨hready, by omega⟩
  rw [selectRound, CountingLoop.loop_eq_foldl
      (fun state i hidle => selectBody_idle state i hidle) selectBody_fdmax _ _
      hwithin,
    ← CountingLoop.foldl_filter_busy
      (fun state i hidle => selectBody_idle state i hidle),
    filter_ready hserver hfrom, List.foldl_append]
  by_cases hready : round.ready serverSockfd = true
  · have hbody : selectBody serverSockfd (readFds serverSockfd state round) round
        (state, []) serverSockfd =
          (⟨(loopStep state.loop (.accepted round.accepted)).1,
            if round.accepted > state.fdmax then round.accepted
              else state.fdmax⟩,
            (loopStep state.loop (.accepted round.accepted)).2) := by
      rw [selectBody, if_pos (hmem.mpr hready), if_pos rfl]
      rfl
    obtain ⟨hfdmax, hevents⟩ := @foldl_turns serverSockfd _ round _ hclients
      (selectBody serverSockfd (readFds serverSockfd state round) round
        (state, []) serverSockfd)
    rw [if_pos (hmem.mpr hready), List.foldl_cons, List.foldl_nil, if_pos hready,
      roundEvents, if_pos hready]
    refine ⟨?_, ?_⟩
    · rw [hfdmax, hbody]
      dsimp only
      split <;> omega
    · rw [hevents, hbody]
      rfl
  · obtain ⟨hfdmax, hevents⟩ := @foldl_turns serverSockfd _ round _ hclients
      (state, [])
    rw [if_neg (mt hmem.mp hready), List.foldl_nil, if_neg hready, roundEvents,
      if_neg hready]
    exact ⟨hfdmax, hevents⟩

/-- A socket that is open after an event was open before, or has just been
accepted. -/
theorem mem_loopNext_masterSet {state : LoopState} {event : SocketEvent}
    {socket : Int} (hopen : socket ∈ (loopNext state event).registry.masterSet) :
    socket ∈ state.registry.masterSet ∨ event = .accepted socket := by
  cases event with
  | accepted other =>
      simp only [loopNext, loopStep] at hopen
      split at hopen
      · exact .inl hopen
      · rcases List.mem_append.mp hopen with hold | hnew
        · exact .inl hold
        · exact .inr (congrArg _ (List.mem_singleton.mp hnew).symm)
  | readable other arrival stale outcome =>
      left
      simp only [loopNext, loopStep] at hopen
      split at hopen
      · exact hopen
      · cases arrival with
        | again => exact hopen
        | failed => exact drop_shrinks _ _ hopen
        | hangUp => exact drop_shrinks _ _ hopen
        | frame length body =>
            simp only [handleFrame] at hopen
            split at hopen
            · exact receive_shrinks _ _ _ _ hopen
            · exact receive_shrinks _ _ _ _ (execute_shrinks _ _ _ _ _ hopen)

theorem mem_run_masterSet {state : LoopState} {events : List SocketEvent}
    {socket : Int}
    (hopen : socket ∈ (run loopNext state events).registry.masterSet) :
    socket ∈ state.registry.masterSet ∨ .accepted socket ∈ events := by
  induction events generalizing state with
  | nil => exact .inl hopen
  | cons event rest ih =>
      rcases ih hopen with hnext | hlater
      · rcases mem_loopNext_masterSet hnext with hold | rfl
        · exact .inl hold
        · exact .inr List.mem_cons_self
      · exact .inr (List.mem_cons_of_mem event hlater)

theorem accepted_mem_roundEvents {socket : Int}
    (hmem : .accepted socket ∈ roundEvents serverSockfd state round) :
    round.ready serverSockfd = true ∧ socket = round.accepted := by
  rcases List.mem_append.mp hmem with hfirst | hclient
  · split at hfirst
    · next hready =>
        have hsame := List.mem_singleton.mp hfirst
        exact ⟨hready, SocketEvent.accepted.inj hsame⟩
    · exact absurd hfirst List.not_mem_nil
  · obtain ⟨i, -, hturn⟩ := List.mem_map.mp hclient
    cases hturn

theorem selectNext_loop (hlooks : LooksAtAll serverSockfd state) :
    (selectNext serverSockfd state round).loop =
      run loopNext state.loop (roundEvents serverSockfd state round) := by
  have hevents := (@selectRound_events _ _ round hlooks).2
  exact (congrArg Prod.fst hevents).trans (run_logged loopStep state.loop [] _)

/-- `fdmax` keeps up with the clients. -/
theorem LooksAtAll.next (hlooks : LooksAtAll serverSockfd state)
    (hfree : AcceptsFree serverSockfd state round) :
    LooksAtAll serverSockfd (selectNext serverSockfd state round) := by
  have hfdmax := (@selectRound_events _ _ round hlooks).1
  have hgrows : state.fdmax ≤ (selectNext serverSockfd state round).fdmax := by
    rw [selectNext, hfdmax]
    split <;> omega
  refine ⟨Int.le_trans hlooks.server hgrows, ?_, ?_⟩
  · rw [selectNext, hfdmax]
    split
    · next hready => exact Int.max_lt.mpr ⟨(hfree hready).2.1, hlooks.room⟩
    · exact hlooks.room
  · intro socket hopen
    rw [selectNext_loop hlooks] at hopen
    rcases mem_run_masterSet hopen with hold | hnew
    · obtain ⟨habove, hbelow⟩ := hlooks.clients socket hold
      exact ⟨habove, Int.le_trans hbelow hgrows⟩
    · obtain ⟨hready, rfl⟩ := accepted_mem_roundEvents hnew
      refine ⟨(hfree hready).1, ?_⟩
      rw [selectNext, hfdmax, if_pos hready]
      exact Int.le_max_left _ _

theorem looksAtAll_startSelect (hserver : serverSockfd < fdSetSize) :
    LooksAtAll serverSockfd (startSelect serverSockfd) where
  server := Int.le_refl _
  room := Int.ofNat_lt.mpr hserver
  clients := by simp [startSelect, startController]

structure InLoop (serverSockfd : Nat) (state : SelectState) : Prop where
  looks : LooksAtAll serverSockfd state
  events : ∃ events, state.loop = run loopNext startController events

theorem InLoop.next (hinLoop : InLoop serverSockfd state)
    (hfree : AcceptsFree serverSockfd state round) :
    InLoop serverSockfd (selectNext serverSockfd state round) := by
  obtain ⟨events, hevents⟩ := hinLoop.events
  refine ⟨hinLoop.looks.next hfree,
    events ++ roundEvents serverSockfd state round, ?_⟩
  rw [selectNext_loop hinLoop.looks, hevents, run_append]

theorem readyClients_pairwise (serverSockfd : Nat) (ready : List Int) :
    ((readyClients serverSockfd ready).map Int.ofNat).Pairwise (· < ·) := by
  rw [List.pairwise_map]
  apply List.Pairwise.imp Int.ofNat_lt.mpr
  exact (List.pairwise_lt_range' 1).filter _

theorem mem_readyClients_iff (hlooks : LooksAtAll serverSockfd state) (socket : Int) :
    socket ∈ (readyClients serverSockfd (readFds serverSockfd state round)).map
        Int.ofNat ↔
      socket ∈ state.loop.registry.masterSet ∧ round.ready socket = true := by
  rw [List.mem_map]
  constructor
  · rintro ⟨i, hi, rfl⟩
    obtain ⟨hready, habove, -⟩ := mem_readyClients.mp hi
    obtain ⟨hserver | hopen, hready⟩ := mem_readFds.mp hready
    · have hsame : i = serverSockfd := Int.ofNat.inj hserver
      omega
    · exact ⟨hopen, hready⟩
  · rintro ⟨hopen, hready⟩
    obtain ⟨habove, hbelow⟩ := hlooks.clients socket hopen
    have hroom := hlooks.room
    obtain ⟨i, rfl⟩ := Int.eq_ofNat_of_zero_le (a := socket) (by omega)
    refine ⟨i, mem_readyClients.mpr ⟨?_, by omega, by omega⟩, rfl⟩
    exact mem_readFds.mpr ⟨.inr hopen, hready⟩

end Rounds

/-- In every run of the loop in which `accept` returns fresh descriptors that the
sets have room for, every client is looked at.  A round accepts first and then serves exactly the clients that are ready, one after the other, and the
rounds together are a run of the events. -/
theorem select_loop_serves_ready_clients {serverSockfd : Nat}
    (hserver : serverSockfd < fdSetSize) {rounds : List Round}
    (hfree : Along (selectNext serverSockfd) (AcceptsFree serverSockfd)
      (startSelect serverSockfd) rounds) (round : Round) :
    let state := run (selectNext serverSockfd) (startSelect serverSockfd) rounds
    let after := selectRound serverSockfd state round
    (∃ events, state.loop = run loopNext startController events) ∧
      (∀ socket ∈ state.loop.registry.masterSet, socket ≤ state.fdmax) ∧
      ∃ clients : List Int, clients.Pairwise (· < ·) ∧
        (∀ socket, socket ∈ clients ↔
          socket ∈ state.loop.registry.masterSet ∧ round.ready socket = true) ∧
        (after.1.loop, after.2) = run (logged loopStep) (state.loop, [])
          ((if round.ready serverSockfd then [.accepted round.accepted] else []) ++
            clients.map round.turn) := by
  intro state after
  obtain ⟨hlooks, hevents⟩ : InLoop serverSockfd state :=
    run_of_along (fun _ _ hinLoop hround => hinLoop.next hround)
      ⟨looksAtAll_startSelect hserver, [], rfl⟩ hfree
  refine ⟨hevents, fun socket hopen => (hlooks.clients socket hopen).2,
    (readyClients serverSockfd (readFds serverSockfd state round)).map Int.ofNat,
    readyClients_pairwise _ _, mem_readyClients_iff hlooks, ?_⟩
  have hround := (@selectRound_events _ _ round hlooks).2
  rw [List.map_map]
  exact hround

def calmRound (ready : List Int) (accepted : Int) (texts : Int → String) : Round where
  ready socket := ready.contains socket
  accepted := accepted
  arrival socket := .frame (texts socket).length (bytesOf (texts socket).toList)
  stale _ := blankLocals
  outcome _ := ⟨true, true, true⟩

def alphaRounds : List Round :=
  [calmRound [3] 4 fun _ => "", calmRound [3, 4] 5 fun _ => "CAR Alpha 1 10 \n"]

def callRound : Round :=
  calmRound [3, 4, 5] 6 fun socket =>
    if socket = 4 then "STATUS Closed 1 1 \n" else "CALL 2 5 \n"

theorem select_loop_serves_ready_clients_alpha :
    let state := run (selectNext 3) (startSelect 3) alphaRounds
    let after := selectRound 3 state callRound
    state.loop.registry.masterSet = [4, 5] ∧
      ∃ clients : List Int, clients.Pairwise (· < ·) ∧
        (∀ socket, socket ∈ clients ↔
          socket ∈ state.loop.registry.masterSet ∧
            callRound.ready socket = true) ∧
        (after.1.loop, after.2) = run (logged loopStep) (state.loop, [])
          (.accepted 6 :: clients.map callRound.turn) := by
  have hfree : Along (selectNext 3) (AcceptsFree 3) (startSelect 3) alphaRounds := by
    decide +kernel
  have hserver : 3 < fdSetSize := by decide
  obtain ⟨-, -, hclients⟩ := select_loop_serves_ready_clients hserver hfree callRound
  exact ⟨by decide +kernel, hclients⟩

end Elevator
