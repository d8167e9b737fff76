/-
How long a stop waits.  Requests that come later can be put before it, but each
of them once only, so the stop is dropped at the latest after as many others as
stood before it and have been asked for since.
-/
import Elevator.OrderFlow

namespace Elevator

open CText Framing Transition Turns

def StaysUp : LinkAction → Prop
  | .hangUp => False
  | _ => True

instance : DecidablePred StaysUp
  | .hangUp => isFalse id
  | .car _ | .handle _ _ | .cutShort _ _ _ _ | .fails | .client _ => isTrue trivial

/-- The record under the name has dropped the stop in its turn, or keeps it for
its turn; the requests that the log has are those that have joined.  Stops are
told apart by floor and direction only, so an equal one that stands before it
counts as this one. -/
def WaitsItsTurn (name : CString 50) (stop : QueueNode) (place : Nat)
    (earlier : List QueueNode) (state : Link × List (Int × Int)) : Prop :=
  ∃ dropped, state.1.removed = earlier ++ dropped ∧
    ∃ record ∈ state.1.controller.registry.cars, record.name = name ∧
      HasTurn stop place dropped record.queue state.2.length

section Steps

variable {carname : CString 256} {lowest highest : CString 4} {socket : Int}
  {link : Link} {requests : List (Int × Int)} {stop : QueueNode} {place : Nat}
  {earlier : List QueueNode}

theorem WaitsItsTurn.client (hjoined : Joined carname lowest highest socket link)
    (hwaits : WaitsItsTurn (.store 50 carname.chars) stop place earlier
      (link, requests))
    (hnonneg : 0 ≤ socket) {event : SocketEvent} (hother : event.socket ≠ socket)
    (hspares : SparesName (.store 50 carname.chars) link.controller event) :
    WaitsItsTurn (.store 50 carname.chars) stop place earlier
      (linkStep socket link (.client event),
        requests ++ link.requests (.store 50 carname.chars) (.client event)) := by
  obtain ⟨dropped, hremoved, record, hrecord, hname, hturn⟩ := hwaits
  obtain ⟨j, hown, rfl, -⟩ := hjoined.exists_own hrecord hname
  obtain ⟨i, new, hnew, hfurthered⟩ :=
    hown.after_event hnonneg hother (hname ▸ hspares)
  refine ⟨dropped, hremoved, new, List.mem_of_getElem? hnew.record, ?_, ?_⟩
  · rw [hfurthered.frame]
    exact hname
  · rw [Link.requests, ← hname, hown.requestsUnder, List.length_append]
    exact hturn.join hfurthered.turn

theorem WaitsItsTurn.report (hjoined : Joined carname lowest highest socket link)
    (hwaits : WaitsItsTurn (.store 50 carname.chars) stop place earlier
      (link, requests))
    {shm : CarSharedData} (hreadable : shm.report.IsReadable)
    (hopen : socket ∈ link.controller.registry.masterSet) (stale : Locals)
    (outcome : CallOutcome) :
    WaitsItsTurn (.store 50 carname.chars) stop place earlier
      (link.handle socket shm.report stale outcome, requests) := by
  obtain ⟨dropped, hremoved, record, hrecord, hname, hturn⟩ := hwaits
  obtain ⟨j, hown, rfl, -⟩ := hjoined.exists_own hrecord hname
  obtain ⟨hafter, hdrops, -⟩ := hown.handle_report hreadable hopen stale outcome
  obtain ⟨-, -, hqueue⟩ :=
    recordAfter_frame record shm.status shm.currentFloor shm.destinationFloor
  have hsame : link.removed = earlier ++ dropped := hremoved
  refine ⟨_, by rw [hdrops, hsame, List.append_assoc],
    recordAfter record shm.status shm.currentFloor shm.destinationFloor,
    List.mem_of_getElem? hafter.record,
    (recordAfter_identity record _ _ _).1.trans hname, ?_⟩
  rw [hqueue]
  split
  · cases hstops : record.queue with
    | nil =>
        rw [hstops] at hturn
        simpa using hturn
    | cons head rest =>
        rw [hstops] at hturn
        exact hturn.serve
  · rw [List.append_nil]
    exact hturn

/-- Every step but the end of the connection keeps the stop in its turn. -/
theorem WaitsItsTurn.step
    (hcar : (CarMessage.car carname lowest highest).IsReadable)
    (hjoined : Joined carname lowest highest socket link)
    (hwaits : WaitsItsTurn (.store 50 carname.chars) stop place earlier
      (link, requests))
    (hnonneg : 0 ≤ socket) {action : LinkAction}
    (hwithin : WithinConnection (.store 50 carname.chars) socket link action)
    (hup : StaysUp action) :
    WaitsItsTurn (.store 50 carname.chars) stop place earlier
      (logged (linkAsked (.store 50 carname.chars) socket) (link, requests)
        action) := by
  have hquiet (after : Link) (hremoved : after.removed = link.removed)
      (hcars : after.controller.registry.cars = link.controller.registry.cars) :
      WaitsItsTurn (.store 50 carname.chars) stop place earlier
        (after, requests) := by
    simpa only [WaitsItsTurn, hremoved, hcars] using hwaits
  have hbreaks (after : Link) (hcloses : ClosesAtMost link after) :
      WaitsItsTurn (.store 50 carname.chars) stop place earlier
        (after, requests) := by
    obtain ⟨controller, rfl, hcars, -⟩ := hcloses
    exact hquiet _ rfl hcars
  cases action with
  | car own =>
      simp only [logged, linkAsked, Link.requests, List.append_nil]
      exact hquiet _ rfl rfl
  | client event => exact hwaits.client hjoined hnonneg hwithin.1 hwithin.2
  | hangUp => exact hup.elim
  | fails =>
      simp only [logged, linkAsked, Link.requests, List.append_nil]
      exact hbreaks _ closesAtMost_fails
  | cutShort length body stale outcome =>
      simp only [logged, linkAsked, Link.requests, List.append_nil]
      exact hbreaks _ (closesAtMost_cutShort hwithin.1 hwithin.2 stale outcome)
  | handle stale outcome =>
      simp only [logged, linkAsked, Link.requests, List.append_nil, linkStep]
      split
      · next message hmessage =>
          split
          · next hopen =>
              have hreadable := hjoined.isReadable hcar hmessage
              have hstep := loopStep_message hreadable hopen stale outcome
              rcases hjoined.session.message hmessage with ⟨hunread, rfl⟩ |
                ⟨hpast, ⟨shm, -, rfl⟩ | hmode⟩
              · obtain ⟨dropped, -, record, hrecord, hname, -⟩ := hwaits
                obtain ⟨j, -, -, hread⟩ := hjoined.exists_own hrecord hname
                omega
              · exact hwaits.report hjoined hreadable hopen stale outcome
              · obtain ⟨hregistry, hremoved, -⟩ :=
                  link.handle_announcement hmode hopen stale outcome
                exact hquiet _ hremoved (by rw [hregistry])
          · exact hwaits
      · exact hwaits

end Steps

section Results

variable {carname : CString 256} {lowest highest : CString 4} {socket : Int}
  {link : Link}

/-- Every stop has its turn.  However the steps go on within the connection, and
while the controller does not notice its end, from a state in which the car's
record has the stop in its queue: the stop is dropped when at most as many others
have been as stood before it and have been asked for since; until then it stays
in the queue, with no more than what is left of these before it. -/
theorem stops_wait_their_turn (hname : IsOperand carname.chars)
    (hlowest : IsOperand lowest.chars) (hhighest : IsOperand highest.chars)
    (hstart : Connected carname lowest highest socket link)
    {first second : List LinkAction}
    (hguard : Along (linkStep socket)
      (WithinConnection (.store 50 carname.chars) socket) link (first ++ second))
    (hup : ∀ action ∈ second, StaysUp action) :
    let middle := run (linkStep socket) link first
    let final := run (logged (linkAsked (.store 50 carname.chars) socket))
      (middle, []) second
    ∀ record ∈ middle.controller.registry.cars,
      record.name = .store 50 carname.chars →
        ∀ front stop back, record.queue = front ++ stop :: back →
          WaitsItsTurn (.store 50 carname.chars) stop front.length middle.removed
            final := by
  intro middle final record hrecord hrecordName front stop back hqueue
  obtain ⟨hfirst, hsecond⟩ := along_append.mp hguard
  have hcar : (CarMessage.car carname lowest highest).IsReadable :=
    ⟨hname, hlowest, hhighest⟩
  have hmiddle : Joined carname lowest highest socket middle :=
    run_of_along (Joined.step hcar hstart.nonneg) hstart.joined hfirst
  have hwaits : WaitsItsTurn (.store 50 carname.chars) stop front.length
      middle.removed (middle, []) := by
    refine ⟨[], (List.append_nil _).symm, record, hrecord, hrecordName, ?_⟩
    rw [hqueue]
    exact .start front stop back
  have hstep (state : Link × List (Int × Int)) (action : LinkAction)
      (hinv : Joined carname lowest highest socket state.1 ∧
        WaitsItsTurn (.store 50 carname.chars) stop front.length middle.removed state)
      (hboth : WithinConnection (.store 50 carname.chars) socket state.1 action ∧
        StaysUp action) :
      Joined carname lowest highest socket
          (logged (linkAsked (.store 50 carname.chars) socket) state action).1 ∧
        WaitsItsTurn (.store 50 carname.chars) stop front.length middle.removed
          (logged (linkAsked (.store 50 carname.chars) socket) state action) :=
    ⟨hinv.1.step hcar hstart.nonneg _ _ hboth.1,
      hinv.2.step hcar hinv.1 hstart.nonneg hboth.1 hboth.2⟩
  have hlogged : Along (logged (linkAsked (.store 50 carname.chars) socket))
      (fun state action =>
        WithinConnection (.store 50 carname.chars) socket state.1 action ∧
          StaysUp action) (middle, []) second :=
    (@along_logged_iff _ _ _ (linkAsked (.store 50 carname.chars) socket)
      (fun link action => WithinConnection (.store 50 carname.chars) socket link
        action ∧ StaysUp action) middle [] second).mpr
      (hsecond.and (along_of_forall_mem hup))
  exact (run_of_along hstep ⟨hmiddle, hwaits⟩ hlogged).2

/-- Alpha has a stop on floor 1 and one on floor 3 behind it; after a door cycle
the second is the next. -/
theorem stops_wait_their_turn_alpha :
    let middle := run (linkStep 4) connectedAlpha (alphaServes.take 4)
    let final := run (logged (linkAsked (.store 50 "Alpha".toList) 4))
      (middle, []) (alphaServes.drop 4)
    queueAt middle.controller.registry.cars 0 = [⟨1, .up⟩, ⟨3, .up⟩] ∧
      queueAt final.1.controller.registry.cars 0 = [⟨3, .up⟩] ∧
      ∀ record ∈ middle.controller.registry.cars,
        record.name = .store 50 "Alpha".toList →
          ∀ front stop back, record.queue = front ++ stop :: back →
            WaitsItsTurn (.store 50 "Alpha".toList) stop front.length
              middle.removed final := by
  refine ⟨by decide, by decide, stops_wait_their_turn ⟨by decide, by decide⟩
    ⟨by decide, by decide⟩ ⟨by decide, by decide⟩ connected_alpha ?_ (by decide)⟩
  rw [List.take_append_drop]
  exact withinConnection_alphaServes

end Results

end Elevator
