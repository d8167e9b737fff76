/-
Independence of the cars.  Where names and sockets are distinct, a report is
taken for one record, is answered on one socket, and neither depends on what
another car's report has done before it.
-/
import Elevator.DoorCount
import Elevator.StatusWire

namespace Elevator

open CText Framing Transition

theorem filter_ne_comm (sockets : List Int) (first second : Int) :
    (sockets.filter (· ≠ first)).filter (· ≠ second) =
      (sockets.filter (· ≠ second)).filter (· ≠ first) := by
  rw [List.filter_filter, List.filter_filter]
  simp only [Bool.and_comm]

theorem ordersTo_eq_nil {socket : Int} {log : List ControllerEvent}
    (hnone : ∀ label, .sent socket (.floor label) ∉ log) :
    ordersTo socket log = [] := by
  rw [ordersTo, List.filterMap_eq_nil_iff]
  intro event hevent
  cases event with
  | sent receiver message =>
      cases message with
      | floor label =>
          refine if_neg ?_
          rintro rfl
          exact hnone label hevent
      | car selectedCar => rfl
      | unavailable => rfl
  | assigned record sourceFloor destFloor => rfl
  | removed record stop reported => rfl

section Report

variable {state : ControllerState} {j : Nat} {car : ConnectedCar}

/-- What a report is answered with is read off the car's record. -/
def answerTo (car : ConnectedCar) (statusStr : CString 8) (sends : Bool) :
    List (CString 4) :=
  if car.previousStatus = statusNames .Closing ∧
      statusStr = statusNames .Closed ∧ sends = true then
    nextOrder (removeFromCarQueue car).1
  else []

theorem OwnRecord.ordersTo_report (hown : OwnRecord j state.cars car)
    (receiver : Int) (statusStr : CString 8)
    (currentFloor destinationFloor : CString 4) (sends : Bool) :
    ordersTo receiver (statusStep state car.connectionsocket statusStr
        currentFloor destinationFloor sends).2 =
      if receiver = car.connectionsocket then answerTo car statusStr sends
      else [] := by
  have hname := controllerGetNameBySocket_own hown
  split
  case isTrue heq =>
    subst heq
    cases sends with
    | true =>
        rw [(statusStep_own hown statusStr currentFloor destinationFloor).2]
        simp only [doorsClosed_reportedCar, answerTo, and_true]
        rw [removeFromCarQueue_car, removeFromCarQueue_car]
        rfl
    | false =>
        rw [ordersTo_eq_nil, answerTo, if_neg (by simp)]
        intro label hlabel
        rw [sent_statusStep_iff _ _ _ _ _ _ hname] at hlabel
        obtain ⟨-, -, -, hsent, -⟩ := hlabel
        exact absurd hsent (by decide)
  case isFalse hne =>
    rw [statusStep_events hname]
    exact ordersTo_statusLoop_of_ne _ _ _ (Ne.symm hne) _ _ _

/-- The one socket a report can close is the car's own. -/
theorem OwnRecord.masterSet_report (hown : OwnRecord j state.cars car)
    (statusStr : CString 8) (currentFloor destinationFloor : CString 4)
    (sends : Bool) :
    (statusStep state car.connectionsocket statusStr currentFloor
        destinationFloor sends).1.masterSet =
      if OrderDue statusStr car → sends = true then state.masterSet
      else state.masterSet.filter (· ≠ car.connectionsocket) := by
  have hfirst : firstNamed state.cars car.name = some car :=
    hown.find?_eq (by simp) fun other hother => Or.inl (by simpa using hother)
  rw [statusStep_masterSet _ _ _ _ (controllerGetNameBySocket_own hown), hfirst]
  simp

end Report

/-- A well-formed report as it comes in on a socket: three words that fit their
arrays, with nothing behind them that would lengthen the last, and all of it no
longer than the buffer. -/
structure StatusFrame where
  socket : Int
  statusStr : CString 8
  currentFloor : CString 4
  destinationFloor : CString 4
  trailing : List Char
  stale : Locals
  outcome : CallOutcome
  status_isOperand : IsOperand statusStr.chars
  currentFloor_isOperand : IsOperand currentFloor.chars
  destinationFloor_isOperand : IsOperand destinationFloor.chars
  trailing_endsWord : EndsWord trailing
  trailing_isText : IsText trailing
  fits : statusStr.chars.length + currentFloor.chars.length +
    destinationFloor.chars.length + trailing.length + 9 < 1024

namespace StatusFrame

def text (frame : StatusFrame) : List Char :=
  "STATUS".toList ++ (spaced [frame.statusStr.chars, frame.currentFloor.chars,
    frame.destinationFloor.chars] ++ frame.trailing)

def event (frame : StatusFrame) : SocketEvent :=
  .readable frame.socket (.frame frame.text.length (bytesOf frame.text))
    frame.stale frame.outcome

/-- The report as the handler of the registry sees it; a closed socket brings
nothing. -/
def reportOn (frame : StatusFrame) (registry : ControllerState) :
    ControllerState × List ControllerEvent :=
  if frame.socket ∈ registry.masterSet then
    statusStep registry frame.socket frame.statusStr frame.currentFloor
      frame.destinationFloor frame.outcome.orderSent
  else (registry, [])

def recordOn (frame : StatusFrame) (masterSet : List Int) (car : ConnectedCar) :
    ConnectedCar :=
  if frame.socket ∈ masterSet then
    recordAfter car frame.statusStr frame.currentFloor frame.destinationFloor
  else car

theorem text_isText (frame : StatusFrame) : IsText frame.text := by
  have hwords : ∀ word ∈ [frame.statusStr.chars, frame.currentFloor.chars,
      frame.destinationFloor.chars], IsText word := by
    simp [frame.status_isOperand.2, frame.currentFloor_isOperand.2,
      frame.destinationFloor_isOperand.2]
  unfold text
  rw [isText_append, isText_append]
  exact ⟨by decide, isText_spaced hwords, frame.trailing_isText⟩

theorem length_text (frame : StatusFrame) :
    0 < frame.text.length ∧ frame.text.length < 1024 := by
  have hfits := frame.fits
  have hsix : "STATUS".toList.length = 6 := rfl
  unfold text
  simp only [List.length_append, spaced_cons, spaced_nil, List.length_cons,
    List.length_nil, hsix]
  omega

/-- The loop reads the report off the buffer and handles it, whatever the buffer
and the local arrays held. -/
theorem loopStep_event (frame : StatusFrame) (state : LoopState) :
    (loopStep state frame.event).1.registry = (frame.reportOn state.registry).1 ∧
      (loopStep state frame.event).2 = (frame.reportOn state.registry).2 := by
  simp only [event, reportOn]
  by_cases hopen : frame.socket ∈ state.registry.masterSet
  · rw [if_pos hopen]
    obtain ⟨hpos, hfits⟩ := frame.length_text
    have hbody := take_bytesOf_ne_nil hpos
    have hcommand : parseCommand (state.buffer.readBody frame.text.length
        (bytesOf frame.text)).text frame.stale = some (.status frame.statusStr
          frame.currentFloor frame.destinationFloor) := by
      rw [Block.text_readBody _ frame.text_isText hfits]
      exact parseCommand_operands frame.status_isOperand
        frame.currentFloor_isOperand frame.destinationFloor_isOperand
        frame.trailing_endsWord frame.stale
    have hsends : (frame.outcome.orderSent &&
        decide (frame.socket ∈ state.registry.masterSet)) =
          frame.outcome.orderSent := by
      rw [decide_eq_true hopen, Bool.and_true]
    obtain ⟨hregistry, hevents⟩ := loopStep_command hopen hbody hcommand frame.outcome
    rw [hregistry, hevents, Command.input, controllerStep, hsends]
    exact ⟨rfl, rfl⟩
  · rw [if_neg hopen, loopStep, if_pos hopen]
    exact ⟨rfl, rfl⟩

section Own

variable {frame : StatusFrame} {registry : ControllerState} {j : Nat}
  {car : ConnectedCar}

theorem reportOn_identity (frame : StatusFrame) (registry : ControllerState) :
    (frame.reportOn registry).1.cars.map ConnectedCar.identity =
      registry.cars.map ConnectedCar.identity := by
  unfold reportOn
  split
  · exact statusStep_identity _ _ _ _ _ _
  · rfl

/-- A car's report reaches its record and no other. -/
theorem reportOn_getElem? (hown : OwnRecord j registry.cars car)
    (hsocket : frame.socket = car.connectionsocket) (i : Nat) :
    (frame.reportOn registry).1.cars[i]? =
      if i = j then some (frame.recordOn registry.masterSet car)
      else registry.cars[i]? := by
  unfold reportOn recordOn
  split_ifs with hopen heq heq
  · rw [heq, hsocket]
    exact statusStep_record hown _ _ _ _
  · rw [hsocket]
    exact hown.others heq _ _ _ _
  · rw [heq]
    exact hown.record
  · rfl

theorem reportOn_masterSet (hown : OwnRecord j registry.cars car)
    (hsocket : frame.socket = car.connectionsocket) :
    (frame.reportOn registry).1.masterSet =
      if OrderDue frame.statusStr car → frame.outcome.orderSent = true then
        registry.masterSet
      else registry.masterSet.filter (· ≠ frame.socket) := by
  unfold reportOn
  split
  case isTrue hopen =>
    rw [hsocket]
    exact hown.masterSet_report _ _ _ _
  case isFalse hclosed =>
    rw [List.filter_eq_self.mpr, ite_self]
    intro socket hmem
    simp only [ne_eq, decide_eq_true_eq]
    rintro rfl
    exact hclosed hmem

theorem mem_reportOn_masterSet (hown : OwnRecord j registry.cars car)
    (hsocket : frame.socket = car.connectionsocket) {other : Int}
    (hother : other ≠ frame.socket) :
    other ∈ (frame.reportOn registry).1.masterSet ↔ other ∈ registry.masterSet := by
  rw [reportOn_masterSet hown hsocket]
  split
  · rfl
  · simp [hother]

theorem ordersTo_reportOn (hown : OwnRecord j registry.cars car)
    (hsocket : frame.socket = car.connectionsocket) (receiver : Int) :
    ordersTo receiver (frame.reportOn registry).2 =
      if receiver = frame.socket ∧ frame.socket ∈ registry.masterSet then
        answerTo car frame.statusStr frame.outcome.orderSent
      else [] := by
  unfold reportOn
  split_ifs with hopen hreceiver hreceiver
  · rw [hsocket, hown.ordersTo_report, if_pos (hreceiver.1.trans hsocket)]
  · rw [hsocket, hown.ordersTo_report, if_neg]
    exact fun heq => hreceiver ⟨heq.trans hsocket.symm, hopen⟩
  · exact absurd hreceiver.2 hopen
  · rfl

end Own

end StatusFrame

section Pair

variable {registry : ControllerState} {i j : Nat} {car other : ConnectedCar}
  {first second : StatusFrame}

theorem OwnRecord.socket_ne (hcar : OwnRecord i registry.cars car)
    (hother : OwnRecord j registry.cars other) (hne : i ≠ j) :
    car.connectionsocket ≠ other.connectionsocket := by
  intro heq
  exact hne (hother.unique i car hcar.record (Or.inr heq))

/-- After the first car's report, the second's record is where it was. -/
theorem OwnRecord.after_report (hcar : OwnRecord i registry.cars car)
    (hother : OwnRecord j registry.cars other) (hne : i ≠ j)
    (hsocket : first.socket = car.connectionsocket) :
    OwnRecord j (first.reportOn registry).1.cars other := by
  apply hother.of_identity (StatusFrame.reportOn_identity first registry)
  rw [StatusFrame.reportOn_getElem? hcar hsocket, if_neg hne.symm, hother.record]

/-- The registry after both reports: each of the two records shows its own. -/
theorem getElem?_two_reports (hcar : OwnRecord i registry.cars car)
    (hother : OwnRecord j registry.cars other) (hne : i ≠ j)
    (hfirst : first.socket = car.connectionsocket)
    (hsecond : second.socket = other.connectionsocket) (k : Nat) :
    (second.reportOn (first.reportOn registry).1).1.cars[k]? =
      if k = i then some (first.recordOn registry.masterSet car)
      else if k = j then some (second.recordOn registry.masterSet other)
      else registry.cars[k]? := by
  have hafter := hcar.after_report hother hne hfirst
  have hsockets : second.socket ≠ first.socket := by
    rw [hfirst, hsecond]
    exact (hcar.socket_ne hother hne).symm
  have hrecord : second.recordOn (first.reportOn registry).1.masterSet other =
      second.recordOn registry.masterSet other := by
    simp only [StatusFrame.recordOn,
      StatusFrame.mem_reportOn_masterSet hcar hfirst hsockets]
  rw [StatusFrame.reportOn_getElem? hafter hsecond,
    StatusFrame.reportOn_getElem? hcar hfirst, hrecord]
  split_ifs with hj hi hi
  · exact absurd (hi.symm.trans hj) hne
  · rfl
  · rfl
  · rfl

theorem masterSet_two_reports (hcar : OwnRecord i registry.cars car)
    (hother : OwnRecord j registry.cars other) (hne : i ≠ j)
    (hfirst : first.socket = car.connectionsocket)
    (hsecond : second.socket = other.connectionsocket) :
    (second.reportOn (first.reportOn registry).1).1.masterSet =
      (first.reportOn (second.reportOn registry).1).1.masterSet := by
  have hafter := hcar.after_report hother hne hfirst
  have hbefore := hother.after_report hcar hne.symm hsecond
  rw [StatusFrame.reportOn_masterSet hafter hsecond,
    StatusFrame.reportOn_masterSet hcar hfirst,
    StatusFrame.reportOn_masterSet hbefore hfirst,
    StatusFrame.reportOn_masterSet hother hsecond]
  split_ifs
  · rfl
  · rfl
  · rfl
  · exact filter_ne_comm _ _ _

theorem reports_commute (hcar : OwnRecord i registry.cars car)
    (hother : OwnRecord j registry.cars other) (hne : i ≠ j)
    (hfirst : first.socket = car.connectionsocket)
    (hsecond : second.socket = other.connectionsocket) :
    (second.reportOn (first.reportOn registry).1).1 =
      (first.reportOn (second.reportOn registry).1).1 := by
  have hcars : (second.reportOn (first.reportOn registry).1).1.cars =
      (first.reportOn (second.reportOn registry).1).1.cars := by
    apply List.ext_getElem?
    intro k
    rw [getElem?_two_reports hcar hother hne hfirst hsecond,
      getElem?_two_reports hother hcar hne.symm hsecond hfirst]
    split_ifs with hi hj hj
    · exact absurd (hi.symm.trans hj) hne
    · rfl
    · rfl
    · rfl
  have hmaster := masterSet_two_reports hcar hother hne hfirst hsecond
  exact congrArg₂ ControllerState.mk hcars hmaster

/-- Each socket gets its orders from one of the two reports only. -/
theorem ordersTo_two_reports (hcar : OwnRecord i registry.cars car)
    (hother : OwnRecord j registry.cars other) (hne : i ≠ j)
    (hfirst : first.socket = car.connectionsocket)
    (hsecond : second.socket = other.connectionsocket) (receiver : Int) :
    ordersTo receiver ((first.reportOn registry).2 ++
        (second.reportOn (first.reportOn registry).1).2) =
      ordersTo receiver ((second.reportOn registry).2 ++
        (first.reportOn (second.reportOn registry).1).2) := by
  have hafter := hcar.after_report hother hne hfirst
  have hbefore := hother.after_report hcar hne.symm hsecond
  have hsockets : first.socket ≠ second.socket := by
    rw [hfirst, hsecond]
    exact hcar.socket_ne hother hne
  simp only [ordersTo_append, StatusFrame.ordersTo_reportOn hcar hfirst,
    StatusFrame.ordersTo_reportOn hafter hsecond,
    StatusFrame.ordersTo_reportOn hother hsecond,
    StatusFrame.ordersTo_reportOn hbefore hfirst,
    StatusFrame.mem_reportOn_masterSet hcar hfirst hsockets.symm,
    StatusFrame.mem_reportOn_masterSet hother hsecond hsockets]
  split_ifs with hleft hright hright
  · exact absurd (hleft.1.symm.trans hright.1) hsockets
  · rw [List.append_nil, List.nil_append]
  · rw [List.append_nil, List.nil_append]
  · rfl

end Pair

/-- Two cars' reports may come in either order: the registry ends up the same,
and so does the sequence of orders on each socket. -/
theorem status_reports_commute {state : LoopState}
    (hnames : (state.registry.cars.map (·.name)).Nodup)
    (hsockets : (state.registry.cars.map (·.connectionsocket)).Nodup)
    {car other : ConnectedCar} (hcar : car ∈ state.registry.cars)
    (hother : other ∈ state.registry.cars) (hne : car ≠ other)
    {first second : StatusFrame} (hfirst : first.socket = car.connectionsocket)
    (hsecond : second.socket = other.connectionsocket) :
    let handled := run (logged loopStep) (state, [])
    (handled [first.event, second.event]).1.registry =
        (handled [second.event, first.event]).1.registry ∧
      ∀ socket, ordersTo socket (handled [first.event, second.event]).2 =
        ordersTo socket (handled [second.event, first.event]).2 := by
  obtain ⟨i, hi⟩ := List.mem_iff_getElem?.mp hcar
  obtain ⟨j, hj⟩ := List.mem_iff_getElem?.mp hother
  have hij : i ≠ j := by
    rintro rfl
    exact hne (Option.some.inj (hi.symm.trans hj))
  have hown := ownRecord_of_nodup hnames hsockets hi
  have hothers := ownRecord_of_nodup hnames hsockets hj
  have hhandled (one two : StatusFrame) :
      (run (logged loopStep) (state, []) [one.event, two.event]).1.registry =
          (two.reportOn (one.reportOn state.registry).1).1 ∧
        (run (logged loopStep) (state, []) [one.event, two.event]).2 =
          (one.reportOn state.registry).2 ++
            (two.reportOn (one.reportOn state.registry).1).2 := by
    obtain ⟨hone, honeLog⟩ := one.loopStep_event state
    obtain ⟨htwo, htwoLog⟩ := two.loopStep_event (loopStep state one.event).1
    rw [hone] at htwo htwoLog
    simp only [run_cons, run_nil, logged, List.nil_append, honeLog, htwoLog, htwo,
      and_self]
  intro handled
  constructor
  · rw [(hhandled first second).1, (hhandled second first).1]
    exact reports_commute hown hothers hij hfirst hsecond
  · intro socket
    rw [(hhandled first second).2, (hhandled second first).2]
    exact ordersTo_two_reports hown hothers hij hfirst hsecond socket

/-- What a car reports from floor 3, on a socket that stays open. -/
def frameAtThree (socket : Int) (status : Status) : StatusFrame where
  socket := socket
  statusStr := statusNames status
  currentFloor := floorToString 3
  destinationFloor := floorToString 3
  trailing := " \n".toList
  stale := blankLocals
  outcome := ⟨true, true, true⟩
  status_isOperand := statusNames_isOperand status
  currentFloor_isOperand := (floorToString_isLabel 3).isOperand
  destinationFloor_isOperand := (floorToString_isLabel 3).isOperand
  trailing_endsWord := endsWord_newline
  trailing_isText := by decide
  fits := by cases status <;> decide

/-- Alpha and Beta report that their doors are closing and closed. -/
theorem alpha_and_beta_commute :
    (run (logged loopStep) (⟨sharedRegistry, .zero 1024⟩, [])
        [(frameAtThree 4 .Closing).event, (frameAtThree 6 .Closed).event]).1.registry =
      (run (logged loopStep) (⟨sharedRegistry, .zero 1024⟩, [])
        [(frameAtThree 6 .Closed).event, (frameAtThree 4 .Closing).event]).1.registry :=
  (@status_reports_commute ⟨sharedRegistry, .zero 1024⟩ (by decide) (by decide)
    { idleCar with queue := [⟨3, .up⟩, ⟨5, .up⟩] }
    { idleCar with name := .store 50 "Beta".toList, connectionsocket := 6 }
    (by decide) (by decide) (by decide) (frameAtThree 4 .Closing)
    (frameAtThree 6 .Closed) rfl rfl).1

end Elevator
