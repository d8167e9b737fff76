/-
The call pad, to its end.  It sends one call, waits for one answer and prints
what it makes of it; when other clients get in between, what is printed is still
what has been decided about the floors of the command line.
-/
import Elevator.Bystander
import Elevator.CommandLine

namespace Elevator

open CText Framing Transition

/-- What the two `recv` calls of the call pad bring: no length, or a length with
as much of the body as there is. -/
inductive PadReception where
  | nothing
  | frame (length : Nat) (body : List UInt8)

/-- The outcomes of the call pad's system calls, and what lies in its arrays. -/
structure PadOutcome where
  connects : Bool
  sends : Bool
  reception : PadReception
  buffer : (size : Nat) → Block size
  carName : CString 1024

/-- The array that the answer is read into is as long as has been announced. -/
def PadOutcome.answer (outcome : PadOutcome) (length : Nat) (body : List UInt8) :
    List Char :=
  ((outcome.buffer (length + 1)).readBody length body).text

def printAnswer (answer : List Char) (carName : CString 1024) : List Char :=
  if answer.head? = some 'U' then
    "Sorry, no car is available to take this request.\n".toList ++
      "Received message from server: ".toList ++ answer ++ " \n".toList
  else if answer.head? = some 'C' then
    "Car ".toList ++
      (assigned (scanAfter "CAR".toList [none] answer) 0 carName).chars ++
      " is on its way to pick you up.\n".toList
  else "Received message from server: ".toList ++ answer ++ " \n".toList

/-- The call pad from the two `recv` calls on. -/
def printReception (outcome : PadOutcome) : List Char :=
  match outcome.reception with
  | .nothing => "Unable to connect to elevator system.\n".toList
  | .frame length body =>
      if length = 0 ∨ 1024 < length then
        "Invalid response from elevator system.\n".toList
      else if body.take length = [] then
        "Unable to connect to elevator system.\n".toList
      else printAnswer (outcome.answer length body) outcome.carName

/-- All that the call pad prints.  The text of `perror` when a `send` fails is
left out. -/
def callPad (argv : List Argument) (outcome : PadOutcome) : List Char :=
  match callArguments argv with
  | .error text => text
  | .ok _ =>
      if !outcome.connects then "Unable to connect to elevator system.\n".toList
      else if !outcome.sends then []
      else printReception outcome

def callText (source destination : Argument) : List Char :=
  "CALL ".toList ++ source.chars ++ " ".toList ++ destination.chars ++
    " \n".toList

section Request

variable {program source destination : Argument}

theorem callArguments_ok (hcontact : Contacts program source destination) :
    callArguments [program, source, destination] =
      .ok (callText source destination) := by
  obtain ⟨message, hmessage⟩ := hcontact
  rw [hmessage]
  simp only [callArguments] at hmessage
  split at hmessage
  · cases hmessage
  · split at hmessage
    · cases hmessage
    · split at hmessage
      · cases hmessage
      · exact hmessage.symm

theorem callText_eq (source destination : Argument) :
    callText source destination =
      "CALL".toList ++
        (spaced [source.chars, destination.chars] ++ " \n".toList) := by
  have htext : callText source destination =
      "CALL ".toList ++ source.chars ++ " ".toList ++ destination.chars ++
        " \n".toList := rfl
  rw [htext]
  simp [spaced_cons, spaced_nil]

theorem callText_isText (source destination : Argument) :
    IsText (callText source destination) := by
  have hwords : ∀ word ∈ [source.chars, destination.chars], IsText word := by
    simp [source.isText, destination.isText]
  rw [callText_eq, isText_append, isText_append]
  exact ⟨by decide, isText_spaced hwords, by decide⟩

theorem length_callText (hcontact : Contacts program source destination) :
    0 < (callText source destination).length ∧
      (callText source destination).length < 1024 := by
  obtain ⟨hsource, hdestination, -⟩ := (contacts_iff _ _ _).mp hcontact
  have hliteral : "CALL".toList.length = 4 := rfl
  have hending : " \n".toList.length = 2 := rfl
  rw [callText_eq]
  simp only [List.length_append, spaced_cons, spaced_nil, List.length_cons,
    List.length_nil, hliteral, hending]
  constructor <;> omega

/-- Two words on the command line are what the controller scans. -/
theorem parseCommand_callText
    (hsource : IsWord source.chars) (hdestination : IsWord destination.chars)
    (stale : Locals) :
    parseCommand (callText source destination) stale =
      some (.call (.store 4 source.chars) (.store 4 destination.chars)) := by
  have hcommand (rest : List Char) :
      ("CALL".toList ++ ' ' :: rest).take 4 = "CALL".toList := rfl
  have hwords : scanWords [none, none]
      (spaced [source.chars, destination.chars] ++ " \n".toList) =
        [source.chars, destination.chars] :=
    scanWords_spaced
      (.cons ⟨hsource, by simp⟩ (.cons ⟨hdestination, by simp⟩ .nil))
      endsWord_newline
  rw [callText_eq, parseCommand, spaced_cons, List.cons_append, hcommand,
    if_pos rfl, scanAfter_literal, ← List.cons_append, ← spaced_cons, hwords]
  rfl

/-- The controller decodes the floors that the call pad has decoded. -/
theorem stringToFloor_argument {floor : Argument} (hlength : floor.chars.length < 4) :
    stringToFloor (CString.store 4 floor.chars) = stringToFloorOf floor.chars := by
  have hchars : (CString.store 4 floor.chars).chars = floor.chars :=
    CString.store_chars (by omega)
  rw [← stringToFloorOf_chars _ (by rw [hchars]; omega), hchars]

end Request

/-- What a call pad is told over a connection: nothing, if the connection ends
without an answer, or the first answer, whole. -/
def PadOutcome.Hears (outcome : PadOutcome) (answers : List ControllerMessage) :
    Prop :=
  outcome.connects = true ∧ outcome.sends = true ∧
    outcome.reception = match answers with
      | [] => .nothing
      | answer :: _ => .frame answer.text.length (bytesOf answer.text)

def hearing (answers : List ControllerMessage) : PadOutcome where
  connects := true
  sends := true
  reception := match answers with
    | [] => .nothing
    | answer :: _ => .frame answer.text.length (bytesOf answer.text)
  buffer := Block.zero
  carName := .store 1024 []

theorem hearing_hears (answers : List ControllerMessage) :
    (hearing answers).Hears answers :=
  ⟨rfl, rfl, rfl⟩

section Answer

variable {pad : PadOutcome} {argv : List Argument} {message : List Char}

theorem callPad_unanswered (hargv : callArguments argv = .ok message)
    (hhears : pad.Hears []) :
    callPad argv pad = "Unable to connect to elevator system.\n".toList := by
  obtain ⟨hconnects, hsends, hreception⟩ := hhears
  simp only [callPad, hargv, hconnects, hsends, Bool.not_true, Bool.false_eq_true,
    if_false, printReception, hreception]

theorem callPad_answered (hargv : callArguments argv = .ok message)
    {answer : ControllerMessage} {rest : List ControllerMessage}
    (hhears : pad.Hears (answer :: rest)) (htext : IsText answer.text)
    (hpos : 0 < answer.text.length) (hfits : answer.text.length ≤ 1024) :
    callPad argv pad = printAnswer answer.text pad.carName := by
  obtain ⟨hconnects, hsends, hreception⟩ := hhears
  have hlength : ¬ (answer.text.length = 0 ∨ 1024 < answer.text.length) := by omega
  have hread : pad.answer answer.text.length (bytesOf answer.text) = answer.text :=
    Block.text_readBody _ htext (Nat.lt_succ_self _)
  simp only [callPad, hargv, hconnects, hsends, Bool.not_true, Bool.false_eq_true,
    if_false, printReception, hreception, hlength, take_bytesOf_ne_nil hpos, hread]

theorem callPad_unavailable (hargv : callArguments argv = .ok message)
    {rest : List ControllerMessage} (hhears : pad.Hears (.unavailable :: rest)) :
    callPad argv pad =
      "Sorry, no car is available to take this request.\n".toList ++
        "Received message from server: ".toList ++ "UNAVAILABLE".toList ++
          " \n".toList := by
  rw [callPad_answered hargv hhears (by decide) (by decide) (by decide)]
  rfl

theorem printAnswer_car (rest : List Char) (carName : CString 1024) :
    printAnswer ("CAR ".toList ++ rest) carName =
      "Car ".toList ++ (assigned (scanAfter "CAR".toList [none]
        ("CAR ".toList ++ rest)) 0 carName).chars ++
          " is on its way to pick you up.\n".toList := by
  have hhead : ("CAR ".toList ++ rest).head? = some 'C' := rfl
  have hne : ¬ some 'C' = some 'U' := by decide
  rw [printAnswer, hhead, if_neg hne, if_pos rfl]

/-- The pad makes the name out of the answer. -/
theorem callPad_car (hargv : callArguments argv = .ok message)
    {name : CString 50} (hname : IsOperand name.chars)
    {rest : List ControllerMessage} (hhears : pad.Hears (.car name :: rest)) :
    callPad argv pad =
      "Car ".toList ++ name.chars ++ " is on its way to pick you up.\n".toList := by
  have hanswer : (ControllerMessage.car name).text =
      "CAR ".toList ++ name.chars := rfl
  have hliteral : "CAR ".toList.length = 4 := rfl
  have hlength : (ControllerMessage.car name).text.length =
      4 + name.chars.length := by
    rw [hanswer, List.length_append, hliteral]
  have hfits := name.fits
  have htext : IsText (ControllerMessage.car name).text :=
    (isText_append _ _).mpr ⟨by decide, hname.2⟩
  have hspaced : "CAR ".toList ++ name.chars =
      "CAR".toList ++ (spaced [name.chars] ++ []) := by
    rw [spaced_cons, spaced_nil, List.append_nil, List.append_nil]
    rfl
  have hscan : scanAfter "CAR".toList [none] ("CAR ".toList ++ name.chars) =
      [name.chars] := by
    rw [hspaced, scanAfter_literal]
    exact scanWords_spaced (.cons ⟨hname.1, by simp⟩ .nil) fun c hc => by cases hc
  have hstored : (assigned [name.chars] 0 pad.carName).chars = name.chars :=
    CString.store_chars (by omega)
  rw [callPad_answered hargv hhears htext (by omega) (by omega), hanswer,
    printAnswer_car, hscan, hstored]

end Answer

/-- What the caller is told of what has been done about the call. -/
inductive Told (before : ControllerState)
    (after : LoopState × List ControllerEvent) (socket : Int)
    (sourceFloor destFloor : Int) : List Char → Prop where
  | car {record : Nat} {car : ConnectedCar}
      (hcar : before.cars[record]? = some car)
      (hassigned : .assigned record sourceFloor destFloor ∈ after.2) :
      Told before after socket sourceFloor destFloor
        ("Car ".toList ++ car.name.chars ++
          " is on its way to pick you up.\n".toList)
  | unavailable (hcars : after.1.registry.cars = before.cars)
      (hnone : ∀ record sourceFloor destFloor,
        .assigned record sourceFloor destFloor ∉ after.2) :
      Told before after socket sourceFloor destFloor
        ("Sorry, no car is available to take this request.\n".toList ++
          "Received message from server: ".toList ++ "UNAVAILABLE".toList ++
            " \n".toList)
  | cutOff (hclosed : socket ∉ after.1.registry.masterSet) :
      Told before after socket sourceFloor destFloor
        "Unable to connect to elevator system.\n".toList

section Decision

variable {state : ControllerState} {socket : Int} {source destination : CString 4}
  {outcome : CallOutcome}

/-- The name of a car finds another client's socket. -/
theorem NobodyOn.getSocketByName (hnobody : NobodyOn state.cars socket)
    {car : ConnectedCar} (hcar : car ∈ state.cars) :
    controllerGetSocketByName state.cars car.name ≠ socket := by
  obtain ⟨first, hfirst⟩ := exists_firstNamed hcar rfl
  have hfound : controllerGetSocketByName state.cars car.name =
      first.connectionsocket := by
    rw [firstNamed] at hfirst
    simp [controllerGetSocketByName, hfirst]
  rw [hfound]
  exact hnobody first (List.mem_of_find?_eq_some hfirst)

/-- A call that a car takes is assigned to it and answered with its name. -/
theorem callStep_answers_car (hnobody : NobodyOn state.cars socket)
    (hsockets : ∀ car ∈ state.cars, 0 ≤ car.connectionsocket)
    (hallocated : outcome.allocated = true) (hreply : outcome.replySent = true)
    {record : Nat} {car : ConnectedCar}
    (hbest : bestCar state.cars (stringToFloor source)
      (stringToFloor destination) = some (record, car)) :
    let after := callStep state socket source destination outcome
    .assigned record (stringToFloor source) (stringToFloor destination) ∈ after.2 ∧
      sentTo socket after.2 = [.car car.name] := by
  have hold := getElem?_of_bestCar hbest
  have hidentity := addToCarQueue_identity true car (stringToFloor source)
    (stringToFloor destination)
  have hselected := sendNextDestination_selected hsockets hold hidentity
    outcome.orderSent
  have horders : sentTo socket (sendNextDestination state record
      (addToCarQueue true car (stringToFloor source)
        (stringToFloor destination)).1 outcome.orderSent).2.2 = [] := by
    rw [sentTo_eq_nil_iff]
    intro message hsent
    rw [mem_sendNextDestination_iff hold hidentity] at hsent
    obtain ⟨-, -, -, hsame⟩ := hsent
    rw [ControllerEvent.sent.injEq] at hsame
    exact hnobody.getSocketByName (List.mem_of_getElem? hold) hsame.1.symm
  simp only [callStep, handleElevatorCall, hbest, hallocated,
    addToCarQueue_allocated, if_true, hselected, hreply]
  refine ⟨by simp, ?_⟩
  have hassigned (sourceFloor destFloor : Int) (rest : List ControllerEvent) :
      sentTo socket (.assigned record sourceFloor destFloor :: rest) =
        sentTo socket rest := rfl
  rw [List.cons_append, hassigned, sentTo_append, horders]
  simp [sentTo]

/-- Whoever calls and has registered nothing is answered with what has been
decided, or is cut off. -/
theorem callStep_answers (hnobody : NobodyOn state.cars socket)
    (hsockets : ∀ car ∈ state.cars, 0 ≤ car.connectionsocket) :
    let after := callStep state socket source destination outcome
    (∃ record car, state.cars[record]? = some car ∧
      .assigned record (stringToFloor source) (stringToFloor destination) ∈
        after.2 ∧ sentTo socket after.2 = [.car car.name]) ∨
    (after.1.cars = state.cars ∧
      (∀ record sourceFloor destFloor,
        .assigned record sourceFloor destFloor ∉ after.2) ∧
      sentTo socket after.2 = [.unavailable]) ∨
    socket ∉ after.1.masterSet ∧ sentTo socket after.2 = [] := by
  intro after
  cases hreply : outcome.replySent with
  | false =>
      refine .inr (.inr ⟨?_, ?_⟩)
      · simp only [after, callStep, hreply, Bool.false_eq_true, if_false,
          ControllerState.drop]
        simp
      · rw [sentTo_eq_nil_iff]
        intro message hsent
        rcases (sent_callStep_iff hsockets socket socket source destination outcome
          message).mp hsent with ⟨-, horder, label, hlabel, -⟩ | ⟨hsends, -⟩
        · have hdue : callOrder state.cars (stringToFloor source)
              (stringToFloor destination) outcome.allocated ≠ none :=
            Option.ne_none_iff_exists'.mpr ⟨label, hlabel⟩
          obtain ⟨car, hcar, hsocket⟩ := orderSocket_mem hdue
          exact hnobody car hcar (hsocket.trans horder.symm)
        · rw [hreply] at hsends
          cases hsends
  | true =>
      by_cases hrefused : bestCar state.cars (stringToFloor source)
          (stringToFloor destination) = none ∨ outcome.allocated = false
      · obtain ⟨hcars, hevents⟩ := callStep_refused socket outcome hrefused
        rw [hreply, if_pos rfl] at hevents
        refine .inr (.inl ⟨hcars, ?_, ?_⟩)
        · intro record sourceFloor destFloor
          rw [show after.2 = [.sent socket .unavailable] from hevents]
          simp
        · rw [show after.2 = [.sent socket .unavailable] from hevents]
          simp [sentTo]
      · obtain ⟨hbest, hallocated⟩ := not_or.mp hrefused
        rw [Bool.not_eq_false] at hallocated
        obtain ⟨⟨record, car⟩, hbest⟩ := Option.ne_none_iff_exists'.mp hbest
        obtain ⟨hassigned, hsent⟩ :=
          callStep_answers_car hnobody hsockets hallocated hreply hbest
        exact .inl ⟨record, car, getElem?_of_bestCar hbest, hassigned, hsent⟩

end Decision

def padCall (socket : Int) (source destination : Argument) (stale : Locals)
    (outcome : CallOutcome) : SocketEvent :=
  .readable socket (.frame (callText source destination).length
    (bytesOf (callText source destination))) stale outcome

/-- The controller carries out what the pad has asked for. -/
theorem loopStep_padCall {state : LoopState} {socket : Int}
    {program source destination : Argument}
    (hopen : socket ∈ state.registry.masterSet)
    (hcontact : Contacts program source destination)
    (hsource : IsWord source.chars) (hdestination : IsWord destination.chars)
    (stale : Locals) (outcome : CallOutcome) :
    ∃ sent : CallOutcome,
      (loopStep state (padCall socket source destination stale outcome)).1.registry =
        (callStep state.registry socket (.store 4 source.chars)
          (.store 4 destination.chars) sent).1 ∧
      (loopStep state (padCall socket source destination stale outcome)).2 =
        (callStep state.registry socket (.store 4 source.chars)
          (.store 4 destination.chars) sent).2 := by
  obtain ⟨hpos, hfits⟩ := length_callText hcontact
  have hcommand : parseCommand (state.buffer.readBody
      (callText source destination).length
      (bytesOf (callText source destination))).text stale =
        some (.call (.store 4 source.chars) (.store 4 destination.chars)) := by
    rw [Block.text_readBody _ (callText_isText source destination) hfits]
    exact parseCommand_callText hsource hdestination stale
  obtain ⟨hregistry, hevents⟩ :=
    loopStep_command hopen (take_bytesOf_ne_nil hpos) hcommand outcome
  exact ⟨_, hregistry, hevents⟩

/-- A client that has just been accepted waits, if no record has its socket. -/
theorem waiting_accepted {state : LoopState} {socket : Int}
    (hinUse : InUse state.registry) (hnonneg : 0 ≤ socket)
    (hfree : socket ∉ state.registry.masterSet)
    (hnobody : NobodyOn state.registry.cars socket) :
    Waiting socket (logged loopStep (state, []) (.accepted socket)) := by
  have hnew : ¬ (socket < 0 ∨ socket ∈ state.registry.masterSet) :=
    not_or.mpr ⟨not_lt.mpr hnonneg, hfree⟩
  refine ⟨hinUse.after_event trivial, ?_, ?_, ?_⟩
  · simp only [logged, loopStep, if_neg hnew]
    exact hnobody
  · simp only [logged, loopStep, if_neg hnew]
    exact List.mem_append_right _ List.mem_cons_self
  · simp only [logged, loopStep, if_neg hnew]
    rfl

/-- The call is handled, and the pad prints what it is told of it. -/
theorem told_of_padCall {state : LoopState} {socket : Int}
    {program source destination : Argument} (hinUse : InUse state.registry)
    (hnobody : NobodyOn state.registry.cars socket)
    (hopen : socket ∈ state.registry.masterSet)
    (hcontact : Contacts program source destination)
    (hsource : IsWord source.chars) (hdestination : IsWord destination.chars)
    {stale : Locals} {outcome : CallOutcome} {pad : PadOutcome}
    (hhears : pad.Hears (sentTo socket
      (loopStep state (padCall socket source destination stale outcome)).2)) :
    Told state.registry (loopStep state (padCall socket source destination stale outcome))
      socket (stringToFloorOf source.chars) (stringToFloorOf destination.chars)
      (callPad [program, source, destination] pad) := by
  obtain ⟨sent, hregistry, hevents⟩ :=
    loopStep_padCall hopen hcontact hsource hdestination stale outcome
  have hargv := callArguments_ok hcontact
  obtain ⟨hsourceLength, hdestLength, -⟩ := (contacts_iff _ _ _).mp hcontact
  rw [← stringToFloor_argument hsourceLength, ← stringToFloor_argument hdestLength]
  rcases callStep_answers hnobody hinUse.sockets with
    ⟨record, car, hcar, hassigned, hsent⟩ | ⟨hcars, hnone, hsent⟩ |
    ⟨hclosed, hsent⟩
  · rw [hevents, hsent] at hhears
    rw [callPad_car hargv (hinUse.names car (List.mem_of_getElem? hcar)) hhears]
    exact .car hcar (hevents ▸ hassigned)
  · rw [hevents, hsent] at hhears
    rw [callPad_unavailable hargv hhears]
    exact .unavailable (hregistry ▸ hcars) (hevents ▸ hnone)
  · rw [hevents, hsent] at hhears
    rw [callPad_unanswered hargv hhears]
    exact .cutOff (hregistry ▸ hclosed)

/-- A call pad with two words for floors connects on a descriptor that is free and
that no record has, registrations carry names, and the answer comes whole.
Whatever else the other clients do between its connection and its call, what it
prints is what has been decided about its floors. -/
theorem call_pad_tells_the_decision {before between : List SocketEvent}
    {socket : Int} {program source destination : Argument} {stale : Locals}
    {outcome : CallOutcome}
    (hcontact : Contacts program source destination)
    (hsource : IsWord source.chars) (hdestination : IsWord destination.chars)
    (hnonneg : 0 ≤ socket)
    (hfree : socket ∉ (run loopNext startController before).registry.masterSet)
    (hnobody : NobodyOn (run loopNext startController before).registry.cars socket)
    (hothers : ∀ event ∈ between, event.socket ≠ socket)
    (hnames : Along loopNext CarriesName startController
      (before ++ .accepted socket :: between)) :
    let call := padCall socket source destination stale outcome
    let called := run loopNext startController
      (before ++ .accepted socket :: between)
    let answers := sentTo socket (run (logged loopStep)
      (run loopNext startController before, [])
      (.accepted socket :: between ++ [call])).2
    ∀ pad : PadOutcome, pad.Hears answers →
      Told called.registry (loopStep called call) socket
        (stringToFloorOf source.chars) (stringToFloorOf destination.chars)
        (callPad [program, source, destination] pad) := by
  intro call called answers pad hhears
  obtain ⟨hbefore, -, hbetween⟩ := along_append.mp hnames
  let connected := run loopNext startController before
  have hinUse : InUse connected.registry :=
    @run_of_along _ _ loopNext (fun state => InUse state.registry) CarriesName
      (fun _ _ hinUse hcarries => hinUse.after_event hcarries) _
      inUse_startController _ hbefore
  have haccepted : Waiting socket
      (logged loopStep (connected, []) (.accepted socket)) :=
    waiting_accepted hinUse hnonneg hfree hnobody
  -- the pad waits while the others are served
  have hguard : Along (logged loopStep)
      (fun state event => event.socket ≠ socket ∧ CarriesName state.1 event)
      (logged loopStep (connected, []) (.accepted socket)) between :=
    (along_of_forall_mem hothers).and
      ((along_logged_iff _ (loopStep connected (.accepted socket)).2 between).mpr
        hbetween)
  have hwaiting : Waiting socket (run (logged loopStep)
      (logged loopStep (connected, []) (.accepted socket)) between) :=
    run_of_along (fun _ _ hstate hstep => hstate.step hstep) haccepted hguard
  have hcalled : (run (logged loopStep)
      (logged loopStep (connected, []) (.accepted socket)) between).1 = called := by
    rw [← run_cons, run_logged]
    exact (run_append _ _ _ _).symm
  have hanswers : answers = sentTo socket (loopStep called call).2 := by
    simp only [answers]
    rw [run_append, run_cons, run_cons, run_nil, logged, hcalled, sentTo_append,
      hwaiting.unanswered, List.nil_append]
  rw [hanswers] at hhears
  obtain ⟨hinUse, hnobody, hopen, -⟩ := hwaiting
  rw [hcalled] at hinUse hnobody hopen
  exact told_of_padCall hinUse hnobody hopen hcontact hsource hdestination hhears

/-- Alpha has registered on socket 4 and reported where it is. -/
def alphaReady : List SocketEvent :=
  [.accepted 4, textFrame 4 "CAR Alpha 1 10 \n", textFrame 4 "STATUS Closed 1 1 \n"]

/-- Before the pad on socket 5 has sent anything, another one calls, and Alpha
leaves for it. -/
def otherPad : List SocketEvent :=
  [.accepted 6, textFrame 6 "CALL 3 7 \n", textFrame 4 "STATUS Between 1 3 \n"]

def fromTwoToFive : List Argument :=
  [⟨"call".toList, by decide⟩, ⟨"2".toList, by decide⟩, ⟨"5".toList, by decide⟩]

theorem call_pad_tells_the_decision_alpha :
    let source : Argument := ⟨"2".toList, by decide⟩
    let destination : Argument := ⟨"5".toList, by decide⟩
    let call := padCall 5 source destination blankLocals ⟨true, true, true⟩
    let called := run loopNext startController
      (alphaReady ++ .accepted 5 :: otherPad)
    let answers := sentTo 5 (run (logged loopStep)
      (run loopNext startController alphaReady, [])
      (.accepted 5 :: otherPad ++ [call])).2
    answers = [.car (.store 50 "Alpha".toList)] ∧
      Told called.registry (loopStep called call) 5
        (stringToFloorOf source.chars) (stringToFloorOf destination.chars)
        (callPad fromTwoToFive (hearing answers)) := by
  refine ⟨by decide +kernel, ?_⟩
  exact call_pad_tells_the_decision ((contacts_iff _ _ _).mpr (by decide))
    (by decide) (by decide) (by decide) (by decide) (by decide) (by decide)
    (by decide) _ (hearing_hears _)

end Elevator
