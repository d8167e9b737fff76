/-
Commands that are not what they should be.  The results of `sscanf` are ignored,
so the handler goes on with as many operands as there were and with whatever its
arrays held for the others; what a label is, nobody asks.
-/
import Elevator.Connections
import Elevator.Floor
import Elevator.Itinerary
import Elevator.Overrun
import Elevator.Selection

namespace Elevator

open CText Framing Transition

/-- The word is the label of a floor: B99 to B1, or 1 to 999. -/
def IsFloorWord (word : List Char) : Prop :=
  word.length ≤ 3 ∧ IsLabel (.store 4 word)

instance (word : List Char) : Decidable (IsFloorWord word) :=
  inferInstanceAs (Decidable (_ ∧ _))

/-- There are fewer words than there should be, or one of those from the first
floor on is not the label of a floor. -/
def BadOperands (count firstFloor : Nat) (words : List (List Char)) : Prop :=
  words.length < count ∨
    ∃ word ∈ (words.take count).drop firstFloor, ¬ IsFloorWord word

instance (count firstFloor : Nat) (words : List (List Char)) :
    Decidable (BadOperands count firstFloor words) :=
  inferInstanceAs (Decidable (_ ∨ ∃ word ∈ _, _))

/-- The text of a command that lacks operands or has other things than floors
for them.  The operands of a report are taken both as its words and as what the
field widths make of them. -/
inductive MalformedText : List Char → Prop where
  | call (operands : List Char) (hbad : BadOperands 2 0 (wordsOf operands)) :
      MalformedText ("CALL".toList ++ operands)
  | car (operands : List Char) (hbad : BadOperands 3 1 (wordsOf operands)) :
      MalformedText ("CAR ".toList ++ operands)
  | status (operands : List Char)
      (hbad : BadOperands 3 1 (wordsOf operands) ∨
        BadOperands 3 1 (scanWords [some 7, some 3, some 3] operands)) :
      MalformedText ("STATUS".toList ++ operands)
  | unknown (rest : List Char)
      (hother : ¬ "STATUS".toList <+: "STAT".toList ++ rest) :
      MalformedText ("STAT".toList ++ rest)

/-- A frame is rejected without effect: nothing is written outside the arrays,
the records are as they were, and a call is answered `UNAVAILABLE`, as far as the
answer can be sent. -/
structure Rejected (state : LoopState) (socket : Int) (length : UInt32)
    (body : List UInt8) (stale : Locals) (outcome : CallOutcome) : Prop where
  inBounds : AllInBounds (controllerWrites state.buffer
    (controllerGetNameBySocket state.registry.cars socket).isSome length body)
  unchanged : (loopNext state (.readable socket (.frame length.toNat body) stale
    outcome)).registry.cars = state.registry.cars
  answered : (textOf body).take 4 = "CALL".toList →
    (loopStep state (.readable socket (.frame length.toNat body) stale
        outcome)).2 =
      if outcome.replySent then [.sent socket .unavailable] else []

/-- The command has no effect on the records: a call that no car in reach serves
or that there is no memory for, or a report of a car that the first record with
its name shows already. -/
def CommandHarmless (cars : List ConnectedCar) (socket : Int)
    (allocated : Bool) : Command → Prop
  | .call source destination =>
      allocated = false ∨ ∀ car ∈ cars,
        Serves car (stringToFloor source) (stringToFloor destination) →
          ¬ WithinReach car (stringToFloor source) (stringToFloor destination)
  | .car _ _ _ => False
  | .status statusStr currentFloor destinationFloor =>
      ∀ name ∈ controllerGetNameBySocket cars socket,
        ∀ car ∈ firstNamed cars name,
          UpToDate statusStr currentFloor destinationFloor car

/-- The frame fits the arrays, and the command that is made of it has no
effect. -/
structure Harmless (state : LoopState) (socket : Int) (length : UInt32)
    (body : List UInt8) (stale : Locals) (outcome : CallOutcome) : Prop where
  fits : CommandFits state.buffer length.toNat body
  command : ∀ command ∈ parseCommand (textOf body) stale,
    CommandHarmless state.registry.cars socket outcome.allocated command

theorem length_lt_addToCarQueue (car : ConnectedCar) (sourceFloor destFloor : Int) :
    car.queue.length <
      (addToCarQueue true car sourceFloor destFloor).1.queue.length := by
  by_cases hjoins : JoinsAtEnd car sourceFloor destFloor
  · rw [addToCarQueue_of_joinsAtEnd hjoins, List.length_append]
    exact Nat.lt_add_of_pos_right (by simp)
  · rw [length_addToCarQueue_of_not_joinsAtEnd hjoins]
    exact Nat.lt_succ_self _

section Step

variable {state : ControllerState} (socket : Int)

/-- A call leaves the records alone only if it is turned down. -/
theorem callStep_cars_eq_iff (source destination : CString 4)
    (outcome : CallOutcome) :
    (callStep state socket source destination outcome).1.cars = state.cars ↔
      CommandHarmless state.cars socket outcome.allocated
        (.call source destination) := by
  rw [CommandHarmless, ← bestCar_eq_none_iff]
  constructor
  · intro hsame
    cases hallocated : outcome.allocated with
    | false => exact Or.inl rfl
    | true =>
        right
        cases hbest : bestCar state.cars (stringToFloor source)
            (stringToFloor destination) with
        | none => rfl
        | some found =>
            obtain ⟨record, car⟩ := found
            have hold := getElem?_of_bestCar hbest
            obtain ⟨hlt, -⟩ := List.getElem?_eq_some_iff.mp hold
            obtain ⟨destination', hset⟩ := sendNextDestination_cars state record
              (addToCarQueue true car (stringToFloor source)
                (stringToFloor destination)).1 outcome.orderSent
            rw [callStep_cars hallocated hbest, hset] at hsame
            have hrecord := List.getElem?_set_self hlt (a := { (addToCarQueue true
              car (stringToFloor source) (stringToFloor destination)).1 with
                destinationfloor := destination' })
            rw [hsame, hold, Option.some.injEq] at hrecord
            have hqueue := congrArg (·.queue.length) hrecord
            have hgrown := length_lt_addToCarQueue car (stringToFloor source)
              (stringToFloor destination)
            exact absurd hqueue (Nat.ne_of_lt hgrown)
  · intro hrefused
    exact (callStep_refused socket outcome hrefused.symm).1

/-- A report leaves the records alone only if it is no news. -/
theorem statusStep_cars_eq_iff (statusStr : CString 8)
    (currentFloor destinationFloor : CString 4) (sends allocated : Bool) :
    (statusStep state socket statusStr currentFloor destinationFloor
        sends).1.cars = state.cars ↔
      CommandHarmless state.cars socket allocated
        (.status statusStr currentFloor destinationFloor) := by
  cases hname : controllerGetNameBySocket state.cars socket with
  | none =>
      rw [statusStep_none hname]
      simp [CommandHarmless, hname]
  | some name =>
      simp only [CommandHarmless, hname, Option.mem_def, Option.some.injEq,
        forall_eq']
      constructor
      · intro hsame car hcar
        have hfirst := firstNamed_statusStep statusStr currentFloor
          destinationFloor sends hname
        rw [hsame, hcar, Option.map_some, Option.some.injEq] at hfirst
        rw [hfirst]
        exact recordAfter_upToDate statusStr currentFloor destinationFloor car
      · intro hsame
        rw [statusStep_eq_self _ _ _ _ hname hsame]

end Step

theorem MalformedText.command {text : List Char} (htext : MalformedText text) :
    text.take 4 = "CALL".toList ∨ text.take 4 = "CAR ".toList ∨
      text.take 4 = "STAT".toList := by
  cases htext with
  | call operands hbad => exact Or.inl rfl
  | car operands hbad => exact Or.inr (Or.inl rfl)
  | status operands hbad => exact Or.inr (Or.inr rfl)
  | unknown rest hother => exact Or.inr (Or.inr rfl)

theorem parseCommand_call {text : List Char} (htext : text.take 4 = "CALL".toList)
    (stale : Locals) :
    ∃ source destination,
      parseCommand text stale = some (.call source destination) := by
  rw [parseCommand]
  exact ⟨_, _, if_pos htext⟩

/-- The handler takes it for a command all the same. -/
theorem MalformedText.exists_parseCommand {text : List Char}
    (htext : MalformedText text) (stale : Locals) :
    ∃ command, parseCommand text stale = some command := by
  rcases htext.command with hcall | hcar | hstat
  · obtain ⟨source, destination, hcommand⟩ := parseCommand_call hcall stale
    exact ⟨_, hcommand⟩
  · have hother : text.take 4 ≠ "CALL".toList := hcar ▸ by decide
    rw [parseCommand]
    exact ⟨_, (if_neg hother).trans (if_pos hcar)⟩
  · have hcall : text.take 4 ≠ "CALL".toList := hstat ▸ by decide
    have hcar : text.take 4 ≠ "CAR ".toList := hstat ▸ by decide
    rw [parseCommand]
    exact ⟨_, (if_neg hcall).trans ((if_neg hcar).trans (if_pos hstat))⟩

theorem MalformedText.body_ne_nil {body : List UInt8}
    (htext : MalformedText (textOf body)) : body ≠ [] := by
  rintro rfl
  rcases htext.command with h | h | h <;> exact absurd h (by decide)

section Frame

variable {state : LoopState} {socket : Int} {length : UInt32}
  {body : List UInt8} {stale : Locals} {outcome : CallOutcome}

/-- The text of a complete frame is its own. -/
theorem text_readBody_of_complete (buffer : Block 1024)
    (hcomplete : body.length = length.toNat) (hlength : length.toNat < 1024) :
    (buffer.readBody length.toNat body).text = textOf body := by
  rw [buffer.text_readBody_eq hlength, List.take_left' hcomplete]

/-- A command leaves the records alone only if it is harmless. -/
theorem command_cars_eq_iff (registry : ControllerState) (socket : Int)
    (stale : Locals) (outcome : CallOutcome) (command : Command) :
    (controllerStep registry (command.input registry socket stale
        outcome)).1.cars = registry.cars ↔
      CommandHarmless registry.cars socket outcome.allocated command := by
  cases command with
  | call source destination => exact callStep_cars_eq_iff socket _ _ _
  | car name lowestFloor highestFloor =>
      apply iff_of_false
      · exact fun hsame => absurd (congrArg List.length hsame)
          (by simp [Command.input, controllerStep, controllerPush])
      · exact id
  | status statusStr currentFloor destinationFloor =>
      exact statusStep_cars_eq_iff socket _ _ _ _ _

/-- A call that is turned down leaves every socket open until the answer. -/
theorem sendable_replySent_of_refused {registry : ControllerState}
    {source destination : CString 4}
    (hopen : socket ∈ registry.masterSet)
    (hrefused : bestCar registry.cars (stringToFloor source)
      (stringToFloor destination) = none ∨ outcome.allocated = false) :
    (sendable registry socket source destination outcome).replySent =
      outcome.replySent := by
  have hhandled (orderSent replySent : Bool) :
      handleElevatorCall registry (stringToFloor source)
          (stringToFloor destination) ⟨outcome.allocated, orderSent, replySent⟩ =
        (registry, none, []) :=
    handleElevatorCall_refused hrefused
  simp only [sendable, callStep, hhandled, if_true]
  simp [hopen]

/-- A malformed command is rejected exactly where it is harmless. -/
theorem malformed_rejected_iff (hopen : socket ∈ state.registry.masterSet)
    (hcomplete : body.length = length.toNat)
    (hmalformed : MalformedText (textOf body)) (stale : Locals)
    (outcome : CallOutcome) :
    Rejected state socket length body stale outcome ↔
      Harmless state socket length body stale outcome := by
  obtain ⟨command, hcommand⟩ := hmalformed.exists_parseCommand stale
  have hread : body.take length.toNat ≠ [] := by
    rw [List.take_of_length_le (Nat.le_of_eq hcomplete)]
    exact hmalformed.body_ne_nil
  have hfits := controllerWrites_iff state.buffer
    (controllerGetNameBySocket state.registry.cars socket).isSome length body
  have hstep (hframe : CommandFits state.buffer length.toNat body) := by
    have hparsed := hcommand
    rw [← text_readBody_of_complete state.buffer hcomplete hframe.bodyFits] at hparsed
    exact loopStep_command hopen hread hparsed outcome
  have hcars := command_cars_eq_iff state.registry socket stale outcome command
  constructor
  · rintro ⟨hwrites, hsame, -⟩
    have hframe := hfits.mp hwrites
    refine ⟨hframe, ?_⟩
    simp only [hcommand, Option.mem_def, Option.some.injEq, forall_eq']
    rw [← hcars, ← (hstep hframe).1]
    exact hsame
  · rintro ⟨hframe, hharmless⟩
    have hown := hharmless command hcommand
    obtain ⟨hregistry, hevents⟩ := hstep hframe
    refine ⟨hfits.mpr hframe, ?_, ?_⟩
    · rw [loopNext, hregistry]
      exact hcars.mpr hown
    · intro hcall
      obtain ⟨source, destination, hparsed⟩ := parseCommand_call hcall stale
      obtain rfl : command = .call source destination :=
        Option.some.inj (hcommand.symm.trans hparsed)
      rw [CommandHarmless, ← bestCar_eq_none_iff] at hown
      rw [hevents, Command.input, controllerStep,
        (callStep_refused socket (sendable state.registry socket source
          destination outcome) hown.symm).2,
        sendable_replySent_of_refused hopen hown.symm]

end Frame

theorem malformed_zero : MalformedText (textOf (bytesOf "CALL 0 3".toList)) := by
  rw [show textOf (bytesOf "CALL 0 3".toList) =
    "CALL".toList ++ " 0 3".toList from by decide]
  exact .call _ (by decide)

theorem malformed_letter : MalformedText (textOf (bytesOf "CALL 1x 3".toList)) := by
  rw [show textOf (bytesOf "CALL 1x 3".toList) =
    "CALL".toList ++ " 1x 3".toList from by decide]
  exact .call _ (by decide)

/-- There is no floor 0, and Alpha does not go there. -/
theorem malformed_rejected_iff_zero :
    Rejected registeredAlpha 5 8 (bytesOf "CALL 0 3".toList) blankLocals
        ⟨true, true, true⟩ ↔
      Harmless registeredAlpha 5 8 (bytesOf "CALL 0 3".toList) blankLocals
        ⟨true, true, true⟩ :=
  malformed_rejected_iff (by decide) (by decide) malformed_zero blankLocals
    ⟨true, true, true⟩

/-- `1x` is no floor, but it is decoded as one: the call is given to Alpha. -/
theorem malformed_call_is_served :
    (5 : Int) ∈ registeredAlpha.registry.masterSet ∧
      MalformedText (textOf (bytesOf "CALL 1x 3".toList)) ∧
      ¬ Rejected registeredAlpha 5 9 (bytesOf "CALL 1x 3".toList) blankLocals
        ⟨true, true, true⟩ :=
  ⟨by decide, malformed_letter,
    fun hrejected => absurd hrejected.unchanged (by decide)⟩

end Elevator
