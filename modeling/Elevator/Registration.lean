/-
From the command line of a car to the registry.  The car takes its name and its
floors as it finds them, prints them between blanks, and the controller scans
them again; what is no word on the way out does not come back.
-/
import Elevator.StatusWire

namespace Elevator

open CText Framing Transition

/-- A string of the command line: characters of one byte, and no NUL. -/
structure Argument where
  chars : List Char
  isText : IsText chars
deriving DecidableEq, Repr

/-- `atoi`, by way of a `long` that is cut down to an `int`. -/
def atoi (text : List Char) : Int :=
  let value := (scanInt text).getD 0
  Int.bmod (max (-9223372036854775808) (min 9223372036854775807 value)) 4294967296

/-- The test that each character of a floor has to pass. -/
def isFloorCharacter (c : Char) : Bool :=
  '0' ≤ c || c ≤ '9' || c = 'B'

/-- The loop over the four characters of a floor.  Behind a terminating NUL
stands whatever comes next in memory; a NUL is put for it. -/
def checkFloor (floor : List Char) : Bool :=
  (List.range 4).all fun i => isFloorCharacter (floor.getD i (Char.ofNat 0))

/-- What `main` hands over to the threads. -/
structure CarArguments where
  carname : CString 256
  lowestFloor : CString 4
  highestFloor : CString 4
  delaytime : Int
deriving DecidableEq, Repr

/-- The checks of `main`, with what is printed when one fails.  `created` says
whether the shared memory object could be created.  The check of the name is
commented out. -/
def checkArguments (argv : List Argument) (created : Bool) :
    Except (List Char) CarArguments :=
  match argv with
  | [_, name, lowestFloor, highestFloor, delay] =>
      if atoi delay.chars ≤ 0 then
        .error "Error: Delay time must be a positive integer.\n".toList
      else if 4 ≤ lowestFloor.chars.length ∨ 4 ≤ highestFloor.chars.length then
        .error "Invalid floor(s) length specified.\n".toList
      else if !checkFloor lowestFloor.chars then
        .error ("Invalid floor(s) ! specified. ".toList ++ lowestFloor.chars ++
          " ".toList ++ highestFloor.chars ++ "\n".toList)
      else if !checkFloor highestFloor.chars then
        .error "Invalid floor(s) specified.\n".toList
      else if !created then
        .error "Error: Failed to create shared memory object.\n".toList
      else
        .ok {
          carname := .store 256 name.chars
          lowestFloor := .store 4 lowestFloor.chars
          highestFloor := .store 4 highestFloor.chars
          delaytime := atoi delay.chars }
  | _ =>
      .error ("Usage: ".toList ++ ((argv.head?.map (·.chars)).getD []) ++
        " \x7bname\x7d \x7blowest floor\x7d \x7bhighest floor\x7d \x7bdelay\x7d \n".toList)

def CarArguments.registration (arguments : CarArguments) : CarMessage :=
  .car arguments.carname arguments.lowestFloor arguments.highestFloor

/-- The registration as it comes in on a socket of the controller. -/
def CarArguments.registers (arguments : CarArguments) (socket : Int)
    (stale : Locals) (outcome : CallOutcome) : SocketEvent :=
  let text := arguments.registration.text
  .readable socket (.frame text.length (bytesOf text)) stale outcome

/-- Every character passes the test: it is not before `'0'` or not behind it. -/
theorem isFloorCharacter_eq_true (c : Char) : isFloorCharacter c = true := by
  simp only [isFloorCharacter, Bool.or_eq_true, decide_eq_true_eq]
  rcases Nat.le_total 48 c.toNat with hle | hle
  · exact Or.inl (Or.inl hle)
  · exact Or.inl (Or.inr (Nat.le_trans hle (by decide)))

theorem checkFloor_eq_true (floor : List Char) : checkFloor floor = true := by
  rw [checkFloor, List.all_eq_true]
  exact fun i _ => isFloorCharacter_eq_true _

/-- What five arguments are accepted as. -/
theorem checkArguments_five {program name lowestFloor highestFloor delay : Argument}
    {created : Bool} {arguments : CarArguments} :
    checkArguments [program, name, lowestFloor, highestFloor, delay] created =
        .ok arguments ↔
      0 < atoi delay.chars ∧ lowestFloor.chars.length < 4 ∧
        highestFloor.chars.length < 4 ∧ created = true ∧
        arguments = {
          carname := .store 256 name.chars
          lowestFloor := .store 4 lowestFloor.chars
          highestFloor := .store 4 highestFloor.chars
          delaytime := atoi delay.chars } := by
  simp only [checkArguments, checkFloor_eq_true, Bool.not_true, Bool.false_eq_true,
    if_false]
  constructor
  · intro haccepted
    split_ifs at haccepted with hdelay hlength hcreated
    exact ⟨by omega, by omega, by omega, by simpa using hcreated,
      (Except.ok.inj haccepted).symm⟩
  · rintro ⟨hdelay, hlowest, hhighest, hcreated, harguments⟩
    rw [if_neg (by omega), if_neg (by omega), hcreated, harguments]
    rfl

/-- The text of a registration is its literal, three words or what was given for
them, and what ends the last. -/
theorem registration_text_eq (arguments : CarArguments) :
    arguments.registration.text =
      "CAR".toList ++ (spaced [arguments.carname.chars,
        arguments.lowestFloor.chars, arguments.highestFloor.chars] ++
          " \n".toList) := by
  have htext : arguments.registration.text =
      "CAR ".toList ++ arguments.carname.chars ++ " ".toList ++
        arguments.lowestFloor.chars ++ " ".toList ++
        arguments.highestFloor.chars ++ " \n".toList := rfl
  rw [htext]
  simp [spaced_cons, spaced_nil]

theorem length_registration_text (arguments : CarArguments) :
    0 < arguments.registration.text.length ∧
      arguments.registration.text.length < 1024 := by
  have hname := arguments.carname.fits
  have hlowest := arguments.lowestFloor.fits
  have hhighest := arguments.highestFloor.fits
  have hliteral : "CAR".toList.length = 3 := rfl
  have hending : " \n".toList.length = 2 := rfl
  rw [registration_text_eq]
  simp only [List.length_append, spaced_cons, spaced_nil, List.length_cons,
    List.length_nil, hliteral, hending]
  constructor <;> omega

theorem registration_text_isText {arguments : CarArguments}
    (hname : IsText arguments.carname.chars)
    (hlowest : IsText arguments.lowestFloor.chars)
    (hhighest : IsText arguments.highestFloor.chars) :
    IsText arguments.registration.text := by
  have hwords : ∀ word ∈ [arguments.carname.chars, arguments.lowestFloor.chars,
      arguments.highestFloor.chars], IsText word := by
    simp [hname, hlowest, hhighest]
  rw [registration_text_eq, isText_append, isText_append]
  exact ⟨by decide, isText_spaced hwords, by decide⟩

def registrationWords (arguments : CarArguments) : List (List Char) :=
  scanWords [none, none, none] (spaced [arguments.carname.chars,
    arguments.lowestFloor.chars, arguments.highestFloor.chars] ++ " \n".toList)

theorem parseCommand_registration (arguments : CarArguments) (stale : Locals) :
    parseCommand arguments.registration.text stale =
      some (.car (assigned (registrationWords arguments) 0 stale.name)
        (assigned (registrationWords arguments) 1 stale.lowestFloor)
        (assigned (registrationWords arguments) 2 stale.highestFloor)) := by
  have hcommand (rest : List Char) :
      ("CAR".toList ++ ' ' :: rest).take 4 = "CAR ".toList := rfl
  rw [registration_text_eq, parseCommand, spaced_cons, List.cons_append, hcommand,
    if_neg (by decide), if_pos rfl, scanAfter_literal, ← List.cons_append,
    ← spaced_cons]
  rfl

/-- The controller takes a car for what it was started as, whatever its buffer
and its local arrays held: it scans the very name and floors, and the name in its
replies is that of the record. -/
def RoundTrips (arguments : CarArguments)
    (name lowestFloor highestFloor : List Char) : Prop :=
  ∀ (state : LoopState) (socket : Int) (stale : Locals) (outcome : CallOutcome),
    socket ∈ state.registry.masterSet →
      ∃ carName lowest highest,
        parseCommand (state.buffer.readBody arguments.registration.text.length
            (bytesOf arguments.registration.text)).text stale =
          some (.car carName lowest highest) ∧
        carName.chars = name ∧ lowest.chars = lowestFloor ∧
        highest.chars = highestFloor ∧
        (loopNext state (arguments.registers socket stale outcome)).registry.cars =
          state.registry.cars ++
            [registeredCar socket carName lowest highest stale.fresh] ∧
        (ControllerMessage.car carName).text = "CAR ".toList ++ name

/-- The name and the floors can be read back: words, and a name that fits the
controller's array. -/
def Scannable (name lowestFloor highestFloor : List Char) : Prop :=
  (IsWord name ∧ name.length ≤ 49) ∧ IsWord lowestFloor ∧ IsWord highestFloor

instance (name lowestFloor highestFloor : List Char) :
    Decidable (Scannable name lowestFloor highestFloor) :=
  inferInstanceAs (Decidable (_ ∧ _))

/-- An operand that comes out the same whatever was in its array has been
scanned. -/
theorem isWord_of_assigned {size : Nat} (hsize : 2 ≤ size)
    {words : List (List Char)} (hwords : ∀ word ∈ words, IsWord word) {i : Nat}
    {target : List Char}
    (hall : ∀ stale : CString size, (assigned words i stale).chars = target) :
    IsWord target := by
  cases hword : words[i]? with
  | none =>
      have hstays (text : List Char) :
          (CString.store size text).chars = target := by
        rw [← hall (.store size text)]
        simp [assigned, hword]
      have hempty := hstays []
      have hletter := hstays ['x']
      rw [CString.store_chars (by simp)] at hempty
      rw [CString.store_chars (by simp; omega), ← hempty] at hletter
      cases hletter
  | some word =>
      have htarget := hall (.store size [])
      simp only [assigned, hword, Option.map_some, Option.getD_some] at htarget
      rw [← htarget]
      exact (hwords word (List.mem_of_getElem? hword)).take (by omega)

/-- What is scanned of three words that fit are the three words. -/
theorem registrationWords_of_scannable {arguments : CarArguments}
    (hname : IsWord arguments.carname.chars)
    (hlowest : IsWord arguments.lowestFloor.chars)
    (hhighest : IsWord arguments.highestFloor.chars) :
    registrationWords arguments = [arguments.carname.chars,
      arguments.lowestFloor.chars, arguments.highestFloor.chars] := by
  apply scanWords_spaced
  · exact .cons ⟨hname, by simp⟩
      (.cons ⟨hlowest, by simp⟩ (.cons ⟨hhighest, by simp⟩ .nil))
  · exact endsWord_newline

section RoundTrip

variable {arguments : CarArguments}

/-- The loop reads the registration off the buffer. -/
theorem loopNext_registers (htext : IsText arguments.registration.text)
    {state : LoopState} {socket : Int}
    (hopen : socket ∈ state.registry.masterSet) (stale : Locals)
    (outcome : CallOutcome) :
    parseCommand (state.buffer.readBody arguments.registration.text.length
        (bytesOf arguments.registration.text)).text stale =
      parseCommand arguments.registration.text stale ∧
    (loopNext state (arguments.registers socket stale outcome)).registry.cars =
      state.registry.cars ++ [registeredCar socket
        (assigned (registrationWords arguments) 0 stale.name)
        (assigned (registrationWords arguments) 1 stale.lowestFloor)
        (assigned (registrationWords arguments) 2 stale.highestFloor)
        stale.fresh] := by
  obtain ⟨hpos, hfits⟩ := length_registration_text arguments
  have hread := state.buffer.text_readBody htext hfits
  refine ⟨by rw [hread], ?_⟩
  have hbody := take_bytesOf_ne_nil hpos
  have hcommand := parseCommand_registration arguments stale
  rw [← hread] at hcommand
  rw [loopNext, CarArguments.registers,
    (loopStep_command hopen hbody hcommand outcome).1]
  rfl

theorem roundTrips_of_scannable (htext : IsText arguments.registration.text)
    (hscannable : Scannable arguments.carname.chars arguments.lowestFloor.chars
      arguments.highestFloor.chars) :
    RoundTrips arguments arguments.carname.chars arguments.lowestFloor.chars
      arguments.highestFloor.chars := by
  obtain ⟨⟨hname, hlength⟩, hlowest, hhighest⟩ := hscannable
  have hwords := registrationWords_of_scannable hname hlowest hhighest
  intro state socket stale outcome hopen
  obtain ⟨hparse, hcars⟩ := loopNext_registers htext hopen stale outcome
  rw [parseCommand_registration] at hparse
  have hstored : (CString.store 50 arguments.carname.chars).chars =
      arguments.carname.chars := CString.store_chars hlength
  have hassigned : assigned (registrationWords arguments) 0 stale.name =
      .store 50 arguments.carname.chars := by
    rw [hwords]
    rfl
  refine ⟨_, _, _, hparse, ?_, ?_, ?_, hcars, ?_⟩
  · rw [hassigned, hstored]
  · rw [hwords]
    exact congrArg CString.chars (CString.store_self arguments.lowestFloor)
  · rw [hwords]
    exact congrArg CString.chars (CString.store_self arguments.highestFloor)
  · rw [hassigned]
    exact congrArg ("CAR ".toList ++ ·) hstored

theorem scannable_of_roundTrips (htext : IsText arguments.registration.text)
    {name lowestFloor highestFloor : List Char}
    (hround : RoundTrips arguments name lowestFloor highestFloor) :
    Scannable name lowestFloor highestFloor := by
  -- a controller with a client on socket 0, and any contents of its arrays
  have hparsed (stale : Locals) :
      (assigned (registrationWords arguments) 0 stale.name).chars = name ∧
      (assigned (registrationWords arguments) 1 stale.lowestFloor).chars =
        lowestFloor ∧
      (assigned (registrationWords arguments) 2 stale.highestFloor).chars =
        highestFloor := by
    have hopen : (0 : Int) ∈ (⟨⟨[], [0]⟩, .zero 1024⟩ : LoopState).registry.masterSet :=
      List.mem_cons_self
    obtain ⟨carName, lowest, highest, hcommand, hname, hlowest, hhighest, -, -⟩ :=
      hround _ 0 stale ⟨true, true, true⟩ hopen
    rw [(loopNext_registers htext hopen stale ⟨true, true, true⟩).1,
      parseCommand_registration] at hcommand
    obtain ⟨rfl, rfl, rfl⟩ := Command.car.inj (Option.some.inj hcommand)
    exact ⟨hname, hlowest, hhighest⟩
  have hwords : ∀ word ∈ registrationWords arguments, IsWord word :=
    fun word hword => isWord_of_mem_scanWords hword
  refine ⟨⟨?_, ?_⟩, ?_, ?_⟩
  · exact isWord_of_assigned (by decide) hwords fun stale =>
      (hparsed { blankLocals with name := stale }).1
  · rw [← (hparsed blankLocals).1]
    exact (assigned (registrationWords arguments) 0 blankLocals.name).fits
  · exact isWord_of_assigned (by decide) hwords fun stale =>
      (hparsed { blankLocals with lowestFloor := stale }).2.1
  · exact isWord_of_assigned (by decide) hwords fun stale =>
      (hparsed { blankLocals with highestFloor := stale }).2.2

end RoundTrip

/-- A car that has been started comes back as what it was started as, exactly
when its name and floors can be read back. -/
theorem registration_roundTrips_iff
    {program name lowestFloor highestFloor delay : Argument} {created : Bool}
    {arguments : CarArguments}
    (haccepted : checkArguments [program, name, lowestFloor, highestFloor, delay]
      created = .ok arguments)
    (hlength : name.chars.length < 256) :
    RoundTrips arguments name.chars lowestFloor.chars highestFloor.chars ↔
      Scannable name.chars lowestFloor.chars highestFloor.chars := by
  obtain ⟨-, hlowest, hhighest, -, rfl⟩ := checkArguments_five.mp haccepted
  have hstoredName := @CString.store_chars 256 name.chars (by omega)
  have hstoredLowest := @CString.store_chars 4 lowestFloor.chars (by omega)
  have hstoredHighest := @CString.store_chars 4 highestFloor.chars (by omega)
  have htext := @registration_text_isText ⟨.store 256 name.chars,
      .store 4 lowestFloor.chars, .store 4 highestFloor.chars, atoi delay.chars⟩
    (hstoredName.symm ▸ name.isText) (hstoredLowest.symm ▸ lowestFloor.isText)
    (hstoredHighest.symm ▸ highestFloor.isText)
  constructor
  · exact scannable_of_roundTrips htext
  · intro hscannable
    have hround := roundTrips_of_scannable htext
      (by rwa [hstoredName, hstoredLowest, hstoredHighest])
    rwa [hstoredName, hstoredLowest, hstoredHighest] at hround

/-- A command line for a car of this name, on ten floors and with a delay of ten
milliseconds. -/
def carCommand (name : Argument) : List Argument :=
  [⟨"./car".toList, by decide⟩, name, ⟨"1".toList, by decide⟩,
    ⟨"10".toList, by decide⟩, ⟨"10".toList, by decide⟩]

def carStarted (name : Argument) : CarArguments where
  carname := .store 256 name.chars
  lowestFloor := .store 4 "1".toList
  highestFloor := .store 4 "10".toList
  delaytime := 10

theorem checkArguments_carCommand (name : Argument) :
    checkArguments (carCommand name) true = .ok (carStarted name) :=
  checkArguments_five.mpr ⟨by decide, by decide, by decide, rfl, rfl⟩

theorem alpha_roundTrips :
    RoundTrips (carStarted ⟨"Alpha".toList, by decide⟩) "Alpha".toList "1".toList
      "10".toList :=
  (registration_roundTrips_iff
    (checkArguments_carCommand ⟨"Alpha".toList, by decide⟩) (by decide)).mpr
      (by decide)

/-- A car named `Lift A` is accepted, and registered as `Lift` with lowest floor
`A`. -/
theorem blank_in_name_is_lost :
    checkArguments (carCommand ⟨"Lift A".toList, by decide⟩) true =
        .ok (carStarted ⟨"Lift A".toList, by decide⟩) ∧
      ¬ RoundTrips (carStarted ⟨"Lift A".toList, by decide⟩) "Lift A".toList
        "1".toList "10".toList :=
  ⟨checkArguments_carCommand _, fun hround =>
    absurd (scannable_of_roundTrips (by decide) hround) (by decide)⟩

end Elevator
