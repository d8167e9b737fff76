/-
Frames of which the body does not arrive.  The handler closes the socket and
goes on to look at its buffer, where a command of some other client may stand.
-/
import Elevator.Overrun

namespace Elevator

open CText Framing Transition

/-- The body is empty, or less of it arrives than was announced. -/
def Incomplete (length : Nat) (body : List UInt8) : Prop :=
  length = 0 ∨ body.length < length

instance (length : Nat) (body : List UInt8) : Decidable (Incomplete length body) :=
  inferInstanceAs (Decidable (_ ∨ _))

def commandWords : List (List Char) :=
  ["CALL".toList, "CAR ".toList, "STAT".toList]

/-- The announced length leaves four characters in the buffer, and those that
have been received spell a command together with those that were there. -/
def SpellsCommand (buffer : Block 1024) (length : Nat) (body : List UInt8) :
    Prop :=
  4 ≤ length ∧ ∃ word ∈ commandWords,
    (body ++ buffer.bytes.drop body.length).take 4 = bytesOf word

instance (buffer : Block 1024) (length : Nat) (body : List UInt8) :
    Decidable (SpellsCommand buffer length body) :=
  inferInstanceAs (Decidable (_ ∧ _))

/-- All records are as they were, apart from some of this socket's that may have
been removed. -/
def OthersKept (socket : Int) (before after : List ConnectedCar) : Prop :=
  after.Sublist before ∧
    after.filter (fun car => car.connectionsocket ≠ socket) =
      before.filter fun car => car.connectionsocket ≠ socket

/-- No command is carried out, nothing is sent, the records are kept, and nothing
is written outside the buffer. -/
def NoEffect (state : LoopState) (socket : Int) (length : Nat)
    (body : List UInt8) (stale : Locals) (outcome : CallOutcome) : Prop :=
  parseCommand (receive state socket length body).buffer.text stale = none ∧
    OthersKept socket state.registry.cars
      (handleFrame state socket length body stale outcome).1.registry.cars ∧
    (handleFrame state socket length body stale outcome).2 = [] ∧
    AllInBounds (receiveWrites length body)

theorem parseCommand_eq_none_iff (buffer : List Char) (stale : Locals) :
    parseCommand buffer stale = none ↔
      ∀ word ∈ commandWords, buffer.take 4 ≠ word := by
  simp only [parseCommand, commandWords, List.forall_mem_cons, List.not_mem_nil,
    false_implies, implies_true, and_true]
  split_ifs with hcall hcar hstat
  · simp [hcall]
  · simp [hcar]
  · simp [hstat]
  · exact iff_of_true rfl ⟨hcall, hcar, hstat⟩

theorem commandWords_spec :
    ∀ word ∈ commandWords, word.length = 4 ∧ IsText word := by
  decide

/-- Where four characters are left, the first four bytes are those received and
those behind them. -/
theorem take_four_readBody (buffer : Block 1024) {length : Nat}
    {body : List UInt8} (hlength : 4 ≤ length) (hshort : body.length < length) :
    (buffer.readBody length body).bytes.take 4 =
      (body ++ buffer.bytes.drop body.length).take 4 := by
  have hbody : body.take length = body :=
    List.take_of_length_le (Nat.le_of_lt hshort)
  simp only [Block.readBody, Block.terminate, Block.write, hbody]
  rw [List.take_set, List.set_eq_of_length_le, List.take_append, List.take_append,
    List.take_take]
  · simp only [List.length_take]
    congr 2
    omega
  · rw [List.length_take]
    omega

theorem text_take_four_iff (buffer : Block 1024) {length : Nat}
    {body : List UInt8} (hlength : 4 ≤ length) (hshort : body.length < length)
    {word : List Char} (hword : word ∈ commandWords) :
    (buffer.readBody length body).text.take 4 = word ↔
      (body ++ buffer.bytes.drop body.length).take 4 = bytesOf word := by
  obtain ⟨hfour, htext⟩ := commandWords_spec word hword
  have hiff := take_textOf_iff htext (buffer.readBody length body).bytes
  rw [hfour, take_four_readBody buffer hlength hshort] at hiff
  exact hiff

/-- The command looked for after an incomplete frame is the one that the buffer
spells. -/
theorem parseCommand_incomplete_iff (buffer : Block 1024) {length : Nat}
    {body : List UInt8} (hincomplete : Incomplete length body) (stale : Locals) :
    parseCommand (buffer.readBody length body).text stale = none ↔
      ¬ SpellsCommand buffer length body := by
  rw [parseCommand_eq_none_iff]
  by_cases hlength : 4 ≤ length
  · have hshort : body.length < length := hincomplete.resolve_left (by omega)
    constructor
    · rintro hnone ⟨-, word, hword, hbytes⟩
      exact hnone word hword
        ((text_take_four_iff buffer hlength hshort hword).mpr hbytes)
    · intro hspells word hword htext
      exact hspells ⟨hlength, word, hword,
        (text_take_four_iff buffer hlength hshort hword).mp htext⟩
  · have htext := buffer.length_text_readBody (show length < 1024 by omega) body
    refine iff_of_true (fun word hword heq => ?_) fun h => hlength h.1
    have hfour := congrArg List.length heq
    rw [(commandWords_spec word hword).1, List.length_take] at hfour
    omega

/-- An incomplete frame has no effect exactly when it announces less than the
buffer holds, and what it leaves in the buffer does not spell a command.  The
socket is closed, but the handling goes on. -/
theorem noEffect_iff (state : LoopState) (socket : Int) {length : Nat}
    {body : List UInt8} (hincomplete : Incomplete length body) (stale : Locals)
    (outcome : CallOutcome) :
    NoEffect state socket length body stale outcome ↔
      length < 1024 ∧ ¬ SpellsCommand state.buffer length body := by
  rw [← parseCommand_incomplete_iff state.buffer hincomplete stale, NoEffect,
    receiveWrites_inBounds_iff]
  constructor
  · rintro ⟨hnone, -, -, hfits⟩
    exact ⟨hfits, hnone⟩
  · rintro ⟨hfits, hnone⟩
    have hnone' : parseCommand (receive state socket length body).buffer.text
        stale = none := hnone
    refine ⟨hnone', ?_, ?_, hfits⟩
    · simp only [handleFrame, hnone', receive_cars]
      exact ⟨List.Sublist.refl _, rfl⟩
    · simp only [handleFrame, hnone']

/-- The call pad hangs up in the middle of a prefix and what is read of it
announces three bytes: nothing comes of it. -/
theorem noEffect_short_prefix :
    NoEffect registeredAlpha 5 3 [] blankLocals ⟨true, true, true⟩ :=
  (noEffect_iff registeredAlpha 5 (by decide) blankLocals _).mpr (by decide)

/-- The call pad announces a call and hangs up: Alpha is registered once more,
on the socket that has just been closed. -/
theorem incomplete_frame_registers :
    Incomplete 10 [] ∧
      ¬ NoEffect registeredAlpha 5 10 [] blankLocals ⟨true, true, true⟩ ∧
      (handleFrame registeredAlpha 5 10 [] blankLocals
        ⟨true, true, true⟩).1.registry.cars.length = 2 := by
  refine ⟨by decide, fun h => ?_, by decide⟩
  exact absurd h.1 (by decide)

end Elevator
