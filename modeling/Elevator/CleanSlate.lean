/-
What is left in memory.  Buffer and local arrays keep what was in them, but as
long as every frame comes in whole and with all operands of its command, the
controller does what one would do that clears them first.
-/
import Elevator.ControllerLoop

namespace Elevator

open CText Framing Transition

/-- Nothing is on the stack but the record that a registration is filled into. -/
def Locals.cleared (stale : Locals) : Locals :=
  { blankLocals with fresh := stale.fresh }

def SocketEvent.cleared : SocketEvent → SocketEvent
  | .accepted socket => .accepted socket
  | .readable socket arrival stale outcome =>
      .readable socket arrival stale.cleared outcome

/-- A controller that clears its buffer and its local arrays before each event. -/
def clearedStep (registry : ControllerState) (event : SocketEvent) :
    ControllerState × List ControllerEvent :=
  let after := loopStep ⟨registry, .zero 1024⟩ event.cleared
  (after.1.registry, after.2)

/-- Whatever the command is, its operands are there.  How long they are is left
open: what an operand too long for its array overwrites is looked at in
`Overrun`. -/
structure HasOperands (text : List Char) : Prop where
  call : text.take 4 = "CALL".toList →
    (scanAfter "CALL".toList [none, none] text).length = 2
  car : text.take 4 = "CAR ".toList →
    (scanAfter "CAR".toList [none, none, none] text).length = 3
  status : text.take 4 = "STAT".toList →
    (scanAfter "STATUS".toList [some 7, some 3, some 3] text).length = 3

instance (text : List Char) : Decidable (HasOperands text) :=
  decidable_of_iff (_ ∧ _ ∧ _)
    ⟨fun h => ⟨h.1, h.2.1, h.2.2⟩, fun h => ⟨h.call, h.car, h.status⟩⟩

/-- The frame is complete, fits into the buffer and says all it should. -/
def Conforms : SocketEvent → Prop
  | .readable _ (.frame length body) _ _ =>
      body.length = length ∧ length < 1024 ∧ HasOperands (textOf body)
  | _ => True

instance : (event : SocketEvent) → Decidable (Conforms event)
  | .accepted _ => isTrue trivial
  | .readable _ .again _ _ | .readable _ .hangUp _ _ | .readable _ .failed _ _ =>
      isTrue trivial
  | .readable _ (.frame _ _) _ _ => inferInstanceAs (Decidable (_ ∧ _ ∧ _))

theorem assigned_of_lt {size : Nat} {words : List (List Char)} {i : Nat}
    (hi : i < words.length) (first second : CString size) :
    assigned words i first = assigned words i second := by
  simp [assigned, List.getElem?_eq_getElem hi]

/-- `sscanf` assigns every array, so what was in them does not matter. -/
theorem HasOperands.parseCommand_eq {text : List Char} (htext : HasOperands text)
    (first second : Locals) :
    parseCommand text first = parseCommand text second := by
  obtain ⟨hcall, hcar, hstatus⟩ := htext
  simp only [parseCommand]
  split_ifs with h₁ h₂ h₃
  · have hlength := hcall h₁
    rw [assigned_of_lt (by omega) first.source second.source,
      assigned_of_lt (by omega) first.destination second.destination]
  · have hlength := hcar h₂
    rw [assigned_of_lt (by omega) first.name second.name,
      assigned_of_lt (by omega) first.lowestFloor second.lowestFloor,
      assigned_of_lt (by omega) first.highestFloor second.highestFloor]
  · have hlength := hstatus h₃
    rw [assigned_of_lt (by omega) first.status second.status,
      assigned_of_lt (by omega) first.currentFloor second.currentFloor,
      assigned_of_lt (by omega) first.destinationFloor second.destinationFloor]
  · rfl

section Event

variable {state : LoopState} {registry : ControllerState} {event : SocketEvent}

/-- Of two frames that are read into different buffers the text is the same. -/
theorem text_receive_of_complete (state : LoopState) (socket : Int) {length : Nat}
    {body : List UInt8} (hcomplete : body.length = length) (hfits : length < 1024) :
    (receive state socket length body).buffer.text = textOf body := by
  rw [receive, Block.text_readBody_eq _ hfits, List.take_left' hcomplete]

theorem input_cleared (command : Command) (registry : ControllerState)
    (socket : Int) (stale : Locals) (outcome : CallOutcome) :
    command.input registry socket stale.cleared outcome =
      command.input registry socket stale outcome := by
  cases command <;> rfl

/-- The machine with a past does what the one without does. -/
theorem loopStep_cleared (hregistry : state.registry = registry)
    (hconforms : Conforms event) :
    (loopStep state event).2 = (clearedStep registry event).2 ∧
      (loopStep state event).1.registry = (clearedStep registry event).1 := by
  subst hregistry
  cases event with
  | accepted socket =>
      simp only [clearedStep, SocketEvent.cleared, loopStep]
      split <;> exact ⟨rfl, rfl⟩
  | readable socket arrival stale outcome =>
      simp only [clearedStep, SocketEvent.cleared, loopStep]
      split
      · exact ⟨rfl, rfl⟩
      · cases arrival with
        | again | hangUp | failed => exact ⟨rfl, rfl⟩
        | frame length body =>
            obtain ⟨hcomplete, hfits, hoperands⟩ := hconforms
            simp only [handleFrame, text_receive_of_complete _ socket hcomplete hfits,
              hoperands.parseCommand_eq stale stale.cleared]
            split
            · exact ⟨rfl, rfl⟩
            · simp only [execute, input_cleared]
              exact ⟨rfl, rfl⟩

theorem Conforms.cleared_iff : Conforms event.cleared ↔ Conforms event := by
  cases event with
  | accepted socket => rfl
  | readable socket arrival stale outcome => cases arrival <;> rfl

theorem clearedStep_cleared (registry : ControllerState) (event : SocketEvent) :
    clearedStep registry event.cleared = clearedStep registry event := by
  cases event <;> rfl

end Event

/-- For the machine that clears its memory the cleared events are the same. -/
theorem run_clearedStep (start : ControllerState × List ControllerEvent)
    (events : List SocketEvent) :
    run (logged clearedStep) start (events.map SocketEvent.cleared) =
      run (logged clearedStep) start events := by
  have hlogged (state : ControllerState × List ControllerEvent)
      (event : SocketEvent) :
      logged clearedStep state event.cleared = logged clearedStep state event := by
    simp only [logged, clearedStep_cleared]
  simp only [run, List.foldl_map, hlogged]

/-- Runs of conforming frames are runs of the machine that clears its memory. -/
theorem run_cleared {events : List SocketEvent}
    (hconforms : ∀ event ∈ events, Conforms event) (state : LoopState)
    (log : List ControllerEvent) :
    (run (logged loopStep) (state, log) events).2 =
        (run (logged clearedStep) (state.registry, log) events).2 ∧
      (run (logged loopStep) (state, log) events).1.registry =
        (run (logged clearedStep) (state.registry, log) events).1 := by
  have hstep (state : LoopState) (registry : ControllerState) (event : SocketEvent)
      (hregistry : state.registry = registry) (hevent : Conforms event) :
      (loopStep state event).2 = (clearedStep registry event).2 ∧
        (loopStep state event).1.registry = (clearedStep registry event).1 :=
    loopStep_cleared hregistry hevent
  exact logged_eq_of_simulation hstep rfl hconforms log

/-- Leftovers do not show.  Two controllers with the same records, but with other
bytes in their buffers and other texts in their local arrays, answer the same
traffic alike and end with the same records, if all its frames come in whole and
with all operands of their commands.  The local record that a registration copies
is the same for both: its queue pointer is never set. -/
theorem leftovers_do_not_show {first second : LoopState}
    (hregistry : first.registry = second.registry)
    {events others : List SocketEvent}
    (hsame : events.map SocketEvent.cleared = others.map SocketEvent.cleared)
    (hconforms : ∀ event ∈ events, Conforms event) (log : List ControllerEvent) :
    (run (logged loopStep) (first, log) events).2 =
        (run (logged loopStep) (second, log) others).2 ∧
      (run (logged loopStep) (first, log) events).1.registry =
        (run (logged loopStep) (second, log) others).1.registry := by
  have hothers : ∀ event ∈ others, Conforms event := by
    intro event hevent
    have hmem : event.cleared ∈ events.map SocketEvent.cleared :=
      hsame ▸ List.mem_map_of_mem hevent
    obtain ⟨original, horiginal, hcleared⟩ := List.mem_map.mp hmem
    rw [← Conforms.cleared_iff, ← hcleared, Conforms.cleared_iff]
    exact hconforms original horiginal
  obtain ⟨hlog, hafter⟩ := run_cleared hconforms first log
  obtain ⟨hlog', hafter'⟩ := run_cleared hothers second log
  rw [hlog, hlog', hafter, hafter', hregistry, ← run_clearedStep _ events, hsame,
    run_clearedStep]
  exact ⟨rfl, rfl⟩

def registersAndIsCalled (stale : Locals) : List SocketEvent :=
  [.accepted 4, .accepted 5,
    .readable 4 (.frame 15 (bytesOf "CAR Alpha 1 10 ".toList)) stale
      ⟨true, true, true⟩,
    .readable 5 (.frame 8 (bytesOf "CALL 2 5".toList)) stale ⟨true, true, true⟩]

/-- In a buffer full of an earlier call, and with its floors on the stack. -/
theorem leftovers_do_not_show_alpha :
    let crowded : LoopState :=
      ⟨⟨[], []⟩, (Block.zero 1024).print "CALL 7 9 7 9 7 9 7 9".toList⟩
    let stale : Locals := { blankLocals with
      source := floorToString 7
      destination := floorToString 9 }
    (run (logged loopStep) (startController, []) (registersAndIsCalled blankLocals)).2 =
        (run (logged loopStep) (crowded, []) (registersAndIsCalled stale)).2 ∧
      (run (logged loopStep) (startController, [])
          (registersAndIsCalled blankLocals)).1.registry =
        (run (logged loopStep) (crowded, []) (registersAndIsCalled stale)).1.registry :=
  leftovers_do_not_show rfl rfl (by decide) []

end Elevator
