/-
The controller's records as bytes in memory.  A record is laid out member by
member, its texts are arrays that need not hold a NUL, and `controller_set` and
`controller_get` copy strings into and out of them.
-/
import Elevator.ByteMemory
import Elevator.Registration

namespace Elevator

open ByteMemory Framing CText

/-- A NUL-terminated string that is handed over to a function. -/
structure ByteString where
  bytes : List UInt8
  noNul : (0 : UInt8) ∉ bytes
deriving DecidableEq, Repr

/-- The members of a record that a search or an operation code is about. -/
inductive Member where
  | name
  | highestFloor
  | lowestFloor
  | status
  | previousStatus
  | currentfloor
  | destinationfloor
  | connectionsocket
deriving DecidableEq, Repr

/-- Where a member begins in `connectedcar_t`. -/
def Member.offset : Member → Nat
  | .name => 0
  | .highestFloor => 50
  | .lowestFloor => 54
  | .status => 58
  | .previousStatus => 66
  | .currentfloor => 74
  | .destinationfloor => 78
  | .connectionsocket => 84

def Member.width : Member → Nat
  | .name => 50
  | .status => 8
  | .previousStatus => 8
  | _ => 4

/-- The `sizeof` of `connectedcar_t`, with `available`, `queue_head`,
`current_direction` and `elevator_status` behind the socket. -/
def recordSize : Nat := 112

/-- Where a member of the i-th record stands, from the first record on. -/
def Member.address (member : Member) (i : Nat) : Nat :=
  recordSize * i + member.offset

/-- An `int`, lowest byte first. -/
def intBytes (n : Int) : List UInt8 :=
  (bigEndian (n % 4294967296).toNat).reverse

def readInt (memory : Memory) (address : Nat) : Int :=
  Int.bmod (fromBigEndian
    [memory (address + 3), memory (address + 2), memory (address + 1),
      memory address]) 4294967296

/-- `controller_t`, with the bytes that `data` points to. -/
structure ControllerBytes where
  memory : Memory
  size : Nat

/-- A case of `controller_set` that copies a text: where it is copied to, and
where the NUL is put. -/
def setText (memory : Memory) (i : Nat) (copied terminated : Member)
    (newValue : ByteString) : Memory :=
  Function.update
    (strncpy memory (copied.address i) newValue.bytes (copied.width - 1))
    (terminated.address i + (copied.width - 1)) 0

/-- The `switch` of `controller_set`.  Code 7 writes `previous_status` and puts
the NUL into `status`. -/
def setMember (memory : Memory) (i : Nat) (opCode : Nat)
    (newValue : ByteString) : Memory :=
  match opCode with
  | 1 => setText memory i .highestFloor .highestFloor newValue
  | 2 => setText memory i .lowestFloor .lowestFloor newValue
  | 3 => setText memory i .status .status newValue
  | 7 => setText memory i .previousStatus .status newValue
  | 4 => setText memory i .currentfloor .currentfloor newValue
  | 5 => setText memory i .destinationfloor .destinationfloor newValue
  | 6 =>
      write memory (Member.connectionsocket.address i)
        (intBytes (atoi (textOf newValue.bytes)))
  | _ => memory

/-- A case of `controller_get` that copies a text into the buffer. -/
def getText (memory : Memory) (i : Nat) (member : Member) (buffer : Memory)
    (bufferSize : Nat) : Memory :=
  Function.update
    (strncpy buffer 0 (readString memory (bufferSize - 1) (member.address i))
      (bufferSize - 1))
    (bufferSize - 1) 0

/-- The `switch` of `controller_get`.  The buffer is no part of the records and
has room for one byte at least. -/
def getMember (memory : Memory) (i : Nat) (opCode : Nat) (buffer : Memory)
    (bufferSize : Nat) : Memory :=
  match opCode with
  | 1 => getText memory i .highestFloor buffer bufferSize
  | 2 => getText memory i .lowestFloor buffer bufferSize
  | 3 => getText memory i .status buffer bufferSize
  | 4 => getText memory i .currentfloor buffer bufferSize
  | 5 => getText memory i .destinationfloor buffer bufferSize
  | 6 =>
      let printed := printInt (readInt memory (Member.connectionsocket.address i))
      write buffer 0 (bytesOf (printed.take (bufferSize - 1)) ++ [0])
  | _ => buffer

namespace ControllerBytes

/-- The search for a name.  Where a name has no NUL, `strcmp` reads on behind
the member. -/
def find (controller : ControllerBytes) (name : ByteString) : Option Nat :=
  (List.range controller.size).find? fun i =>
    strcmp controller.memory (Member.name.address i) name.bytes

def set (controller : ControllerBytes) (name : ByteString) (opCode : Nat)
    (newValue : ByteString) : ControllerBytes :=
  match controller.find name with
  | some i =>
      { controller with memory := setMember controller.memory i opCode newValue }
  | none => controller

/-- `controller_get`, with what it leaves in the buffer. -/
def get (controller : ControllerBytes) (name : ByteString) (opCode : Nat)
    (buffer : Memory) (bufferSize : Nat) : Memory :=
  match controller.find name with
  | some i => getMember controller.memory i opCode buffer bufferSize
  | none => buffer

def Named (controller : ControllerBytes) (name : ByteString) (i : Nat) : Prop :=
  name.bytes.length < Member.name.width ∧
    StringAt controller.memory (Member.name.address i) name.bytes

structure FirstNamed (controller : ControllerBytes) (name : ByteString)
    (i : Nat) : Prop where
  inUse : i < controller.size
  named : controller.Named name i
  first : ∀ j < i, ¬ controller.Named name j

end ControllerBytes

/-- The field that an operation code designates. -/
def designated : Nat → Option Member
  | 1 => some .highestFloor
  | 2 => some .lowestFloor
  | 3 => some .status
  | 4 => some .currentfloor
  | 5 => some .destinationfloor
  | 6 => some .connectionsocket
  | 7 => some .previousStatus
  | _ => none

/-- The value, cut to the width of the field and its NUL. -/
def copyFor (member : Member) (newValue : ByteString) : List UInt8 :=
  newValue.bytes.take (member.width - 1)

open ControllerBytes in
/-- What a field update should do.  Only the designated field of the first
record with the name changes; there a text becomes a terminated copy of the
value, and the socket the number that the value begins with; and
`controller_get`, which supports all codes but 7, returns the copy. -/
structure SetsField (controller : ControllerBytes) (name : ByteString)
    (opCode : Nat) (newValue : ByteString) : Prop where
  frame : ∀ k, (controller.set name opCode newValue).memory k ≠
      controller.memory k →
    ∃ i member, controller.FirstNamed name i ∧
      designated opCode = some member ∧
      member.address i ≤ k ∧ k < member.address i + member.width
  copies : ∀ i member, controller.FirstNamed name i →
    designated opCode = some member → member ≠ .connectionsocket →
    StringAt (controller.set name opCode newValue).memory (member.address i)
      (copyFor member newValue)
  socket : ∀ i, controller.FirstNamed name i → opCode = 6 →
    ∀ k < 4, (controller.set name opCode newValue).memory
        (Member.connectionsocket.address i + k) =
      (intBytes (atoi (textOf newValue.bytes))).getD k 0
  returns : ∀ i member, controller.FirstNamed name i →
    designated opCode = some member → member ≠ .connectionsocket →
    opCode ≠ 7 → ∀ buffer bufferSize,
      (copyFor member newValue).length < bufferSize →
      StringAt ((controller.set name opCode newValue).get name opCode buffer
        bufferSize) 0 (copyFor member newValue)

/-- The member into which the NUL behind a copied text goes. -/
def terminatedFor (member : Member) : Member :=
  if member = .previousStatus then .status else member

/-- What is written behind an operation code stands there already. -/
structure StandsThere (memory : Memory) (i opCode : Nat)
    (newValue : ByteString) : Prop where
  text : ∀ member, designated opCode = some member → member ≠ .connectionsocket →
    (∀ k < member.width - 1,
      memory (member.address i + k) = newValue.bytes.getD k 0) ∧
    memory ((terminatedFor member).address i + (member.width - 1)) = 0
  socket : opCode = 6 → ∀ k < 4,
    memory (Member.connectionsocket.address i + k) =
      (intBytes (atoi (textOf newValue.bytes))).getD k 0

/-- The condition on the record that is found.  Under a name that fits, code 7
needs a `status` whose last byte is NUL, and a value shorter than seven bytes
or a `previous_status` whose last byte is NUL.  A name that does not fit is
found by reading on, and no record has it. -/
def KeepsToField (controller : ControllerBytes) (name : ByteString)
    (opCode : Nat) (newValue : ByteString) : Prop :=
  ∀ i, controller.find name = some i →
    if name.bytes.length < Member.name.width then
      opCode = 7 →
        controller.memory (Member.status.address i + 7) = 0 ∧
          (newValue.bytes.length < 7 ∨
            controller.memory (Member.previousStatus.address i + 7) = 0)
    else StandsThere controller.memory i opCode newValue

section OneRecord

variable {memory : Memory} {i opCode : Nat} {member : Member}
  {newValue : ByteString}

theorem designated_ne_name (hmember : designated opCode = some member) :
    member ≠ .name := by
  rintro rfl
  unfold designated at hmember
  split at hmember <;> cases hmember

theorem designated_eq_socket :
    designated opCode = some .connectionsocket ↔ opCode = 6 := by
  unfold designated
  split <;> simp_all

theorem designated_eq_previousStatus :
    designated opCode = some .previousStatus ↔ opCode = 7 := by
  unfold designated
  split <;> simp_all

theorem setMember_text (hmember : designated opCode = some member)
    (htext : member ≠ .connectionsocket) :
    setMember memory i opCode newValue =
      setText memory i member (terminatedFor member) newValue := by
  unfold designated at hmember
  split at hmember <;> cases hmember <;> first | rfl | exact absurd rfl htext

theorem setMember_none (hmember : designated opCode = none) :
    setMember memory i opCode newValue = memory := by
  unfold designated at hmember
  split at hmember <;> try cases hmember
  unfold setMember
  split <;> first | contradiction | rfl

theorem getMember_text (hmember : designated opCode = some member)
    (htext : member ≠ .connectionsocket) (hseven : opCode ≠ 7) (buffer : Memory)
    (bufferSize : Nat) :
    getMember memory i opCode buffer bufferSize =
      getText memory i member buffer bufferSize := by
  unfold designated at hmember
  split at hmember <;> cases hmember <;>
    first | rfl | exact absurd rfl htext | exact absurd rfl hseven

/-- The three things that copying a text does to the bytes. -/
theorem setText_copied {k : Nat} (hk : k < member.width - 1) :
    setText memory i member (terminatedFor member) newValue
      (member.address i + k) = newValue.bytes.getD k 0 := by
  have hne : member.address i + k ≠
      (terminatedFor member).address i + (member.width - 1) := by
    cases member <;> simp [terminatedFor, Member.address, Member.offset,
      Member.width] at hk ⊢ <;> omega
  rw [setText, Function.update_of_ne hne, strncpy_inside hk]

theorem setText_end :
    setText memory i member (terminatedFor member) newValue
      ((terminatedFor member).address i + (member.width - 1)) = 0 :=
  Function.update_self _ _ _

theorem setText_outside {k : Nat}
    (hk : ¬ (member.address i ≤ k ∧ k < member.address i + (member.width - 1)))
    (hend : k ≠ (terminatedFor member).address i + (member.width - 1)) :
    setText memory i member (terminatedFor member) newValue k = memory k := by
  rw [setText, Function.update_of_ne hend, strncpy_outside hk]

theorem setMember_socket {k : Nat} (hk : k < 4) :
    setMember memory i 6 newValue (Member.connectionsocket.address i + k) =
      (intBytes (atoi (textOf newValue.bytes))).getD k 0 :=
  write_inside hk

theorem setMember_socket_outside {k : Nat}
    (hk : ¬ (Member.connectionsocket.address i ≤ k ∧
      k < Member.connectionsocket.address i + 4)) :
    setMember memory i 6 newValue k = memory k :=
  write_outside hk

/-- The assignment changes nothing if and only if what it writes is there. -/
theorem setMember_eq_self_iff :
    (∀ k, setMember memory i opCode newValue k = memory k) ↔
      StandsThere memory i opCode newValue := by
  constructor
  · intro hsame
    refine ⟨fun member hmember htext => ?_, ?_⟩
    · rw [setMember_text hmember htext] at hsame
      refine ⟨fun k hk => ?_, ?_⟩
      · rw [← hsame, setText_copied hk]
      · rw [← hsame, setText_end]
    · rintro rfl k hk
      rw [← hsame, setMember_socket hk]
  · intro hthere k
    cases hmember : designated opCode with
    | none => rw [setMember_none hmember]
    | some member =>
        by_cases htext : member = .connectionsocket
        · subst htext
          obtain rfl := designated_eq_socket.mp hmember
          by_cases hk : Member.connectionsocket.address i ≤ k ∧
              k < Member.connectionsocket.address i + 4
          · obtain ⟨d, rfl⟩ := Nat.exists_eq_add_of_le hk.1
            have hd : d < 4 := Nat.lt_of_add_lt_add_left hk.2
            rw [setMember_socket hd, hthere.socket rfl d hd]
          · exact setMember_socket_outside hk
        · obtain ⟨hcopied, hend⟩ := hthere.text member hmember htext
          rw [setMember_text hmember htext]
          by_cases hk : k = (terminatedFor member).address i + (member.width - 1)
          · rw [hk, setText_end, hend]
          · by_cases hcopy : member.address i ≤ k ∧
                k < member.address i + (member.width - 1)
            · obtain ⟨d, rfl⟩ := Nat.exists_eq_add_of_le hcopy.1
              have hd : d < member.width - 1 := Nat.lt_of_add_lt_add_left hcopy.2
              rw [setText_copied hd, hcopied d hd]
            · exact setText_outside hcopy hk

theorem Member.within (member : Member) :
    member.offset + member.width ≤ recordSize := by
  cases member <;> decide

theorem Member.width_pos (member : Member) : 0 < member.width := by
  cases member <;> decide

theorem Member.behind_name (hname : member ≠ .name) :
    Member.name.width ≤ member.offset := by
  cases member <;> first | decide | exact absurd rfl hname

/-- The NUL goes behind the name and stays in the record, whichever member it
goes into. -/
theorem Member.terminated_within (hname : member ≠ .name) :
    Member.name.width ≤ (terminatedFor member).offset + (member.width - 1) ∧
      (terminatedFor member).offset + (member.width - 1) < recordSize := by
  cases member <;> first | decide | exact absurd rfl hname

/-- The assignment stays in its record, behind the name. -/
theorem setMember_outside {k : Nat}
    (hk : k < recordSize * i + Member.name.width ∨ recordSize * (i + 1) ≤ k) :
    setMember memory i opCode newValue k = memory k := by
  cases hmember : designated opCode with
  | none => rw [setMember_none hmember]
  | some member =>
      have hname := designated_ne_name hmember
      have hbehind := Member.behind_name hname
      have hwithin := member.within
      by_cases htext : member = .connectionsocket
      · subst htext
        obtain rfl := designated_eq_socket.mp hmember
        refine setMember_socket_outside fun h => ?_
        simp only [Member.address, Member.width, recordSize] at *
        omega
      · rw [setMember_text hmember htext]
        have hend := Member.terminated_within hname
        have hwidth := member.width_pos
        refine setText_outside (fun h => ?_) fun h => ?_
        · simp only [Member.address, Member.width, recordSize] at *
          omega
        · simp only [Member.address, Member.width, recordSize] at *
          omega

/-- Whatever the assignment changes lies in the designated member, where the
NUL of code 7 changes nothing. -/
theorem setMember_frame
    (hstatus : opCode = 7 → memory (Member.status.address i + 7) = 0) {k : Nat}
    (hchanged : setMember memory i opCode newValue k ≠ memory k) :
    ∃ member, designated opCode = some member ∧
      member.address i ≤ k ∧ k < member.address i + member.width := by
  cases hmember : designated opCode with
  | none => exact absurd (by rw [setMember_none hmember]) hchanged
  | some member =>
      refine ⟨member, rfl, ?_⟩
      by_contra houtside
      refine hchanged ?_
      by_cases htext : member = .connectionsocket
      · subst htext
        obtain rfl := designated_eq_socket.mp hmember
        exact setMember_socket_outside houtside
      · rw [setMember_text hmember htext]
        have hcopy : ¬ (member.address i ≤ k ∧
            k < member.address i + (member.width - 1)) := by omega
        by_cases hprevious : member = .previousStatus
        · subst hprevious
          -- the NUL goes into another member, where it finds one already
          by_cases hk : k = Member.status.address i + 7
          · rw [hk, hstatus (designated_eq_previousStatus.mp hmember)]
            exact setText_end
          · exact setText_outside hcopy hk
        · refine setText_outside hcopy ?_
          rw [terminatedFor, if_neg hprevious]
          have hwidth := member.width_pos
          omega

/-- A text is left terminated, but under code 7 it depends on the last byte. -/
theorem stringAt_setMember (hmember : designated opCode = some member)
    (htext : member ≠ .connectionsocket) :
    StringAt (setMember memory i opCode newValue) (member.address i)
        (copyFor member newValue) ↔
      (opCode = 7 → newValue.bytes.length < 7 ∨
        memory (Member.previousStatus.address i + 7) = 0) := by
  rw [setMember_text hmember htext, copyFor, stringAt_take_iff fun k hk =>
    setText_copied hk]
  by_cases hprevious : member = .previousStatus
  · subst hprevious
    -- nothing is written to the last byte of `previous_status`
    have hlast : setText memory i .previousStatus
        (terminatedFor .previousStatus) newValue
          (Member.previousStatus.address i + 7) =
        memory (Member.previousStatus.address i + 7) := by
      refine setText_outside (fun h => ?_) ?_
      · exact absurd h.2 (Nat.lt_irrefl _)
      · simp only [terminatedFor, if_true, Member.address, Member.offset,
          Member.width]
        omega
    have hseven := designated_eq_previousStatus.mp hmember
    simp only [hseven, forall_const]
    exact or_congr Iff.rfl (by rw [← hlast]; rfl)
  · have hterminated : terminatedFor member = member := if_neg hprevious
    have hend := @setText_end memory i member newValue
    rw [hterminated] at hend ⊢
    refine iff_of_true (Or.inr hend) fun hseven => ?_
    rw [designated_eq_previousStatus.mpr hseven, Option.some.injEq] at hmember
    exact absurd hmember.symm hprevious

/-- A terminated text is what comes back, if the buffer is large enough. -/
theorem stringAt_getText {text : List UInt8} {buffer : Memory} {bufferSize : Nat}
    (hstring : StringAt memory (member.address i) text)
    (hnul : (0 : UInt8) ∉ text) (hroom : text.length < bufferSize) :
    StringAt (getText memory i member buffer bufferSize) 0 text := by
  have hcount : text.length ≤ bufferSize - 1 := by omega
  have hcopied : ∀ k < bufferSize - 1,
      getText memory i member buffer bufferSize (0 + k) = text.getD k 0 := by
    intro k hk
    rw [getText, readString_of_stringAt hnul hstring hcount,
      Function.update_of_ne (by omega), strncpy_inside hk]
  have hend : getText memory i member buffer bufferSize (0 + (bufferSize - 1)) =
      0 := by
    rw [getText, Nat.zero_add, Function.update_self]
  have hcopy := (stringAt_take_iff hcopied).mpr (Or.inr hend)
  rwa [List.take_of_length_le hcount] at hcopy

end OneRecord

namespace ControllerBytes

variable {controller : ControllerBytes} {name newValue : ByteString}
  {opCode i : Nat}

/-- Under a name that fits, the search finds what it should. -/
theorem find_eq_some_iff (hfits : name.bytes.length < Member.name.width) :
    controller.find name = some i ↔ controller.FirstNamed name i := by
  have hmatch : ∀ j, strcmp controller.memory (Member.name.address j) name.bytes =
      true ↔ controller.Named name j := by
    intro j
    rw [strcmp_iff, Named, and_iff_right hfits]
  rw [find, List.find?_range_eq_some, hmatch, List.mem_range]
  constructor
  · rintro ⟨hnamed, hsize, hfirst⟩
    refine ⟨hsize, hnamed, fun j hj hother => ?_⟩
    have hno := hfirst j hj
    rw [(hmatch j).mpr hother] at hno
    exact absurd hno (by decide)
  · rintro ⟨hsize, hnamed, hfirst⟩
    refine ⟨hnamed, hsize, fun j hj => ?_⟩
    rw [Bool.not_eq_true', Bool.eq_false_iff]
    exact fun hother => hfirst j hj ((hmatch j).mp hother)

theorem memory_set (hfind : controller.find name = some i) :
    (controller.set name opCode newValue).memory =
      setMember controller.memory i opCode newValue := by
  rw [set, hfind]

theorem set_eq_self (hfind : controller.find name = none) :
    controller.set name opCode newValue = controller := by
  rw [set, hfind]

@[simp] theorem size_set :
    (controller.set name opCode newValue).size = controller.size := by
  unfold set
  split <;> rfl

theorem named_set {other : ByteString} {j : Nat} :
    (controller.set name opCode newValue).Named other j ↔
      controller.Named other j := by
  refine and_congr_right fun hfits => StringAt.congr fun k hk => ?_
  cases hfind : controller.find name with
  | none => rw [set_eq_self hfind]
  | some i =>
      rw [memory_set hfind]
      refine setMember_outside ?_
      simp only [Member.address, Member.offset, Member.width, recordSize] at *
      omega

theorem firstNamed_set {other : ByteString} {j : Nat} :
    (controller.set name opCode newValue).FirstNamed other j ↔
      controller.FirstNamed other j := by
  constructor
  · rintro ⟨hsize, hnamed, hfirst⟩
    exact ⟨size_set ▸ hsize, named_set.mp hnamed,
      fun k hk hother => hfirst k hk (named_set.mpr hother)⟩
  · rintro ⟨hsize, hnamed, hfirst⟩
    exact ⟨size_set.symm ▸ hsize, named_set.mpr hnamed,
      fun k hk hother => hfirst k hk (named_set.mp hother)⟩

/-- Where the search finds nothing, nothing is set, and nothing has to be. -/
theorem setsField_of_find_eq_none (hfits : name.bytes.length < Member.name.width)
    (hfind : controller.find name = none) :
    SetsField controller name opCode newValue := by
  have hnone : ∀ j, ¬ controller.FirstNamed name j := by
    intro j hfirst
    rw [(find_eq_some_iff hfits).mpr hfirst] at hfind
    cases hfind
  refine ⟨fun k hchanged => ?_, fun j _ hfirst => absurd hfirst (hnone j),
    fun j hfirst => absurd hfirst (hnone j),
    fun j _ hfirst => absurd hfirst (hnone j)⟩
  rw [set_eq_self hfind] at hchanged
  exact absurd rfl hchanged

/-- A name that does not fit is no record's, so that nothing may change. -/
theorem setsField_iff_of_long (hlong : ¬ name.bytes.length < Member.name.width) :
    SetsField controller name opCode newValue ↔
      ∀ k, (controller.set name opCode newValue).memory k =
        controller.memory k := by
  have hnone : ∀ j, ¬ controller.FirstNamed name j :=
    fun j hfirst => hlong hfirst.named.1
  constructor
  · intro hsets k
    by_contra hchanged
    obtain ⟨j, _, hfirst, _⟩ := hsets.frame k hchanged
    exact hnone j hfirst
  · intro hsame
    exact ⟨fun k hchanged => absurd (hsame k) hchanged,
      fun j _ hfirst => absurd hfirst (hnone j),
      fun j hfirst => absurd hfirst (hnone j),
      fun j _ hfirst => absurd hfirst (hnone j)⟩

theorem FirstNamed.unique {j : Nat} (hfits : name.bytes.length < Member.name.width)
    (hfind : controller.find name = some i) (hother : controller.FirstNamed name j) :
    j = i := by
  have hagain := (find_eq_some_iff hfits).mpr hother
  rw [hfind, Option.some.injEq] at hagain
  exact hagain.symm

theorem setsField_of_find (hfits : name.bytes.length < Member.name.width)
    (hfind : controller.find name = some i)
    (hstatus : opCode = 7 →
      controller.memory (Member.status.address i + 7) = 0)
    (hprevious : opCode = 7 → newValue.bytes.length < 7 ∨
      controller.memory (Member.previousStatus.address i + 7) = 0) :
    SetsField controller name opCode newValue := by
  have hfirst := (find_eq_some_iff hfits).mp hfind
  refine ⟨fun k hchanged => ?_, fun j member hother hmember htext => ?_,
    fun j hother hsix k hk => ?_,
    fun j member hother hmember htext hne buffer bufferSize hroom => ?_⟩
  · rw [memory_set hfind] at hchanged
    obtain ⟨member, hmember, hk⟩ := setMember_frame hstatus hchanged
    exact ⟨i, member, hfirst, hmember, hk⟩
  · obtain rfl := hother.unique hfits hfind
    rw [memory_set hfind]
    exact (stringAt_setMember hmember htext).mpr hprevious
  · obtain rfl := hother.unique hfits hfind
    rw [memory_set hfind, hsix]
    exact setMember_socket hk
  · obtain rfl := hother.unique hfits hfind
    have hagain : (controller.set name opCode newValue).find name = some j :=
      (find_eq_some_iff hfits).mpr (firstNamed_set.mpr hother)
    rw [get, hagain]
    simp only [getMember_text hmember htext hne]
    apply stringAt_getText _ _ hroom
    · rw [memory_set hfind]
      exact (stringAt_setMember hmember htext).mpr hprevious
    · exact fun hmem => newValue.noNul (List.mem_of_mem_take hmem)

theorem setsField_iff_of_find (hfits : name.bytes.length < Member.name.width)
    (hfind : controller.find name = some i) :
    SetsField controller name opCode newValue ↔
      (opCode = 7 →
        controller.memory (Member.status.address i + 7) = 0 ∧
          (newValue.bytes.length < 7 ∨
            controller.memory (Member.previousStatus.address i + 7) = 0)) := by
  have hfirst := (find_eq_some_iff hfits).mp hfind
  constructor
  · rintro hsets rfl
    constructor
    · by_contra hstatus
      have hend : (controller.set name 7 newValue).memory
          (Member.status.address i + 7) = 0 := by
        rw [memory_set hfind]
        exact @setText_end _ _ .previousStatus _
      obtain ⟨j, member, hother, hmember, hlow, -⟩ := hsets.frame
        (Member.status.address i + 7) fun hsame => hstatus (hsame ▸ hend)
      obtain rfl := hother.unique hfits hfind
      obtain rfl : Member.previousStatus = member := Option.some.inj hmember
      simp only [Member.address, Member.offset] at hlow
      omega
    · have hcopy := hsets.copies i .previousStatus hfirst rfl (by decide)
      rw [memory_set hfind] at hcopy
      exact (stringAt_setMember rfl (by decide)).mp hcopy rfl
  · intro hseven
    exact setsField_of_find hfits hfind (fun h => (hseven h).1) fun h => (hseven h).2

end ControllerBytes

/-- `controller_set` is a lawful update of the designated field exactly under
that condition on the record it finds. -/
theorem setsField_iff_keepsToField (controller : ControllerBytes)
    (name : ByteString) (opCode : Nat) (newValue : ByteString) :
    SetsField controller name opCode newValue ↔
      KeepsToField controller name opCode newValue := by
  by_cases hfits : name.bytes.length < Member.name.width
  · cases hfind : controller.find name with
    | none =>
        refine iff_of_true (controller.setsField_of_find_eq_none hfits hfind) ?_
        intro i hsome
        rw [hfind] at hsome
        cases hsome
    | some i =>
        rw [ControllerBytes.setsField_iff_of_find hfits hfind, KeepsToField]
        simp only [hfind, Option.some.injEq, forall_eq', if_pos hfits]
  · rw [ControllerBytes.setsField_iff_of_long hfits, KeepsToField]
    cases hfind : controller.find name with
    | none =>
        rw [ControllerBytes.set_eq_self hfind]
        simp
    | some i =>
        simp only [ControllerBytes.memory_set hfind, setMember_eq_self_iff,
          Option.some.injEq, forall_eq', if_neg hfits]

/-- One record, called Car1, whose other members have not been set. -/
def unsetRecord : ControllerBytes where
  memory := write (fun _ => 120) 0 [67, 97, 114, 49, 0]
  size := 1

def car1 : ByteString := ⟨[67, 97, 114, 49], by decide⟩

def between : ByteString := ⟨[66, 101, 116, 119, 101, 101, 110], by decide⟩

/-- Code 7 clears the last byte of `status` and leaves `previous_status` without
a NUL. -/
theorem previous_status_left_open :
    (List.range' 65 9).map (unsetRecord.set car1 7 between).memory =
        [0, 66, 101, 116, 119, 101, 101, 110, 120] ∧
      unsetRecord.memory 65 = 120 ∧
      ¬ ∀ (controller : ControllerBytes) (name : ByteString) (opCode : Nat)
          (newValue : ByteString),
        1 ≤ opCode → opCode ≤ 7 → SetsField controller name opCode newValue := by
  refine ⟨by decide, by decide, fun hall => ?_⟩
  have hfirst : unsetRecord.FirstNamed car1 0 :=
    (ControllerBytes.find_eq_some_iff (by decide)).mp (by decide)
  have hcopy := (hall unsetRecord car1 7 between (by decide) (by decide)).copies
    0 .previousStatus hfirst rfl (by decide)
  exact absurd hcopy (by decide)

end Elevator
