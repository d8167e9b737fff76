/-
Where the programs write while they receive and parse one frame.  The length in
front of a frame is the peer's, and so are the words that `sscanf` stores; the
arrays are as long as the protocol's own messages need.
-/
import Elevator.ControllerLoop

namespace Elevator

open CText Framing

/-- The arrays that a frame is written to: those of the controller's handler,
the members of its local record, and those of the car. -/
inductive CharArray where
  | buffer
  | command
  | source
  | destination
  | name
  | lowestFloor
  | highestFloor
  | status
  | currentFloor
  | destinationFloor
  | carName
  | carLowestFloor
  | carHighestFloor
  | carPreviousStatus
  | carBuffer
  | carDestinationFloor
deriving DecidableEq, Repr

def CharArray.size : CharArray → Nat
  | .buffer | .carBuffer => 1024
  | .command => 5
  | .source | .destination => 4
  | .name | .carName => 50
  | .lowestFloor | .highestFloor | .currentFloor | .destinationFloor => 4
  | .status | .carPreviousStatus => 8
  | .carLowestFloor | .carHighestFloor | .carDestinationFloor => 4

/-- So many characters are written from an index on. -/
structure ArrayWrite where
  array : CharArray
  first : Nat
  count : Nat
deriving DecidableEq, Repr

def ArrayWrite.InBounds (write : ArrayWrite) : Prop :=
  write.first + write.count ≤ write.array.size

instance (write : ArrayWrite) : Decidable write.InBounds :=
  inferInstanceAs (Decidable (_ ≤ _))

def AllInBounds (writes : List ArrayWrite) : Prop :=
  ∀ write ∈ writes, write.InBounds

instance (writes : List ArrayWrite) : Decidable (AllInBounds writes) :=
  List.decidableBAll _ writes

/-- The words that `sscanf` stores, each with its NUL. -/
def operandWrites (arrays : List CharArray) (words : List (List Char)) :
    List ArrayWrite :=
  List.zipWith (fun array word => ⟨array, 0, word.length + 1⟩) arrays words

/-- How the local record of a registration is filled in: `strncpy` writes its
whole count, and the terminators follow. -/
def recordWrites : List ArrayWrite :=
  [⟨.carName, 0, 50 - 1⟩, ⟨.carLowestFloor, 0, 4 - 1⟩,
    ⟨.carHighestFloor, 0, 4 - 1⟩, ⟨.carPreviousStatus, 0, 8 - 1⟩,
    ⟨.carPreviousStatus, 8 - 1, 1⟩, ⟨.carName, 50 - 1, 1⟩,
    ⟨.carLowestFloor, 4 - 1, 1⟩, ⟨.carHighestFloor, 4 - 1, 1⟩]

/-- The controller parses the text in its buffer.  It scans a report only from a
socket whose car is known. -/
def parseWrites (known : Bool) (text : List Char) : List ArrayWrite :=
  let command := text.take 4
  [⟨.command, 0, 4⟩, ⟨.command, 4, 1⟩] ++
    if command = "CALL".toList then
      operandWrites [.source, .destination]
        (scanAfter "CALL".toList [none, none] text)
    else if command = "CAR ".toList then
      operandWrites [.name, .lowestFloor, .highestFloor]
        (scanAfter "CAR".toList [none, none, none] text) ++ recordWrites
    else if command = "STAT".toList ∧ known then
      operandWrites [.status, .currentFloor, .destinationFloor]
        (scanAfter "STATUS".toList [some 7, some 3, some 3] text)
    else []

/-- Where the controller receives a frame: the body as far as it comes, and the
NUL behind the announced length, also where nothing has come. -/
def receiveWrites (length : Nat) (body : List UInt8) : List ArrayWrite :=
  [⟨.buffer, 0, (body.take length).length⟩, ⟨.buffer, length, 1⟩]

/-- The controller receives a frame and parses what its buffer then holds. -/
def controllerWrites (buffer : Block 1024) (known : Bool) (length : UInt32)
    (body : List UInt8) : List ArrayWrite :=
  receiveWrites length.toNat body ++
    parseWrites known (buffer.readBody length.toNat body).text

/-- The car receives a frame: it closes the connection on a length that is zero
or exceeds the buffer's size, and where nothing has come. -/
def carWrites (buffer : Block 1024) (readFlag : Bool) (length : UInt32)
    (body : List UInt8) : List ArrayWrite :=
  if length.toNat = 0 ∨ 1024 < length.toNat then []
  else
    ⟨.carBuffer, 0, (body.take length.toNat).length⟩ ::
      if body.take length.toNat = [] then []
      else
        ⟨.carBuffer, length.toNat, 1⟩ ::
          if readFlag then
            operandWrites [.carDestinationFloor]
              (scanAfter "FLOOR".toList [none]
                (buffer.readBody length.toNat body).text)
          else []

/-- The text of a frame: the bytes that have come, with what the buffer held
behind them, up to the announced length. -/
def frameText (buffer : Block 1024) (length : Nat) (body : List UInt8) :
    List Char :=
  textOf ((body ++ buffer.bytes.drop body.length).take length)

/-- The frames for which the controller's arrays are long enough. -/
structure CommandFits (buffer : Block 1024) (length : Nat) (body : List UInt8) :
    Prop where
  bodyFits : length < 1024
  call : ∀ operands, frameText buffer length body = "CALL".toList ++ operands →
    ∀ word ∈ (wordsOf operands).take 2, word.length ≤ 3
  car : ∀ operands, frameText buffer length body = "CAR ".toList ++ operands →
    (∀ word ∈ (wordsOf operands).head?, word.length ≤ 49) ∧
      ∀ word ∈ ((wordsOf operands).drop 1).take 2, word.length ≤ 3

/-- The frames for which the car's are. -/
structure OrderFits (buffer : Block 1024) (readFlag : Bool) (length : Nat)
    (body : List UInt8) : Prop where
  bodyFits : length = 1024 → body = []
  floor : length < 1024 → body ≠ [] → readFlag = true →
    ∀ operands, frameText buffer length body = "FLOOR".toList ++ operands →
      ∀ word ∈ (wordsOf operands).head?, word.length ≤ 3

theorem allInBounds_append (first second : List ArrayWrite) :
    AllInBounds (first ++ second) ↔ AllInBounds first ∧ AllInBounds second :=
  List.forall_mem_append

theorem allInBounds_cons (write : ArrayWrite) (rest : List ArrayWrite) :
    AllInBounds (write :: rest) ↔ write.InBounds ∧ AllInBounds rest :=
  List.forall_mem_cons

theorem allInBounds_nil : AllInBounds [] := by
  intro write hwrite
  cases hwrite

/-- One operand more is one write more, from the start of its array. -/
theorem allInBounds_operandWrites_cons (array : CharArray) (word : List Char)
    (arrays : List CharArray) (words : List (List Char)) :
    AllInBounds (operandWrites (array :: arrays) (word :: words)) ↔
      word.length < array.size ∧ AllInBounds (operandWrites arrays words) := by
  rw [operandWrites, List.zipWith_cons_cons, allInBounds_cons, operandWrites]
  refine and_congr_left fun _ => ?_
  rw [ArrayWrite.InBounds, Nat.zero_add]
  exact Nat.succ_le_iff

theorem allInBounds_operandWrites_nil (arrays : List CharArray) :
    AllInBounds (operandWrites arrays []) := by
  rw [operandWrites, List.zipWith_nil_right]
  exact allInBounds_nil

theorem scanAfter_eq_take {literal : List Char} (n : Nat)
    (operands : List Char) :
    scanAfter literal (List.replicate n none) (literal ++ operands) =
      (wordsOf operands).take n := by
  rw [scanAfter_literal, scanWords_eq_take]

theorem call_operands_iff (operands : List Char) :
    AllInBounds (operandWrites [.source, .destination]
        (scanAfter "CALL".toList [none, none] ("CALL".toList ++ operands))) ↔
      ∀ word ∈ (wordsOf operands).take 2, word.length ≤ 3 := by
  have hscan := @scanAfter_eq_take "CALL".toList 2 operands
  rw [show [none, none] = List.replicate 2 (none : Option Nat) from rfl, hscan]
  rcases wordsOf operands with _ | ⟨first, _ | ⟨second, rest⟩⟩ <;>
    simp [allInBounds_operandWrites_cons, allInBounds_operandWrites_nil,
      CharArray.size] <;> omega

theorem car_operands_iff (operands : List Char) :
    AllInBounds (operandWrites [.name, .lowestFloor, .highestFloor]
        (scanAfter "CAR".toList [none, none, none] ("CAR ".toList ++ operands))) ↔
      (∀ word ∈ (wordsOf operands).head?, word.length ≤ 49) ∧
        ∀ word ∈ ((wordsOf operands).drop 1).take 2, word.length ≤ 3 := by
  have hscan := @scanAfter_eq_take "CAR".toList 3 (' ' :: operands)
  rw [wordsOf_cons_space rfl] at hscan
  rw [show "CAR ".toList ++ operands = "CAR".toList ++ ' ' :: operands from rfl,
    show [none, none, none] = List.replicate 3 (none : Option Nat) from rfl, hscan]
  rcases wordsOf operands with _ | ⟨first, _ | ⟨second, _ | ⟨third, rest⟩⟩⟩ <;>
    simp [allInBounds_operandWrites_cons, allInBounds_operandWrites_nil,
      CharArray.size] <;> omega

theorem floor_operand_iff (text : List Char) :
    AllInBounds (operandWrites [.carDestinationFloor]
        (scanAfter "FLOOR".toList [none] text)) ↔
      ∀ operands, text = "FLOOR".toList ++ operands →
        ∀ word ∈ (wordsOf operands).head?, word.length ≤ 3 := by
  have hone : [none] = List.replicate 1 (none : Option Nat) := rfl
  by_cases hfloor : "FLOOR".toList.isPrefixOf text
  · obtain ⟨operands, rfl⟩ := List.isPrefixOf_iff_prefix.mp hfloor
    have hiff : AllInBounds (operandWrites [.carDestinationFloor]
          (scanAfter "FLOOR".toList [none] ("FLOOR".toList ++ operands))) ↔
        ∀ word ∈ (wordsOf operands).head?, word.length ≤ 3 := by
      rw [hone, scanAfter_eq_take]
      cases wordsOf operands with
      | nil => simp [allInBounds_operandWrites_nil]
      | cons first rest =>
          simp [allInBounds_operandWrites_cons, allInBounds_operandWrites_nil,
            CharArray.size]
          omega
    rw [hiff]
    constructor
    · intro hwords other hother
      rw [← List.append_cancel_left hother]
      exact hwords
    · intro hall
      exact hall operands rfl
  · rw [scanAfter, if_neg hfloor]
    refine iff_of_true (allInBounds_operandWrites_nil _) ?_
    rintro operands rfl
    exact absurd (List.isPrefixOf_iff_prefix.mpr (List.prefix_append _ _)) hfloor

/-- With widths the words fit, whatever they are. -/
theorem allInBounds_widths {arrays : List CharArray} {sizes : List Nat}
    (hfit : List.Forall₂ (fun array size => size < array.size) arrays sizes)
    (text : List Char) :
    AllInBounds (operandWrites arrays (scanWords (sizes.map some) text)) := by
  induction hfit generalizing text with
  | nil => exact allInBounds_nil
  | @cons array size arrays sizes hsize _ ih =>
      rw [List.map_cons, scanWords]
      cases hscan : scanWord (some size) text with
      | none => exact allInBounds_operandWrites_nil _
      | some found =>
          obtain ⟨word, rest⟩ := found
          have hlength := length_scanWord_le hscan
          apply (allInBounds_operandWrites_cons array word arrays _).mpr
          exact ⟨Nat.lt_of_le_of_lt hlength hsize, ih rest⟩

theorem status_operands (text : List Char) :
    AllInBounds (operandWrites [.status, .currentFloor, .destinationFloor]
      (scanAfter "STATUS".toList [some 7, some 3, some 3] text)) := by
  rw [scanAfter]
  split
  · exact @allInBounds_widths [.status, .currentFloor, .destinationFloor]
      [7, 3, 3] (.cons (by decide) (.cons (by decide) (.cons (by decide) .nil))) _
  · exact allInBounds_operandWrites_nil _

theorem exists_append_of_take {text literal : List Char}
    (htake : text.take literal.length = literal) :
    ∃ operands, text = literal ++ operands :=
  ⟨text.drop literal.length, by
    conv_lhs => rw [← List.take_append_drop literal.length text, htake]⟩

/-- The four characters of the command tell which operands are scanned. -/
theorem parseWrites_iff (known : Bool) (text : List Char) :
    AllInBounds (parseWrites known text) ↔
      (∀ operands, text = "CALL".toList ++ operands →
        ∀ word ∈ (wordsOf operands).take 2, word.length ≤ 3) ∧
      ∀ operands, text = "CAR ".toList ++ operands →
        (∀ word ∈ (wordsOf operands).head?, word.length ≤ 49) ∧
          ∀ word ∈ ((wordsOf operands).drop 1).take 2, word.length ≤ 3 := by
  have hcommand : AllInBounds [⟨.command, 0, 4⟩, ⟨.command, 4, 1⟩] := by decide
  have hrecord : AllInBounds recordWrites := by decide
  have htake (literal operands : List Char) (hlength : literal.length = 4) :
      (literal ++ operands).take 4 = literal := List.take_left' hlength
  simp only [parseWrites]
  rw [allInBounds_append, and_iff_right hcommand]
  by_cases hcall : text.take 4 = "CALL".toList
  · obtain ⟨operands, rfl⟩ := @exists_append_of_take text "CALL".toList hcall
    rw [if_pos hcall, call_operands_iff]
    constructor
    · intro hwords
      refine ⟨fun other hother => ?_, fun other hother => ?_⟩
      · rw [← List.append_cancel_left hother]
        exact hwords
      · rw [hother, htake _ _ rfl] at hcall
        exact absurd hcall (by decide)
    · intro hboth
      exact hboth.1 operands rfl
  · rw [if_neg hcall]
    have hnone : ∀ operands, text ≠ "CALL".toList ++ operands := by
      rintro operands rfl
      exact hcall (htake _ _ rfl)
    by_cases hcar : text.take 4 = "CAR ".toList
    · obtain ⟨operands, rfl⟩ := @exists_append_of_take text "CAR ".toList hcar
      rw [if_pos hcar, allInBounds_append, and_iff_left hrecord, car_operands_iff]
      constructor
      · intro hwords
        refine ⟨fun other hother => absurd hother (hnone other),
          fun other hother => ?_⟩
        rw [← List.append_cancel_left hother]
        exact hwords
      · intro hboth
        exact hboth.2 operands rfl
    · rw [if_neg hcar]
      refine iff_of_true ?_ ⟨fun other hother => absurd hother (hnone other), ?_⟩
      · split
        · exact status_operands text
        · exact allInBounds_nil
      · rintro operands rfl
        exact absurd (htake _ _ rfl) hcar

theorem receiveWrites_inBounds_iff {length : Nat} {body : List UInt8} :
    AllInBounds (receiveWrites length body) ↔ length < 1024 := by
  have hbody := List.length_take_le length body
  simp only [receiveWrites, allInBounds_cons, allInBounds_nil, and_true,
    ArrayWrite.InBounds, CharArray.size]
  omega

theorem controllerWrites_iff (buffer : Block 1024) (known : Bool)
    (length : UInt32) (body : List UInt8) :
    AllInBounds (controllerWrites buffer known length body) ↔
      CommandFits buffer length.toNat body := by
  rw [controllerWrites, allInBounds_append, receiveWrites_inBounds_iff,
    parseWrites_iff]
  constructor
  · rintro ⟨hlength, hcall, hcar⟩
    rw [Block.text_readBody_eq buffer hlength] at hcall hcar
    exact ⟨hlength, hcall, hcar⟩
  · rintro ⟨hlength, hcall, hcar⟩
    rw [Block.text_readBody_eq buffer hlength]
    exact ⟨hlength, hcall, hcar⟩

theorem carWrites_iff (buffer : Block 1024) (readFlag : Bool) (length : UInt32)
    (body : List UInt8) :
    AllInBounds (carWrites buffer readFlag length body) ↔
      OrderFits buffer readFlag length.toNat body := by
  have hreceived := List.length_take_le length.toNat body
  rw [carWrites]
  by_cases hclosed : length.toNat = 0 ∨ 1024 < length.toNat
  · rw [if_pos hclosed]
    refine iff_of_true allInBounds_nil ⟨fun _ => by omega, ?_⟩
    intro hlength _ _ operands htext
    have hzero : length.toNat = 0 := by omega
    rw [hzero, frameText] at htext
    cases htext
  · rw [if_neg hclosed, allInBounds_cons]
    have hbody : (⟨.carBuffer, 0, (body.take length.toNat).length⟩ :
        ArrayWrite).InBounds := by
      simp only [ArrayWrite.InBounds, CharArray.size]
      omega
    rw [and_iff_right hbody]
    by_cases hempty : body = []
    · rw [if_pos (List.take_eq_nil_iff.mpr (.inr hempty))]
      exact iff_of_true allInBounds_nil
        ⟨fun _ => hempty, fun _ hne => absurd hempty hne⟩
    · have hsome : body.take length.toNat ≠ [] := by
        intro htake
        rcases List.take_eq_nil_iff.mp htake with hzero | hnil
        · omega
        · exact hempty hnil
      rw [if_neg hsome, allInBounds_cons]
      constructor
      · rintro ⟨hterminator, hfloor⟩
        have hlength : length.toNat < 1024 := hterminator
        refine ⟨fun heq => by omega, fun _ _ hflag => ?_⟩
        rw [if_pos hflag, floor_operand_iff,
          Block.text_readBody_eq buffer hlength] at hfloor
        exact hfloor
      · rintro ⟨hfull, hfloor⟩
        have hlength : length.toNat < 1024 := by
          have hne : length.toNat ≠ 1024 := fun heq => hempty (hfull heq)
          omega
        refine ⟨hlength, ?_⟩
        split
        · rename_i hflag
          rw [floor_operand_iff, Block.text_readBody_eq buffer hlength]
          exact hfloor hlength hempty hflag
        · exact allInBounds_nil

/-- Every write of a frame is inside its array, at the controller and at the
car, exactly if the frame fits: its length leaves room for the NUL, and none of
the words that are scanned without a width is too long for its array. -/
theorem frame_writes_inBounds_iff (buffer : Block 1024) (known readFlag : Bool)
    (length : UInt32) (body : List UInt8) :
    (AllInBounds (controllerWrites buffer known length body) ↔
        CommandFits buffer length.toNat body) ∧
      (AllInBounds (carWrites buffer readFlag length body) ↔
        OrderFits buffer readFlag length.toNat body) :=
  ⟨controllerWrites_iff buffer known length body,
    carWrites_iff buffer readFlag length body⟩

/-- A call from a floor of four digits is written past the end of `source`. -/
theorem four_digit_call_overruns :
    ¬ ∀ (buffer : Block 1024) (known readFlag : Bool) (length : UInt32)
      (body : List UInt8),
      AllInBounds (controllerWrites buffer known length body) ∧
        AllInBounds (carWrites buffer readFlag length body) := by
  intro hall
  have hcall := (hall (.zero 1024) false true 11
    (bytesOf "CALL 1000 1".toList)).1
  rw [controllerWrites, allInBounds_append] at hcall
  have htext := (Block.zero 1024).text_readBody
    (show IsText "CALL 1000 1".toList by decide) (by decide)
  have hparse : AllInBounds (parseWrites false "CALL 1000 1".toList) := by
    rw [← htext]
    exact hcall.2
  exact absurd hparse (by decide)

end Elevator
