/-
Status reports on the wire.  The car puts a report together and sends it with
its length; the controller reads frame after frame off the stream and scans the
text.  The two sides agree on every report a car can make.
-/
import Elevator.CarTcp
import Elevator.ControllerLoop
import Elevator.Floor

namespace Elevator

open CText Framing

/-- The controller's end of a connection: the buffer, the part of the stream
that has not been read, and the commands read so far. -/
structure FrameReader where
  buffer : Block 1024
  stream : List UInt8
  commands : List Command
deriving DecidableEq, Repr

/-- The next frame of the stream.  There is none while the frame is incomplete,
in which case the read waits for the rest, nor after an empty one, with which
the connection ends. -/
def readFrame (reader : FrameReader) (stale : Locals) : Option FrameReader :=
  match takeFrame reader.stream with
  | none => none
  | some (length, body, rest) =>
      if length = 0 then none
      else
        let buffer := reader.buffer.readBody length body
        some {
          buffer := buffer
          stream := rest
          commands := reader.commands ++ (parseCommand buffer.text stale).toList }

/-- All frames of a stream, as far as it goes: one step for each, and no more
steps than `fuel`.  Each finds other values in the local arrays. -/
def readFrames (stale : Nat → Locals) : Nat → FrameReader → FrameReader
  | 0, reader => reader
  | fuel + 1, reader =>
      match readFrame reader (stale fuel) with
      | none => reader
      | some next => readFrames stale fuel next

structure CarReport where
  status : Status
  currentFloor : CString 4
  destinationFloor : CString 4
deriving DecidableEq, Repr

def CarReport.message (report : CarReport) : CarMessage :=
  .status (statusNames report.status) report.currentFloor report.destinationFloor

/-- The report as the controller is to understand it. -/
def CarReport.command (report : CarReport) : Command :=
  .status (statusNames report.status) report.currentFloor report.destinationFloor

def CarReport.Labelled (report : CarReport) : Prop :=
  IsLabel report.currentFloor ∧ IsLabel report.destinationFloor

instance (report : CarReport) : Decidable report.Labelled :=
  inferInstanceAs (Decidable (_ ∧ _))

def reportStream (reports : List CarReport) : List UInt8 :=
  reports.flatMap fun report => frame report.message.text

theorem isWord_of_isDigit {digits : List Char} (hne : digits ≠ [])
    (hdigits : ∀ c ∈ digits, c.isDigit = true) : IsWord digits :=
  ⟨hne, fun c hc => isDigit_not_isSpace (hdigits c hc)⟩

/-- A label is digits, with a `B` before them in the basement. -/
theorem IsLabel.chars {label : CString 4} (hlabel : IsLabel label) :
    ∃ n : Int, 0 ≤ n ∧
      (label.chars = printInt n ∨ label.chars = 'B' :: printInt n) := by
  obtain ⟨floor, hfloor, rfl⟩ := hlabel
  rcases hfloor with ⟨hlow, hneg⟩ | ⟨hpos, hhigh⟩
  · exact ⟨floor.natAbs, by omega,
      Or.inr (floorToString_chars_of_neg hlow (by omega))⟩
  · exact ⟨floor, by omega,
      Or.inl (floorToString_chars_of_pos (by omega) hhigh)⟩

theorem IsLabel.isWord {label : CString 4} (hlabel : IsLabel label) :
    IsWord label.chars := by
  obtain ⟨n, hn, hchars⟩ := hlabel.chars
  have hword := isWord_of_isDigit (printInt_ne_nil hn)
    fun c hc => isDigit_of_mem_printInt hn hc
  rcases hchars with h | h
  · rw [h]
    exact hword
  · rw [h]
    exact ⟨List.cons_ne_nil _ _, List.forall_mem_cons.mpr ⟨rfl, hword.2⟩⟩

theorem IsLabel.isText {label : CString 4} (hlabel : IsLabel label) :
    IsText label.chars := by
  obtain ⟨n, hn, hchars⟩ := hlabel.chars
  have htext : IsText (printInt n) := by
    intro c hc
    have hdigit := toNat_of_isDigit (isDigit_of_mem_printInt hn hc)
    omega
  rcases hchars with h | h
  · rw [h]
    exact htext
  · rw [h]
    exact List.forall_mem_cons.mpr ⟨by decide, htext⟩

/-- What a report can carry: words of characters of one byte. -/
def IsOperand (word : List Char) : Prop :=
  IsWord word ∧ IsText word

instance (word : List Char) : Decidable (IsOperand word) :=
  inferInstanceAs (Decidable (_ ∧ _))

theorem IsLabel.isOperand {label : CString 4} (hlabel : IsLabel label) :
    IsOperand label.chars :=
  ⟨hlabel.isWord, hlabel.isText⟩

theorem statusNames_isOperand (status : Status) :
    IsOperand (statusNames status).chars := by
  cases status <;> exact ⟨by decide, by decide⟩

theorem isText_spaced {words : List (List Char)}
    (hwords : ∀ word ∈ words, IsText word) : IsText (spaced words) := by
  induction words with
  | nil => exact fun c hc => absurd hc List.not_mem_nil
  | cons word words ih =>
      obtain ⟨hword, hrest⟩ := List.forall_mem_cons.mp hwords
      have hrestText : IsText (word ++ spaced words) :=
        (isText_append _ _).mpr ⟨hword, ih hrest⟩
      have hspace : 0 < ' '.toNat ∧ ' '.toNat < 256 := by decide
      rw [spaced_cons]
      exact List.forall_mem_cons.mpr ⟨hspace, hrestText⟩

section Report

variable {statusStr : CString 8} {currentFloor destinationFloor : CString 4}

/-- The text of a report is its literal, three words, and what ends the last. -/
theorem status_text_eq (statusStr : CString 8)
    (currentFloor destinationFloor : CString 4) :
    (CarMessage.status statusStr currentFloor destinationFloor).text =
      "STATUS".toList ++ (spaced [statusStr.chars, currentFloor.chars,
        destinationFloor.chars] ++ " \n".toList) := by
  have htext : (CarMessage.status statusStr currentFloor destinationFloor).text =
      "STATUS ".toList ++ statusStr.chars ++ " ".toList ++ currentFloor.chars ++
        " ".toList ++ destinationFloor.chars ++ " \n".toList := rfl
  rw [htext]
  simp [spaced_cons, spaced_nil]

theorem status_text_isText (hstatus : IsOperand statusStr.chars)
    (hcurrent : IsOperand currentFloor.chars)
    (hdestination : IsOperand destinationFloor.chars) :
    IsText (CarMessage.status statusStr currentFloor destinationFloor).text := by
  have hwords : ∀ word ∈ [statusStr.chars, currentFloor.chars,
      destinationFloor.chars], IsText word := by
    simp [hstatus.2, hcurrent.2, hdestination.2]
  rw [status_text_eq, isText_append, isText_append]
  exact ⟨by decide, isText_spaced hwords, by decide⟩

theorem length_status_text (statusStr : CString 8)
    (currentFloor destinationFloor : CString 4) :
    0 < (CarMessage.status statusStr currentFloor destinationFloor).text.length ∧
      (CarMessage.status statusStr currentFloor
        destinationFloor).text.length < 1024 := by
  have hstatus : statusStr.chars.length ≤ 7 := statusStr.fits
  have hcurrent : currentFloor.chars.length ≤ 3 := currentFloor.fits
  have hdestination : destinationFloor.chars.length ≤ 3 := destinationFloor.fits
  have hsix : "STATUS".toList.length = 6 := rfl
  have htwo : " \n".toList.length = 2 := rfl
  rw [status_text_eq]
  simp only [List.length_append, spaced_cons, spaced_nil, List.length_cons,
    List.length_nil, hsix, htwo]
  omega

/-- What the car puts behind the last operand ends it. -/
theorem endsWord_newline : EndsWord " \n".toList := by
  intro c hc
  obtain rfl : ' ' = c := by simpa using hc
  rfl

/-- The parser reads three operands that fit, whatever follows them and whatever
the local arrays held. -/
theorem parseCommand_operands (hstatus : IsOperand statusStr.chars)
    (hcurrent : IsOperand currentFloor.chars)
    (hdestination : IsOperand destinationFloor.chars) {rest : List Char}
    (hends : EndsWord rest) (stale : Locals) :
    parseCommand ("STATUS".toList ++ (spaced [statusStr.chars, currentFloor.chars,
        destinationFloor.chars] ++ rest)) stale =
      some (.status statusStr currentFloor destinationFloor) := by
  have hwords : scanAfter "STATUS".toList [some 7, some 3, some 3]
      ("STATUS".toList ++ (spaced [statusStr.chars, currentFloor.chars,
        destinationFloor.chars] ++ rest)) =
        [statusStr.chars, currentFloor.chars, destinationFloor.chars] := by
    rw [scanAfter_literal]
    refine scanWords_spaced (.cons ⟨hstatus.1, ?_⟩ (.cons ⟨hcurrent.1, ?_⟩
      (.cons ⟨hdestination.1, ?_⟩ .nil))) hends
    · intro size hsize
      obtain rfl : 7 = size := by simpa using hsize
      exact statusStr.fits
    · intro size hsize
      obtain rfl : 3 = size := by simpa using hsize
      exact currentFloor.fits
    · intro size hsize
      obtain rfl : 3 = size := by simpa using hsize
      exact destinationFloor.fits
  have hcommand (text : List Char) :
      ("STATUS".toList ++ text).take 4 = "STAT".toList := rfl
  simp only [parseCommand, hcommand, hwords]
  simp [assigned]

theorem parseCommand_status (hstatus : IsOperand statusStr.chars)
    (hcurrent : IsOperand currentFloor.chars)
    (hdestination : IsOperand destinationFloor.chars) (stale : Locals) :
    parseCommand (CarMessage.status statusStr currentFloor destinationFloor).text
      stale = some (.status statusStr currentFloor destinationFloor) := by
  rw [status_text_eq]
  exact parseCommand_operands hstatus hcurrent hdestination endsWord_newline stale

/-- In whatever the buffer held, a complete report is found. -/
theorem parseCommand_readBody_status (hstatus : IsOperand statusStr.chars)
    (hcurrent : IsOperand currentFloor.chars)
    (hdestination : IsOperand destinationFloor.chars) (buffer : Block 1024)
    (stale : Locals) :
    parseCommand (buffer.readBody
        (CarMessage.status statusStr currentFloor destinationFloor).text.length
        (bytesOf (CarMessage.status statusStr currentFloor
          destinationFloor).text)).text stale =
      some (.status statusStr currentFloor destinationFloor) := by
  rw [Block.text_readBody buffer
    (status_text_isText hstatus hcurrent hdestination)
    (length_status_text statusStr currentFloor destinationFloor).2]
  exact parseCommand_status hstatus hcurrent hdestination stale

end Report

theorem readFrame_report {report : CarReport} (hlabels : report.Labelled)
    (buffer : Block 1024) (rest : List UInt8) (commands : List Command)
    (stale : Locals) :
    ∃ buffer', readFrame
        ⟨buffer, frame report.message.text ++ rest, commands⟩ stale =
      some ⟨buffer', rest, commands ++ [report.command]⟩ := by
  obtain ⟨hpos, hfits⟩ := length_status_text (statusNames report.status)
    report.currentFloor report.destinationFloor
  have hcommand := parseCommand_readBody_status
    (statusNames_isOperand report.status) hlabels.1.isOperand
    hlabels.2.isOperand buffer stale
  refine ⟨buffer.readBody report.message.text.length
    (bytesOf report.message.text), ?_⟩
  simp only [readFrame, CarReport.message]
  rw [takeFrame_frame (by omega)]
  simp only [if_neg (Nat.ne_of_gt hpos), hcommand, Option.toList_some]
  rfl

theorem length_le_reportStream (reports : List CarReport) :
    reports.length ≤ (reportStream reports).length := by
  induction reports with
  | nil => exact Nat.zero_le _
  | cons report rest ih =>
      simp only [reportStream, List.flatMap_cons, List.length_append,
        List.length_cons, frame, length_bigEndian] at ih ⊢
      omega

/-- The reports of a car, concatenated on the wire and read frame by frame, come
out as they went in: in order, with nothing left over, and with no other command
among them. -/
theorem readFrames_reportStream {reports : List CarReport}
    (hlabels : ∀ report ∈ reports, report.Labelled) (buffer : Block 1024)
    (stale : Nat → Locals) :
    ∃ buffer', readFrames stale (reportStream reports).length
        ⟨buffer, reportStream reports, []⟩ =
      ⟨buffer', [], reports.map CarReport.command⟩ := by
  suffices hsteps : ∀ (commands : List Command) (fuel : Nat),
      reports.length ≤ fuel → ∃ buffer',
        readFrames stale fuel ⟨buffer, reportStream reports, commands⟩ =
          ⟨buffer', [], commands ++ reports.map CarReport.command⟩ by
    exact hsteps [] _ (length_le_reportStream reports)
  induction reports generalizing buffer with
  | nil =>
      intro commands fuel hfuel
      refine ⟨buffer, ?_⟩
      cases fuel <;> simp [readFrames, readFrame, takeFrame, reportStream]
  | cons report rest ih =>
      intro commands fuel hfuel
      obtain ⟨hhead, htail⟩ := List.forall_mem_cons.mp hlabels
      obtain ⟨fuel, rfl⟩ : ∃ n, fuel = n + 1 :=
        Nat.exists_eq_succ_of_ne_zero (by rw [List.length_cons] at hfuel; omega)
      obtain ⟨buffer', hframe⟩ := readFrame_report hhead buffer
        (reportStream rest) commands (stale fuel)
      obtain ⟨buffer'', hrest⟩ := ih htail buffer'
        (commands ++ [report.command]) fuel (Nat.le_of_succ_le_succ hfuel)
      refine ⟨buffer'', ?_⟩
      have hstream : reportStream (report :: rest) =
          frame report.message.text ++ reportStream rest := by
        simp [reportStream]
      rw [readFrames, hstream, hframe]
      simp only [hrest, List.map_cons, List.append_assoc, List.singleton_append]

/-- Two reports in which some fields are filled to the last character. -/
def passingReports : List CarReport :=
  [⟨.Closing, floorToString (-12), floorToString 999⟩,
    ⟨.Open, floorToString 1, floorToString (-1)⟩]

theorem readFrames_passingReports :
    ∃ buffer', readFrames (fun _ => blankLocals) (reportStream passingReports).length
        ⟨.zero 1024, reportStream passingReports, []⟩ =
      ⟨buffer', [], passingReports.map CarReport.command⟩ :=
  readFrames_reportStream (by decide) (.zero 1024) fun _ => blankLocals

end Elevator
