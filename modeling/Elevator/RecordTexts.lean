/-
The records as bytes and the records as texts.  As long as the texts of every
record are terminated, and the two statuses in their last bytes as well, the
update of a field in memory is the update of the list of records.
-/
import Elevator.ControllerBytes
import Elevator.ControllerMemory

namespace Elevator

open ByteMemory Framing CText

def ByteString.ofText (text : List Char) (htext : IsText text) : ByteString :=
  ⟨bytesOf text, zero_notMem_bytesOf htext⟩

theorem length_ofText_lt {name : CString 50} (hname : IsText name.chars) :
    (ByteString.ofText name.chars hname).bytes.length < Member.name.width := by
  have hlength := name.fits
  rw [ByteString.ofText, length_bytesOf, Member.width]
  omega

def ConnectedCar.text (car : ConnectedCar) : Member → List Char
  | .name => car.name.chars
  | .highestFloor => car.highestFloor.chars
  | .lowestFloor => car.lowestFloor.chars
  | .status => car.status.chars
  | .previousStatus => car.previousStatus.chars
  | .currentfloor => car.currentfloor.chars
  | .destinationfloor => car.destinationfloor.chars
  | .connectionsocket => []

theorem ConnectedCar.length_text (car : ConnectedCar) (member : Member) :
    (car.text member).length < member.width := by
  have hlength : (car.text member).length ≤ member.width - 1 := by
    cases member
    · exact car.name.fits
    · exact car.highestFloor.fits
    · exact car.lowestFloor.fits
    · exact car.status.fits
    · exact car.previousStatus.fits
    · exact car.currentfloor.fits
    · exact car.destinationfloor.fits
    · exact Nat.zero_le _
  have hwidth := member.width_pos
  omega

/-- The i-th record in memory shows a car. -/
structure ShowsCar (memory : Memory) (i : Nat) (car : ConnectedCar) : Prop where
  texts : ∀ member, member ≠ .connectionsocket →
    StringAt memory (member.address i) (bytesOf (car.text member))
  isText : IsText car.name.chars
  status : memory (Member.status.address i + 7) = 0
  previousStatus : memory (Member.previousStatus.address i + 7) = 0

/-- The records in memory show the list. -/
structure ControllerBytes.Represents (controller : ControllerBytes)
    (cars : List ConnectedCar) : Prop where
  size_eq : controller.size = cars.length
  shows : ∀ i car, cars[i]? = some car → ShowsCar controller.memory i car

section OneRecord

variable {memory : Memory} {i j opCode : Nat} {car : ConnectedCar}
  {newValue : List Char}

theorem Member.disjoint {member other : Member} (hne : member ≠ other) :
    member.offset + member.width ≤ other.offset ∨
      other.offset + other.width ≤ member.offset := by
  cases member <;> cases other <;> first | exact absurd rfl hne | decide

theorem setField_text {member : Member} (hmember : designated opCode = some member)
    (htext : member ≠ .connectionsocket) :
    (setField opCode newValue car).text member =
      newValue.take (member.width - 1) := by
  unfold designated at hmember
  split at hmember <;> cases hmember <;> first | rfl | exact absurd rfl htext

theorem setField_text_of_ne {member : Member}
    (hmember : designated opCode ≠ some member) :
    (setField opCode newValue car).text member = car.text member := by
  unfold setField
  split <;> first | rfl | (cases member <;> first | rfl | exact absurd rfl hmember)

theorem Member.eq_of_last {member other : Member}
    (hlow : other.address i ≤ member.address i + (member.width - 1))
    (hhigh : member.address i + (member.width - 1) <
      other.address i + other.width) : other = member := by
  by_contra hne
  have hwidth := member.width_pos
  have hdisjoint := Member.disjoint hne
  simp only [Member.address] at hlow hhigh
  omega

/-- A text member after the update: it holds the copy if it is designated, and
what it held if it is not. -/
theorem ShowsCar.stringAt_setMember (hshows : ShowsCar memory i car)
    (hvalue : IsText newValue) {member : Member} (htext : member ≠ .connectionsocket) :
    StringAt (setMember memory i opCode (.ofText newValue hvalue))
      (member.address i) (bytesOf ((setField opCode newValue car).text member)) := by
  by_cases hmember : designated opCode = some member
  · have hcopy := (@Elevator.stringAt_setMember memory i opCode member
      (.ofText newValue hvalue) hmember htext).mpr
        fun _ => Or.inr hshows.previousStatus
    rw [setField_text hmember htext, bytesOf, List.map_take]
    exact hcopy
  · rw [setField_text_of_ne hmember]
    refine (StringAt.congr fun k hk => ?_).mpr (hshows.texts member htext)
    by_contra hchanged
    obtain ⟨other, hother, hlow, hhigh⟩ :=
      setMember_frame (fun _ => hshows.status) hchanged
    have hne : member ≠ other := by
      rintro rfl
      exact hmember hother
    have hlength := car.length_text member
    have hdisjoint := Member.disjoint hne
    rw [length_bytesOf] at hk
    simp only [Member.address] at hlow hhigh
    omega

theorem showsCar_setMember (hshows : ShowsCar memory i car)
    (hvalue : IsText newValue) :
    ShowsCar (setMember memory i opCode (.ofText newValue hvalue)) i
      (setField opCode newValue car) := by
  have hframe : ∀ k, setMember memory i opCode (.ofText newValue hvalue) k ≠
      memory k → ∃ other, designated opCode = some other ∧
        other.address i ≤ k ∧ k < other.address i + other.width :=
    fun k => setMember_frame fun _ => hshows.status
  refine ⟨fun member htext => hshows.stringAt_setMember hvalue htext, ?_, ?_, ?_⟩
  · have hname : (setField opCode newValue car).text .name = car.text .name :=
      setField_text_of_ne fun h => designated_ne_name h rfl
    show IsText ((setField opCode newValue car).text .name)
    rw [hname]
    exact hshows.isText
  · by_cases hsame : setMember memory i opCode (.ofText newValue hvalue)
        (Member.status.address i + 7) = memory (Member.status.address i + 7)
    · rw [hsame, hshows.status]
    · obtain ⟨other, hother, hlow, hhigh⟩ := hframe _ hsame
      obtain rfl := @Member.eq_of_last i .status other hlow hhigh
      rw [setMember_text hother (by decide)]
      exact setText_end
  · by_cases hsame : setMember memory i opCode (.ofText newValue hvalue)
        (Member.previousStatus.address i + 7) =
          memory (Member.previousStatus.address i + 7)
    · rw [hsame, hshows.previousStatus]
    · obtain ⟨other, hother, hlow, hhigh⟩ := hframe _ hsame
      obtain rfl := @Member.eq_of_last i .previousStatus other hlow hhigh
      refine absurd ?_ hsame
      rw [setMember_text hother (by decide)]
      refine setText_outside (fun h => Nat.lt_irrefl _ h.2) ?_
      simp only [terminatedFor, if_true, Member.address, Member.offset,
        Member.width]
      omega

theorem showsCar_setMember_of_ne (hne : j ≠ i) (hshows : ShowsCar memory j car)
    (value : ByteString) :
    ShowsCar (setMember memory i opCode value) j car := by
  have hsame : ∀ (member : Member) (k : Nat), k < member.width →
      setMember memory i opCode value (member.address j + k) =
        memory (member.address j + k) := by
    intro member k hk
    have hwithin := member.within
    refine setMember_outside ?_
    simp only [Member.address, Member.width, recordSize] at *
    omega
  refine ⟨fun member htext => ?_, hshows.isText, ?_, ?_⟩
  · refine (StringAt.congr fun k hk => hsame member k ?_).mpr
      (hshows.texts member htext)
    have hlength := car.length_text member
    rw [length_bytesOf] at hk
    omega
  · rw [hsame .status 7 (by decide), hshows.status]
  · rw [hsame .previousStatus 7 (by decide), hshows.previousStatus]

end OneRecord

namespace ControllerBytes

variable {controller : ControllerBytes} {cars : List ConnectedCar}

theorem Represents.named_iff (hrep : controller.Represents cars) {i : Nat}
    {car : ConnectedCar} (hcar : cars[i]? = some car) {name : CString 50}
    (hname : IsText name.chars) :
    controller.Named (.ofText name.chars hname) i ↔ car.name = name := by
  have hshows := hrep.shows i car hcar
  have hstring := hshows.texts .name (by decide)
  constructor
  · rintro ⟨-, hother⟩
    have hbytes := stringAt_unique (zero_notMem_bytesOf hname)
      (zero_notMem_bytesOf hshows.isText) hother hstring
    have htexts := congrArg (fun bytes => textOf (bytes ++ 0 :: [])) hbytes
    have hchars : name.chars = car.name.chars := by
      rwa [textOf_bytesOf hname, textOf_bytesOf hshows.isText] at htexts
    exact CString.ext hchars.symm
  · rintro rfl
    refine ⟨?_, hstring⟩
    rw [ByteString.ofText, length_bytesOf]
    exact car.length_text .name

end ControllerBytes

namespace ControllerBytes

variable {controller : ControllerBytes} {cars : List ConnectedCar}

theorem Represents.find_eq (hrep : controller.Represents cars)
    {name : CString 50} (hname : IsText name.chars) :
    controller.find (.ofText name.chars hname) =
      cars.findIdx? fun car => car.name = name := by
  have hfits := length_ofText_lt hname
  refine Option.ext fun i => ?_
  rw [find_eq_some_iff hfits, List.findIdx?_eq_some_iff_getElem]
  constructor
  · rintro ⟨hsize, hnamed, hfirst⟩
    have hi : i < cars.length := hrep.size_eq ▸ hsize
    refine ⟨hi, ?_, fun j hj => ?_⟩
    · rw [decide_eq_true_iff]
      exact (hrep.named_iff (List.getElem?_eq_getElem hi) hname).mp hnamed
    · rw [decide_eq_true_iff]
      exact fun hother => hfirst j hj ((hrep.named_iff
        (List.getElem?_eq_getElem (Nat.lt_trans hj hi)) hname).mpr hother)
  · rintro ⟨hi, hnamed, hfirst⟩
    refine ⟨hrep.size_eq ▸ hi, ?_, fun j hj hother => ?_⟩
    · rw [decide_eq_true_iff] at hnamed
      exact (hrep.named_iff (List.getElem?_eq_getElem hi) hname).mpr hnamed
    · refine hfirst j hj (decide_eq_true ?_)
      exact (hrep.named_iff (List.getElem?_eq_getElem (Nat.lt_trans hj hi))
        hname).mp hother

/-- `controller_set` in memory is `controller_set` on the list. -/
theorem Represents.set (hrep : controller.Represents cars) (opCode : Nat)
    {name : CString 50} (hname : IsText name.chars) {newValue : List Char}
    (hvalue : IsText newValue) :
    (controller.set (.ofText name.chars hname) opCode
      (.ofText newValue hvalue)).Represents
        (controllerSet cars name opCode newValue) := by
  rw [controllerSet_eq_modify, ← hrep.find_eq hname]
  cases hfind : controller.find (.ofText name.chars hname) with
  | none =>
      rw [set_eq_self hfind]
      exact hrep
  | some i =>
      refine ⟨?_, fun j car hcar => ?_⟩
      · rw [size_set, List.length_modify, hrep.size_eq]
      · rw [memory_set hfind]
        rw [List.getElem?_modify] at hcar
        obtain ⟨before, hbefore, rfl⟩ := Option.map_eq_some_iff.mp hcar
        have hshows := hrep.shows j before hbefore
        by_cases hj : j = i
        · subst hj
          rw [if_pos rfl]
          exact showsCar_setMember hshows hvalue
        · rw [if_neg (Ne.symm hj)]
          exact showsCar_setMember_of_ne hj hshows _

/-- Among such records every code sets its field and nothing else. -/
theorem Represents.setsField (hrep : controller.Represents cars) (opCode : Nat)
    {name : CString 50} (hname : IsText name.chars) (newValue : ByteString) :
    SetsField controller (.ofText name.chars hname) opCode newValue := by
  have hfits := length_ofText_lt hname
  cases hfind : controller.find (.ofText name.chars hname) with
  | none => exact setsField_of_find_eq_none hfits hfind
  | some i =>
      have hsize := ((find_eq_some_iff hfits).mp hfind).inUse
      have hshows := hrep.shows i _
        (List.getElem?_eq_getElem (hrep.size_eq ▸ hsize))
      exact setsField_of_find hfits hfind (fun _ => hshows.status)
        fun _ => Or.inr hshows.previousStatus

end ControllerBytes

end Elevator
