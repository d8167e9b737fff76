/-
Floors on the command line.  The call pad and the car look at the length of a
floor and then put each character to a test that every character passes, so
that what is let through is more than labels; the call pad compares what the
decoder makes of the two.
-/
import Elevator.Labels
import Elevator.Registration

namespace Elevator

open CText

/-- The loop of the call pad over the four characters of both floors, each of
which is put to the same test as in the car. -/
def checkFloors (source destination : List Char) : Bool :=
  (List.range 4).all fun i =>
    isFloorCharacter (source.getD i (Char.ofNat 0)) &&
      isFloorCharacter (destination.getD i (Char.ofNat 0))

/-- The call pad up to `connect_to_server`: what it sends once it is connected,
or what it prints when it does not come to that. -/
def callArguments (argv : List Argument) : Except (List Char) (List Char) :=
  match argv with
  | [_, source, destination] =>
      if 4 ≤ source.chars.length ∨ 4 ≤ destination.chars.length then
        .error "Invalid floor(s) specified.\n".toList
      else if !checkFloors source.chars destination.chars then
        .error "Invalid floor(s) specified.\n".toList
      else if stringToFloorOf source.chars = stringToFloorOf destination.chars then
        .error "You are already on that floor!\n".toList
      else
        .ok ("CALL ".toList ++ source.chars ++ " ".toList ++ destination.chars ++
          " \n".toList)
  | _ =>
      .error ("Usage: ".toList ++ ((argv.head?.map (·.chars)).getD []) ++
        " \x7bsource floor\x7d \x7bdestination floor\x7d\n".toList)

theorem checkFloors_eq_true (source destination : List Char) :
    checkFloors source destination = true := by
  rw [checkFloors, List.all_eq_true]
  intro i _
  rw [isFloorCharacter_eq_true, isFloorCharacter_eq_true, Bool.and_self]

/-- The call pad goes on to contact the controller. -/
def Contacts (program source destination : Argument) : Prop :=
  ∃ message, callArguments [program, source, destination] = .ok message

/-- The car goes on to start its threads; its shared memory can be created. -/
def Starts (program name lowestFloor highestFloor delay : Argument) : Prop :=
  ∃ arguments, checkArguments [program, name, lowestFloor, highestFloor, delay]
    true = .ok arguments

theorem contacts_iff (program source destination : Argument) :
    Contacts program source destination ↔
      source.chars.length < 4 ∧ destination.chars.length < 4 ∧
        stringToFloorOf source.chars ≠ stringToFloorOf destination.chars := by
  simp only [Contacts, callArguments, checkFloors_eq_true, Bool.not_true,
    Bool.false_eq_true, if_false]
  constructor
  · rintro ⟨message, haccepted⟩
    split_ifs at haccepted with hlength hsame
    exact ⟨by omega, by omega, hsame⟩
  · rintro ⟨hsource, hdestination, hdiffer⟩
    rw [if_neg (by omega), if_neg hdiffer]
    exact ⟨_, rfl⟩

theorem starts_iff {program name lowestFloor highestFloor delay : Argument}
    (hdelay : 0 < atoi delay.chars) :
    Starts program name lowestFloor highestFloor delay ↔
      lowestFloor.chars.length < 4 ∧ highestFloor.chars.length < 4 := by
  constructor
  · rintro ⟨arguments, haccepted⟩
    obtain ⟨-, hlowest, hhighest, -⟩ := checkArguments_five.mp haccepted
    exact ⟨hlowest, hhighest⟩
  · rintro ⟨hlowest, hhighest⟩
    exact ⟨_, checkArguments_five.mpr ⟨hdelay, hlowest, hhighest, rfl, rfl⟩⟩

def NameDifferent (first second : List Char) : Prop :=
  ∃ m n, Names first m ∧ Names second n ∧ m ≠ n

theorem IsFloorLabel.length_lt {text : List Char} (hlabel : IsFloorLabel text) :
    text.length < 4 :=
  Nat.lt_succ_of_le hlabel.length_le

theorem nameDifferent_iff {first second : List Char} (hfirst : IsFloorLabel first)
    (hsecond : IsFloorLabel second) :
    NameDifferent first second ↔ stringToFloorOf first ≠ stringToFloorOf second := by
  constructor
  · rintro ⟨m, n, hm, hn, hne⟩
    rwa [hm.stringToFloorOf_eq, hn.stringToFloorOf_eq]
  · intro hne
    obtain ⟨m, hm⟩ := hfirst
    obtain ⟨n, hn⟩ := hsecond
    rw [hm.stringToFloorOf_eq, hn.stringToFloorOf_eq] at hne
    exact ⟨m, n, hm, hn, hne⟩

/-- The call pad contacts the controller for two labels of different floors and
for nothing else exactly when it is given labels, or something that is turned
down by its length or for being decoded to one number. -/
theorem contacts_exact_iff (program source destination : Argument) :
    (Contacts program source destination ↔
        NameDifferent source.chars destination.chars) ↔
      (IsFloorLabel source.chars ∧ IsFloorLabel destination.chars) ∨
        4 ≤ source.chars.length ∨ 4 ≤ destination.chars.length ∨
        stringToFloorOf source.chars = stringToFloorOf destination.chars := by
  rw [contacts_iff]
  by_cases hlabels : IsFloorLabel source.chars ∧ IsFloorLabel destination.chars
  · obtain ⟨hsource, hdestination⟩ := hlabels
    rw [nameDifferent_iff hsource hdestination]
    simp [hsource, hdestination, hsource.length_lt, hdestination.length_lt]
  · have hnot : ¬ NameDifferent source.chars destination.chars := by
      rintro ⟨m, n, hm, hn, -⟩
      exact hlabels ⟨⟨m, hm⟩, n, hn⟩
    rw [iff_false_right hnot, or_iff_right hlabels]
    by_cases hsame : stringToFloorOf source.chars = stringToFloorOf destination.chars
    · simp [hsame]
    · simp only [hsame, ne_eq, not_false_eq_true, and_true, or_false]
      omega

theorem starts_exact_iff {program name lowestFloor highestFloor delay : Argument}
    (hdelay : 0 < atoi delay.chars) :
    (Starts program name lowestFloor highestFloor delay ↔
        IsFloorLabel lowestFloor.chars ∧ IsFloorLabel highestFloor.chars) ↔
      (IsFloorLabel lowestFloor.chars ∧ IsFloorLabel highestFloor.chars) ∨
        4 ≤ lowestFloor.chars.length ∨ 4 ≤ highestFloor.chars.length := by
  rw [starts_iff hdelay]
  by_cases hlabels : IsFloorLabel lowestFloor.chars ∧ IsFloorLabel highestFloor.chars
  · simp [hlabels, hlabels.1.length_lt, hlabels.2.length_lt]
  · rw [iff_false_right hlabels, or_iff_right hlabels]
    omega

/-- Both programs validate their floors on the command line exactly where they
are given labels, or something they turn down for its length, or, at the call
pad, two floors that are decoded to the same number. -/
theorem floor_arguments_validated_iff (program first second : Argument) :
    ((Contacts program first second ↔
          NameDifferent first.chars second.chars) ↔
        (IsFloorLabel first.chars ∧ IsFloorLabel second.chars) ∨
          4 ≤ first.chars.length ∨ 4 ≤ second.chars.length ∨
          stringToFloorOf first.chars = stringToFloorOf second.chars) ∧
    ∀ name delay : Argument, 0 < atoi delay.chars →
      ((Starts program name first second delay ↔
          IsFloorLabel first.chars ∧ IsFloorLabel second.chars) ↔
        (IsFloorLabel first.chars ∧ IsFloorLabel second.chars) ∨
          4 ≤ first.chars.length ∨ 4 ≤ second.chars.length) :=
  ⟨contacts_exact_iff program first second,
    fun _ _ hdelay => starts_exact_iff hdelay⟩

/-- A letter in front of a digit, at the call pad and for a car with a delay of ten. -/
theorem floor_arguments_validated_iff_letter :
    let program : Argument := ⟨"./car".toList, by decide⟩
    let first : Argument := ⟨"L4".toList, by decide⟩
    let second : Argument := ⟨"8".toList, by decide⟩
    let name : Argument := ⟨"Alpha".toList, by decide⟩
    let delay : Argument := ⟨"10".toList, by decide⟩
    ((Contacts program first second ↔
          NameDifferent first.chars second.chars) ↔
        (IsFloorLabel first.chars ∧ IsFloorLabel second.chars) ∨
          4 ≤ first.chars.length ∨ 4 ≤ second.chars.length ∨
          stringToFloorOf first.chars = stringToFloorOf second.chars) ∧
      ((Starts program name first second delay ↔
          IsFloorLabel first.chars ∧ IsFloorLabel second.chars) ↔
        (IsFloorLabel first.chars ∧ IsFloorLabel second.chars) ∨
          4 ≤ first.chars.length ∨ 4 ≤ second.chars.length) :=
  ⟨(floor_arguments_validated_iff _ _ _).1,
    (floor_arguments_validated_iff _ _ _).2 _ _ (by decide)⟩

/-- `./call L4 8` goes through to the controller, and `./car Alpha L4 8 10`
starts. -/
theorem no_label_is_let_through :
    (¬ ∀ program source destination : Argument,
      Contacts program source destination ↔
        NameDifferent source.chars destination.chars) ∧
    ¬ ∀ program name lowestFloor highestFloor delay : Argument,
      0 < atoi delay.chars →
      (Starts program name lowestFloor highestFloor delay ↔
        IsFloorLabel lowestFloor.chars ∧ IsFloorLabel highestFloor.chars) := by
  constructor
  · intro hall
    have hcall := hall ⟨"./call".toList, by decide⟩ ⟨"L4".toList, by decide⟩
      ⟨"8".toList, by decide⟩
    obtain ⟨m, n, hm, -⟩ := hcall.mp ⟨_, rfl⟩
    have hlabel : IsFloorLabel "L4".toList := ⟨m, hm⟩
    exact absurd hlabel (by decide)
  · intro hall
    have hcar := hall ⟨"./car".toList, by decide⟩ ⟨"Alpha".toList, by decide⟩
      ⟨"L4".toList, by decide⟩ ⟨"8".toList, by decide⟩ ⟨"10".toList, by decide⟩
      (by decide)
    exact absurd (hcar.mp ⟨_, rfl⟩).1 (by decide)

end Elevator
