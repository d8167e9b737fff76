/-
Labels as text.  The floors of a building are written down once, from B99 up to
999, and the codec, the validity check and the range tests are judged by that
list: what the decoder makes of a label, of a text that is none, and how the
order of the numbers follows the order of the floors.
-/
import Elevator.Car
import Elevator.ControllerMemory
import Elevator.Edits

namespace Elevator

open CText

/-- The text is the label of this floor: a `B` before a number from 1 to 99 for
a basement level, or a number from 1 to 999, without leading zeros. -/
def Names (text : List Char) (floor : Int) : Prop :=
  (∃ n : Nat, 1 ≤ n ∧ n ≤ 99 ∧ text = 'B' :: Nat.toDigits 10 n ∧ floor = -(n : Int)) ∨
    ∃ n : Nat, 1 ≤ n ∧ n ≤ 999 ∧ text = Nat.toDigits 10 n ∧ floor = (n : Int)

/-- One of the labels B1 to B99 and 1 to 999. -/
def IsFloorLabel (text : List Char) : Prop :=
  ∃ floor, Names text floor

/-- The labels of all floors, from the lowest to the highest; B1 is directly
below 1. -/
def building : List (List Char) :=
  ((List.range 99).map fun i => 'B' :: Nat.toDigits 10 (99 - i)) ++
    (List.range 999).map fun i => Nat.toDigits 10 (i + 1)

/-- The one floor lies below the other in the building. -/
def IsBelow (first second : List Char) : Prop :=
  ∃ i j : Nat, i < j ∧ building[i]? = some first ∧ building[j]? = some second

def floorAtPlace (i : Int) : Int :=
  floorAt (i - 98)

theorem floorAtPlace_eq (i : Int) :
    floorAtPlace i = if i < 99 then i - 99 else i - 98 := by
  simp only [floorAtPlace, floorAt]
  split_ifs <;> omega

theorem names_iff (text : List Char) (floor : Int) :
    Names text floor ↔ IsFloor floor ∧ text = (floorToString floor).chars := by
  constructor
  · rintro (⟨n, hpos, hhigh, rfl, rfl⟩ | ⟨n, hpos, hhigh, rfl, rfl⟩)
    · refine ⟨Or.inl (by omega), ?_⟩
      rw [floorToString_chars_of_neg (by omega) (by omega), Int.natAbs_neg,
        Int.natAbs_natCast, printInt_natCast]
    · refine ⟨Or.inr (by omega), ?_⟩
      rw [floorToString_chars_of_pos (by omega) (by omega), printInt_natCast]
  · rintro ⟨⟨hlow, hneg⟩ | ⟨hpos, hhigh⟩, rfl⟩
    · refine Or.inl ⟨floor.natAbs, by omega, by omega, ?_, by omega⟩
      rw [floorToString_chars_of_neg hlow (by omega), printInt_natCast]
    · refine Or.inr ⟨floor.natAbs, by omega, by omega, ?_, by omega⟩
      rw [floorToString_chars_of_pos (by omega) hhigh, ← printInt_natCast,
        Int.natAbs_of_nonneg (by omega)]

theorem isFloorLabel_chars_iff (label : CString 4) :
    IsFloorLabel label.chars ↔ IsLabel label := by
  constructor
  · rintro ⟨floor, hnames⟩
    obtain ⟨hfloor, hchars⟩ := (names_iff _ _).mp hnames
    exact ⟨floor, hfloor, CString.ext hchars⟩
  · rintro ⟨floor, hfloor, rfl⟩
    exact ⟨floor, (names_iff _ _).mpr ⟨hfloor, rfl⟩⟩

theorem IsFloorLabel.length_le {text : List Char} (hlabel : IsFloorLabel text) :
    text.length ≤ 3 := by
  obtain ⟨floor, hnames⟩ := hlabel
  obtain ⟨-, rfl⟩ := (names_iff text floor).mp hnames
  exact (floorToString floor).fits

theorem isFloorLabel_iff (text : List Char) :
    IsFloorLabel text ↔ text.length ≤ 3 ∧ IsLabel (.store 4 text) := by
  constructor
  · intro hlabel
    refine ⟨hlabel.length_le, ?_⟩
    rwa [← isFloorLabel_chars_iff, CString.store_chars hlabel.length_le]
  · rintro ⟨hlength, hlabel⟩
    rwa [← isFloorLabel_chars_iff, CString.store_chars hlength] at hlabel

instance (text : List Char) (floor : Int) : Decidable (Names text floor) :=
  decidable_of_iff _ (names_iff text floor).symm

instance (text : List Char) : Decidable (IsFloorLabel text) :=
  decidable_of_iff _ (isFloorLabel_iff text).symm

theorem Names.decodes {label : CString 4} {floor : Int}
    (hnames : Names label.chars floor) : stringToFloor label = floor := by
  obtain ⟨hfloor, hchars⟩ := (names_iff label.chars floor).mp hnames
  rw [CString.ext hchars, stringToFloor_floorToString hfloor]

theorem IsCanonical.names {label : CString 4} (hlabel : IsCanonical label) :
    Names label.chars (stringToFloor label) := by
  obtain ⟨floor, hfloor, rfl⟩ := (isLabel_iff_isCanonical label).mpr hlabel
  rw [stringToFloor_floorToString hfloor]
  exact (names_iff _ _).mpr ⟨hfloor, rfl⟩

theorem Names.unique {text : List Char} {first second : Int}
    (hfirst : Names text first) (hsecond : Names text second) : first = second := by
  obtain ⟨hfloor, rfl⟩ := (names_iff text first).mp hfirst
  rw [← stringToFloor_floorToString hfloor, hsecond.decodes]

section Building

theorem getElem?_building (i : Nat) :
    building[i]? =
      if i < 99 then some ('B' :: Nat.toDigits 10 (99 - i))
      else if i < 1098 then some (Nat.toDigits 10 (i - 98))
      else none := by
  rw [building, List.getElem?_append]
  simp only [List.length_map, List.length_range, List.getElem?_map]
  split_ifs with hbasement hregular
  · rw [List.getElem?_range hbasement, Option.map_some]
  · rw [List.getElem?_range (by omega), Option.map_some]
    congr 2
    omega
  · rw [List.getElem?_eq_none (by rw [List.length_range]; omega), Option.map_none]

/-- The places of the building and the floors belong together one by one. -/
theorem getElem?_building_iff (i : Nat) (text : List Char) :
    building[i]? = some text ↔ i < 1098 ∧ Names text (floorAtPlace i) := by
  rw [getElem?_building, floorAtPlace_eq]
  constructor
  · intro hplace
    split_ifs at hplace with hbasement hregular
    · refine ⟨by omega, Or.inl ⟨99 - i, by omega, by omega, ?_, ?_⟩⟩
      · exact (Option.some.inj hplace).symm
      · rw [if_pos (by omega)]
        omega
    · refine ⟨hregular, Or.inr ⟨i - 98, by omega, by omega, ?_, ?_⟩⟩
      · exact (Option.some.inj hplace).symm
      · rw [if_neg (by omega)]
        omega
  · rintro ⟨hlt, ⟨n, hpos, hhigh, rfl, hfloor⟩ | ⟨n, hpos, hhigh, rfl, hfloor⟩⟩
    · split_ifs at hfloor with hbasement
      · rw [if_pos (by omega)]
        congr 3
        omega
      · omega
    · split_ifs at hfloor with hbasement
      · omega
      · rw [if_neg (by omega), if_pos hlt]
        congr 2
        omega

theorem floorAtPlace_lt_iff (i j : Int) : floorAtPlace i < floorAtPlace j ↔ i < j := by
  simp only [floorAtPlace_eq]
  split_ifs <;> omega

theorem floorAtPlace_storey {floor : Int} (hne : floor ≠ 0) :
    floorAtPlace (storey floor + 98) = floor := by
  rw [floorAtPlace, Int.add_sub_cancel, floorAt_storey hne]

theorem Names.exists_place {text : List Char} {floor : Int}
    (hnames : Names text floor) :
    ∃ i : Nat, building[i]? = some text ∧ floorAtPlace i = floor := by
  obtain ⟨hfloor, -⟩ := (names_iff text floor).mp hnames
  have hplace := floorAtPlace_storey hfloor.ne_zero
  have hbounds : 0 ≤ storey floor + 98 ∧ storey floor + 98 < 1098 := by
    simp only [storey]
    unfold IsFloor at hfloor
    split_ifs <;> omega
  obtain ⟨i, hi⟩ := Int.eq_ofNat_of_zero_le hbounds.1
  rw [hi] at hplace hbounds
  refine ⟨i, (getElem?_building_iff i text).mpr ⟨by omega, ?_⟩, hplace⟩
  rwa [hplace]

/-- Below in the building is less in number. -/
theorem isBelow_iff {first second : List Char} {m n : Int}
    (hfirst : Names first m) (hsecond : Names second n) :
    IsBelow first second ↔ m < n := by
  constructor
  · rintro ⟨i, j, hlt, hi, hj⟩
    obtain ⟨-, hfloor⟩ := (getElem?_building_iff i first).mp hi
    obtain ⟨-, hother⟩ := (getElem?_building_iff j second).mp hj
    rw [hfirst.unique hfloor, hsecond.unique hother, floorAtPlace_lt_iff]
    exact Int.ofNat_lt.mpr hlt
  · intro hlt
    obtain ⟨i, hi, rfl⟩ := hfirst.exists_place
    obtain ⟨j, hj, rfl⟩ := hsecond.exists_place
    exact ⟨i, j, Int.ofNat_lt.mp ((floorAtPlace_lt_iff i j).mp hlt), hi, hj⟩

end Building

section Codec

variable {first second : CString 4}

theorem isBelow_iff_stringToFloor (hfirst : IsCanonical first)
    (hsecond : IsCanonical second) :
    IsBelow first.chars second.chars ↔ stringToFloor first < stringToFloor second :=
  isBelow_iff hfirst.names hsecond.names

/-- The floors the codec is exact on are those that have a label: whatever is
printed of another number is the label of some floor. -/
theorem stringToFloor_floorToString_iff (floor : Int) :
    stringToFloor (floorToString floor) = floor ↔ IsFloor floor := by
  constructor
  · intro hsame
    rw [← hsame]
    exact isFloor_stringToFloor (floorToString_isLabel floor)
  · exact stringToFloor_floorToString

/-- A car can serve a request when neither floor lies outside its shaft. -/
theorem canServiceRequest_iff_isBelow {car : ConnectedCar}
    (hlowest : IsCanonical car.lowestFloor) (hhighest : IsCanonical car.highestFloor)
    {source destination : CString 4} (hsource : IsCanonical source)
    (hdestination : IsCanonical destination) :
    canServiceRequest car (stringToFloor source) (stringToFloor destination) = true ↔
      ¬ IsBelow source.chars car.lowestFloor.chars ∧
        ¬ IsBelow car.highestFloor.chars source.chars ∧
        ¬ IsBelow destination.chars car.lowestFloor.chars ∧
        ¬ IsBelow car.highestFloor.chars destination.chars := by
  rw [isBelow_iff_stringToFloor hsource hlowest,
    isBelow_iff_stringToFloor hhighest hsource,
    isBelow_iff_stringToFloor hdestination hlowest,
    isBelow_iff_stringToFloor hhighest hdestination]
  simp only [canServiceRequest, Bool.and_eq_true, decide_eq_true_eq, Int.not_lt,
    and_assoc]

/-- The two range checks together: a destination outside the shaft is given
up. -/
theorem clampDestination_eq_ite (lowest highest : CString 4) (shm : CarSharedData) :
    clampDestination lowest highest shm =
      if stringToFloor highest < stringToFloor shm.destinationFloor ∨
          stringToFloor shm.destinationFloor < stringToFloor lowest then
        { shm with destinationFloor := shm.currentFloor }
      else shm := by
  by_cases habove : stringToFloor highest < stringToFloor shm.destinationFloor
  · rw [if_pos (Or.inl habove)]
    simp only [clampDestination, gt_iff_lt, if_pos habove]
    exact ite_self _
  · by_cases hbelow : stringToFloor shm.destinationFloor < stringToFloor lowest
    · rw [if_pos (Or.inr hbelow)]
      simp only [clampDestination, gt_iff_lt, if_neg habove, if_pos hbelow]
    · rw [if_neg (not_or.mpr ⟨habove, hbelow⟩)]
      simp only [clampDestination, gt_iff_lt, if_neg habove, if_neg hbelow]

end Codec

/-- A car that has just registered for a shaft. -/
def servingCar (lowest highest : CString 4) : ConnectedCar where
  name := .store 50 "Alpha".toList
  highestFloor := highest
  lowestFloor := lowest
  status := statusNames .Closed
  previousStatus := .store 8 "IDLE".toList
  currentfloor := lowest
  destinationfloor := lowest
  connectionsocket := 4
  queue := []
  currentDirection := .idle
  elevatorStatus := some .Closed

/-- The codec of floors is exact: a number comes back if and only if it is the
number of a floor, every label is printed again as it was, and numbers follow
one another as the floors do, so that the range tests on them ask whether one
floor lies below another. -/
theorem floor_codec_exact :
    (∀ floor : Int, FitsInt floor → floor ≠ -2147483648 →
      (stringToFloor (floorToString floor) = floor ↔
        -99 ≤ floor ∧ floor ≤ -1 ∨ 1 ≤ floor ∧ floor ≤ 999)) ∧
    (∀ label : CString 4, IsCanonical label →
      floorToString (stringToFloor label) = label) ∧
    (∀ first second : CString 4, IsCanonical first → IsCanonical second →
      (stringToFloor first < stringToFloor second ↔
        IsBelow first.chars second.chars)) ∧
    (∀ (car : ConnectedCar) (source destination : CString 4),
      IsCanonical car.lowestFloor → IsCanonical car.highestFloor →
      IsCanonical source → IsCanonical destination →
      (canServiceRequest car (stringToFloor source)
          (stringToFloor destination) = true ↔
        ¬ IsBelow source.chars car.lowestFloor.chars ∧
          ¬ IsBelow car.highestFloor.chars source.chars ∧
          ¬ IsBelow destination.chars car.lowestFloor.chars ∧
          ¬ IsBelow car.highestFloor.chars destination.chars)) ∧
    (∀ (lowest highest : CString 4) (shm : CarSharedData),
      IsCanonical lowest → IsCanonical highest → IsCanonical shm.destinationFloor →
      ((IsBelow highest.chars shm.destinationFloor.chars ∨
          IsBelow shm.destinationFloor.chars lowest.chars) ∧
        clampDestination lowest highest shm =
          { shm with destinationFloor := shm.currentFloor }) ∨
      ¬ (IsBelow highest.chars shm.destinationFloor.chars ∨
          IsBelow shm.destinationFloor.chars lowest.chars) ∧
        clampDestination lowest highest shm = shm) := by
  refine ⟨fun floor _ _ => stringToFloor_floorToString_iff floor, ?_, ?_, ?_, ?_⟩
  · intro label hlabel
    exact ((isLabel_iff_isCanonical label).mpr hlabel).floorToString_stringToFloor
  · intro first second hfirst hsecond
    exact (isBelow_iff_stringToFloor hfirst hsecond).symm
  · intro car source destination hlowest hhighest hsource hdestination
    exact canServiceRequest_iff_isBelow hlowest hhighest hsource hdestination
  · intro lowest highest shm hlowest hhighest hdestination
    rw [isBelow_iff_stringToFloor hhighest hdestination,
      isBelow_iff_stringToFloor hdestination hlowest, clampDestination_eq_ite]
    by_cases houtside : stringToFloor highest < stringToFloor shm.destinationFloor ∨
        stringToFloor shm.destinationFloor < stringToFloor lowest
    · exact Or.inl ⟨houtside, if_pos houtside⟩
    · exact Or.inr ⟨houtside, if_neg houtside⟩

/-- A shaft from B3 to 10: its lowest label, a request across the ground, and a
destination above it. -/
theorem floor_codec_exact_basement :
    let lowest := floorToString (-3)
    let highest := floorToString 10
    let shm := { initSharedData lowest with destinationFloor := floorToString 12 }
    (stringToFloor lowest = -3 ↔
      (-99 : Int) ≤ -3 ∧ (-3 : Int) ≤ -1 ∨ (1 : Int) ≤ -3 ∧ (-3 : Int) ≤ 999) ∧
    floorToString (stringToFloor lowest) = lowest ∧
    (stringToFloor lowest < stringToFloor highest ↔
      IsBelow lowest.chars highest.chars) ∧
    (canServiceRequest (servingCar lowest highest)
        (stringToFloor (floorToString (-1))) (stringToFloor (floorToString 2)) = true ↔
      ¬ IsBelow (floorToString (-1)).chars lowest.chars ∧
        ¬ IsBelow highest.chars (floorToString (-1)).chars ∧
        ¬ IsBelow (floorToString 2).chars lowest.chars ∧
        ¬ IsBelow highest.chars (floorToString 2).chars) ∧
    ((IsBelow highest.chars shm.destinationFloor.chars ∨
        IsBelow shm.destinationFloor.chars lowest.chars) ∧
      clampDestination lowest highest shm =
        { shm with destinationFloor := shm.currentFloor } ∨
    ¬ (IsBelow highest.chars shm.destinationFloor.chars ∨
        IsBelow shm.destinationFloor.chars lowest.chars) ∧
      clampDestination lowest highest shm = shm) := by
  have hcanonical (floor : Int) : IsCanonical (floorToString floor) :=
    (isLabel_iff_isCanonical _).mp (floorToString_isLabel floor)
  obtain ⟨hnumber, hlabel, horder, hrequest, hclamp⟩ := floor_codec_exact
  exact ⟨hnumber (-3) ⟨by decide, by decide⟩ (by decide), hlabel _ (hcanonical (-3)),
    horder _ _ (hcanonical (-3)) (hcanonical 10),
    hrequest (servingCar (floorToString (-3)) (floorToString 10)) _ _ (hcanonical (-3))
      (hcanonical 10) (hcanonical (-1)) (hcanonical 2),
    hclamp _ _ { initSharedData (floorToString (-3)) with
      destinationFloor := floorToString 12 } (hcanonical (-3)) (hcanonical 10)
      (hcanonical 12)⟩

section Decoder

/-- The `int` that a conversion stores: the number as a `long`, or the nearest
one there is, cut down to 32 bits. -/
def toInt (value : Int) : Int :=
  Int.bmod (max (-9223372036854775808) (min 9223372036854775807 value)) 4294967296

/-- `stringToFloor` on a string of any length. -/
def stringToFloorOf (floorlabel : List Char) : Int :=
  match floorlabel with
  | 'B' :: rest =>
      match scanInt rest with
      | some floor => toInt (-toInt floor)
      | none => intMin
  | text =>
      match scanInt text with
      | some floor => toInt floor
      | none => intMin

theorem toInt_of_fitsInt {value : Int} (hfits : FitsInt value) :
    toInt value = value := by
  unfold FitsInt at hfits
  rw [toInt, Int.bmod_def]
  split <;> omega

theorem fitsInt_toInt (value : Int) : FitsInt (toInt value) := by
  rw [FitsInt, toInt, Int.bmod_def]
  split <;> omega

theorem stringToFloorOf_basement (rest : List Char) :
    stringToFloorOf ('B' :: rest) =
      ((scanInt rest).map fun floor => toInt (-toInt floor)).getD intMin := by
  rw [stringToFloorOf]
  cases scanInt rest <;> rfl

theorem stringToFloorOf_regular {text : List Char}
    (htext : ∀ rest, text ≠ 'B' :: rest) :
    stringToFloorOf text = ((scanInt text).map toInt).getD intMin := by
  unfold stringToFloorOf
  split
  · rename_i rest
    exact absurd rfl (htext rest)
  · cases scanInt text <;> rfl

/-- What is scanned from a short text fits an `int`. -/
theorem fitsInt_of_scanInt {text : List Char} {floor : Int}
    (hlength : text.length ≤ 9) (hscan : scanInt text = some floor) :
    FitsInt floor ∧ FitsInt (-floor) := by
  have hbounds := scanInt_bounds (k := 8) hlength hscan
  unfold FitsInt
  omega

/-- On arrays it is the decoder that works on arrays. -/
theorem stringToFloorOf_chars {size : Nat} (label : CString size)
    (hlength : label.chars.length ≤ 9) :
    stringToFloorOf label.chars = stringToFloor label := by
  by_cases hbasement : ∃ rest, label.chars = 'B' :: rest
  · obtain ⟨rest, hchars⟩ := hbasement
    rw [stringToFloor_basement hchars, hchars, stringToFloorOf_basement]
    rw [hchars, List.length_cons] at hlength
    cases hscan : scanInt rest with
    | none => rfl
    | some floor =>
        obtain ⟨hfits, hneg⟩ := fitsInt_of_scanInt (by omega) hscan
        simp only [Option.map_some, Option.getD_some, toInt_of_fitsInt hfits,
          toInt_of_fitsInt hneg]
  · have hregular : ∀ rest, label.chars ≠ 'B' :: rest :=
      fun rest heq => hbasement ⟨rest, heq⟩
    rw [stringToFloor_regular hregular, stringToFloorOf_regular hregular]
    cases hscan : scanInt label.chars with
    | none => rfl
    | some floor =>
        obtain ⟨hfits, -⟩ := fitsInt_of_scanInt hlength hscan
        simp only [Option.map_some, Option.getD_some, toInt_of_fitsInt hfits]

theorem Names.stringToFloorOf_eq {text : List Char} {floor : Int}
    (hnames : Names text floor) : stringToFloorOf text = floor := by
  have hlength : text.length ≤ 3 := IsFloorLabel.length_le ⟨floor, hnames⟩
  obtain ⟨hfloor, rfl⟩ := (names_iff text floor).mp hnames
  rw [stringToFloorOf_chars _ (by omega), stringToFloor_floorToString hfloor]

/-- Where the number should stand, behind a `B` if there is one, none can be
scanned, or the one scanned is the error value itself. -/
def ReadsAsError (text : List Char) : Prop :=
  match text with
  | 'B' :: rest => ∀ floor ∈ scanInt rest, toInt floor = -intMin
  | text => ∀ floor ∈ scanInt text, toInt floor = intMin

theorem toInt_neg_eq_intMin_iff (value : Int) :
    toInt (-toInt value) = intMin ↔ toInt value = -intMin := by
  have hfits := fitsInt_toInt value
  unfold FitsInt at hfits
  generalize toInt value = stored at hfits
  rw [toInt, intMin, Int.bmod_def]
  split <;> omega

theorem stringToFloorOf_eq_intMin_iff (text : List Char) :
    stringToFloorOf text = intMin ↔ ReadsAsError text := by
  by_cases hbasement : ∃ rest, text = 'B' :: rest
  · obtain ⟨rest, rfl⟩ := hbasement
    rw [stringToFloorOf_basement]
    cases hscan : scanInt rest with
    | none => simp [ReadsAsError, hscan]
    | some floor => simp [ReadsAsError, hscan, toInt_neg_eq_intMin_iff]
  · have hregular : ∀ rest, text ≠ 'B' :: rest :=
      fun rest heq => hbasement ⟨rest, heq⟩
    have hreads : ReadsAsError text ↔ ∀ floor ∈ scanInt text, toInt floor = intMin := by
      unfold ReadsAsError
      split
      · exact absurd rfl (hregular _)
      · exact Iff.rfl
    rw [stringToFloorOf_regular hregular, hreads]
    cases hscan : scanInt text <;> simp

/-- The error value tells on the text what it should: a label is not the one
that decodes to it, and another text leaves the decoder nothing else. -/
def ErrorIsRight (text : List Char) : Prop :=
  (IsFloorLabel text → text ≠ "999".toList) ∧
    (¬ IsFloorLabel text → ReadsAsError text)

theorem names_top {text : List Char} (hnames : Names text intMin) :
    text = "999".toList := by
  obtain ⟨-, rfl⟩ := (names_iff text intMin).mp hnames
  decide

/-- The error value marks the texts that are no labels, as long as the text is
not the label of the top floor, which the error value is the number of, and no
text that the decoder makes a number of without its being a label.  Labels are
told apart. -/
theorem invalid_labels_recognised_iff (text : List Char) :
    ((stringToFloorOf text = intMin ↔ ¬ IsFloorLabel text) ↔ ErrorIsRight text) ∧
    ∀ other : List Char, IsFloorLabel text → IsFloorLabel other →
      text ≠ other → stringToFloorOf text ≠ stringToFloorOf other := by
  constructor
  · by_cases hlabel : IsFloorLabel text
    · simp only [ErrorIsRight, hlabel, not_true_eq_false, iff_false, true_implies,
        false_implies, and_true]
      obtain ⟨floor, hnames⟩ := hlabel
      rw [hnames.stringToFloorOf_eq]
      constructor
      · rintro hother rfl
        exact hother (hnames.unique (by decide))
      · rintro hother rfl
        exact hother (names_top hnames)
    · simp only [ErrorIsRight, hlabel, not_false_eq_true, iff_true, false_implies,
        true_implies, true_and]
      exact stringToFloorOf_eq_intMin_iff text
  · rintro other ⟨m, htext⟩ ⟨n, hother⟩ hne hsame
    rw [htext.stringToFloorOf_eq, hother.stringToFloorOf_eq] at hsame
    subst hsame
    obtain ⟨-, rfl⟩ := (names_iff text m).mp htext
    obtain ⟨-, rfl⟩ := (names_iff other m).mp hother
    exact hne rfl

/-- B1 and 1, which lie one above the other. -/
theorem invalid_labels_recognised_iff_ground :
    ((stringToFloorOf "B1".toList = intMin ↔ ¬ IsFloorLabel "B1".toList) ↔
        ErrorIsRight "B1".toList) ∧
      stringToFloorOf "B1".toList ≠ stringToFloorOf "1".toList :=
  ⟨(invalid_labels_recognised_iff "B1".toList).1,
    (invalid_labels_recognised_iff "B1".toList).2 "1".toList (by decide) (by decide)
      (by decide)⟩

theorem top_floor_reads_as_error :
    ¬ ∀ text : List Char, stringToFloorOf text = intMin ↔ ¬ IsFloorLabel text := by
  intro hall
  exact absurd ((hall "999".toList).mp (by decide)) (by decide)

end Decoder

section Validity

variable {size : Nat}

/-- At most three characters that are digits behind an optional `B`, but
either none of them or with a leading zero. -/
def LooseDigits (text : List Char) : Prop :=
  text.length ≤ 3 ∧ ∃ digits : List Char,
    (text = digits ∨ text = 'B' :: digits) ∧
      (∀ c ∈ digits, c.isDigit = true) ∧ (digits = [] ∨ digits.head? = some '0')

theorem isValidFloor_iff (floor : CString size) :
    isValidFloor floor = true ↔ floor.chars.length ≤ 3 ∧
      ∃ digits : List Char, (floor.chars = digits ∨ floor.chars = 'B' :: digits) ∧
        ∀ c ∈ digits, c.isDigit = true := by
  unfold isValidFloor
  split
  · rename_i rest hchars
    rw [hchars]
    constructor
    · intro hvalid
      split_ifs at hvalid with hlong
      exact ⟨by omega, rest, Or.inr rfl, List.all_eq_true.mp hvalid⟩
    · rintro ⟨hlength, digits, rfl | hdigits, hall⟩
      · have hdigit := hall 'B' List.mem_cons_self
        exact absurd hdigit (by decide)
      · rw [if_neg (by omega), List.all_eq_true, (List.cons.inj hdigits).2]
        exact hall
  · rename_i hregular
    constructor
    · intro hvalid
      split_ifs at hvalid with hlong
      exact ⟨by omega, floor.chars, Or.inl rfl, List.all_eq_true.mp hvalid⟩
    · rintro ⟨hlength, digits, hdigits | hdigits, hall⟩
      · rw [if_neg (by omega), List.all_eq_true, hdigits]
        exact hall
      · exact absurd hdigits (hregular digits)

/-- Digits without a leading zero, up to three of them or up to two behind a
`B`, are a label. -/
theorem isFloorLabel_of_digits {digits : List Char}
    (hall : ∀ c ∈ digits, c.isDigit = true) (hne : digits ≠ [])
    (hlead : digits.head? ≠ some '0') :
    (digits.length ≤ 3 → IsFloorLabel digits) ∧
      (digits.length ≤ 2 → IsFloorLabel ('B' :: digits)) := by
  obtain ⟨hpos, hvalue⟩ := toDigits_ofDigitChars hall hne hlead
  have hlt := ofDigitChars_lt_pow hall
  constructor
  · intro hlength
    have hpow : 10 ^ digits.length ≤ 10 ^ 3 :=
      Nat.pow_le_pow_right (by decide) hlength
    exact ⟨_, Or.inr ⟨_, hpos, by omega, hvalue.symm, rfl⟩⟩
  · intro hlength
    have hpow : 10 ^ digits.length ≤ 10 ^ 2 :=
      Nat.pow_le_pow_right (by decide) hlength
    exact ⟨_, Or.inl ⟨_, hpos, by omega, congrArg ('B' :: ·) hvalue.symm, rfl⟩⟩

theorem head?_toDigits_ne_zero {n : Nat} (hpos : 0 < n) :
    (Nat.toDigits 10 n).head? ≠ some '0' := by
  induction n using Nat.strongRecOn with
  | ind n ih =>
      by_cases hsmall : n < 10
      · rw [Nat.toDigits_of_lt_base hsmall]
        intro hzero
        have hn : n = 0 := Nat.digitChar_eq_zero.mp (Option.some.inj hzero)
        omega
      · rw [Nat.toDigits_of_base_le (by decide) (by omega), List.head?_append]
        have hfront := ih (n / 10) (by omega) (by omega)
        cases hdigits : Nat.toDigits 10 (n / 10) with
        | nil => exact absurd hdigits Nat.toDigits_ne_nil
        | cons c rest =>
            rw [hdigits] at hfront
            exact hfront

theorem IsFloorLabel.not_looseDigits {text : List Char}
    (hlabel : IsFloorLabel text) : ¬ LooseDigits text := by
  rintro ⟨-, digits, hdigits, hall, hloose⟩
  have hnot (n : Nat) (hpos : 0 < n) (heq : Nat.toDigits 10 n = digits) : False := by
    rcases hloose with hnil | hzero
    · exact Nat.toDigits_ne_nil (heq.trans hnil)
    · exact head?_toDigits_ne_zero hpos (heq ▸ hzero)
  obtain ⟨floor, ⟨n, hpos, -, rfl, -⟩ | ⟨n, hpos, -, rfl, -⟩⟩ := hlabel
  · rcases hdigits with hdigits | hdigits
    · have hmem : 'B' ∈ digits := hdigits ▸ List.mem_cons_self
      exact absurd (hall 'B' hmem) (by decide)
    · exact hnot n hpos (List.cons.inj hdigits).2
  · rcases hdigits with hdigits | hdigits
    · exact hnot n hpos hdigits
    · have hmem : 'B' ∈ Nat.toDigits 10 n := hdigits ▸ List.mem_cons_self
      exact absurd (Nat.isDigit_of_mem_toDigits (by decide) (by decide) hmem)
        (by decide)

/-- The check accepts the labels, and besides them the loose ones. -/
theorem isValidFloor_iff_label_or_loose (floor : CString size) :
    isValidFloor floor = true ↔
      IsFloorLabel floor.chars ∨ LooseDigits floor.chars := by
  rw [isValidFloor_iff]
  constructor
  · rintro ⟨hlength, digits, hdigits, hall⟩
    by_cases hloose : digits = [] ∨ digits.head? = some '0'
    · exact Or.inr ⟨hlength, digits, hdigits, hall, hloose⟩
    · obtain ⟨hne, hlead⟩ := not_or.mp hloose
      obtain ⟨hregular, hbasement⟩ := isFloorLabel_of_digits hall hne hlead
      left
      rcases hdigits with hdigits | hdigits <;> rw [hdigits] at hlength ⊢
      · exact hregular hlength
      · exact hbasement (Nat.le_of_succ_le_succ hlength)
  · rintro (hlabel | ⟨hlength, digits, hdigits, hall, -⟩)
    · have hlength := hlabel.length_le
      obtain ⟨-, ⟨n, -, -, hchars, -⟩ | ⟨n, -, -, hchars, -⟩⟩ := hlabel
      · exact ⟨hlength, _, Or.inr hchars, fun c hc =>
          Nat.isDigit_of_mem_toDigits (by decide) (by decide) hc⟩
      · exact ⟨hlength, _, Or.inl hchars, fun c hc =>
          Nat.isDigit_of_mem_toDigits (by decide) (by decide) hc⟩
    · exact ⟨hlength, digits, hdigits, hall⟩

/-- The check is exact on a string, and what it accepts decodes to the floor it
names, exactly when the string is not a loose one. -/
theorem isValidFloor_exact_iff (floor : CString size) :
    ((isValidFloor floor = true ↔ IsFloorLabel floor.chars) ∧
        (isValidFloor floor = true →
          ∃ n, Names floor.chars n ∧ stringToFloorOf floor.chars = n)) ↔
      ¬ LooseDigits floor.chars := by
  rw [isValidFloor_iff_label_or_loose]
  constructor
  · rintro ⟨hexact, -⟩ hloose
    exact (hexact.mp (Or.inr hloose)).not_looseDigits hloose
  · intro hloose
    have hexact : IsFloorLabel floor.chars ∨ LooseDigits floor.chars ↔
        IsFloorLabel floor.chars := or_iff_left hloose
    refine ⟨hexact, fun hvalid => ?_⟩
    obtain ⟨n, hnames⟩ := hexact.mp hvalid
    exact ⟨n, hnames, hnames.stringToFloorOf_eq⟩

/-- The empty string passes for a floor, and decodes to the error value. -/
theorem empty_floor_is_valid :
    ¬ ∀ (size : Nat) (floor : CString size),
      isValidFloor floor = true ↔ IsFloorLabel floor.chars := by
  intro hall
  exact absurd ((hall 4 ⟨[], by decide⟩).mp (by decide)) (by decide)

end Validity

end Elevator
