/-
The shaft.  A trip is a number of one-floor moves fixed when the destination
was compared with the current floor; it is safe exactly when the storey it will
end on lies in the shaft, whatever becomes of the destination afterwards.
-/
import Elevator.Car
import Elevator.Floor

namespace Elevator

open CText Transition

/-- The current floor decodes to a floor between the lowest and the highest. -/
def InShaft (car : CarState) : Prop :=
  stringToFloor car.lowestFloor ≤ stringToFloor car.data.currentFloor ∧
    stringToFloor car.data.currentFloor ≤ stringToFloor car.highestFloor

instance (car : CarState) : Decidable (InShaft car) :=
  inferInstanceAs (Decidable (_ ∧ _))

/-- Other processes write what they like, except the current floor. -/
def CurrentFloorLeftAlone : CarAction → Prop
  | .external edit => ∀ shm, (edit shm).currentFloor = shm.currentFloor
  | _ => True

/-- The storey reached from a floor by a trip of `floordiff` moves is one of
the storeys between two floors. -/
def EndsBetween (low high fromFloor floordiff : Int) : Prop :=
  storey low ≤ storey fromFloor + floordiff ∧
    storey fromFloor + floordiff ≤ storey high

instance (low high fromFloor floordiff : Int) :
    Decidable (EndsBetween low high fromFloor floordiff) :=
  inferInstanceAs (Decidable (_ ∧ _))

/-- The trip the process thread makes next if it finds the doors closed: the
difference of the two floors it read at the top of its loop. -/
def ProcessPc.nextTrip : ProcessPc → Option Int
  | .checkClosed floordiff => some floordiff
  | _ => none

/-- Whenever the process thread finds the doors closed and sets off, the trip
before it ends in the shaft. -/
def TripInShaft (car : CarState) : CarAction → Prop
  | .process =>
      ∀ floordiff ∈ car.process.nextTrip,
        readCarStatus car.data = some .Closed →
          EndsBetween (stringToFloor car.lowestFloor)
            (stringToFloor car.highestFloor)
            (stringToFloor car.data.currentFloor) floordiff
  | _ => True

instance tripInShaftDecidable (car : CarState) :
    (action : CarAction) → Decidable (TripInShaft car action)
  | .process => Option.decidableForallMem _
  | .doorcontrol => isTrue trivial
  | .floor _ => isTrue trivial
  | .external _ => isTrue trivial

/-- The signed number of moves left after `done` moves of a trip. -/
def movesLeft (floordiff : Int) (done : Nat) : Int :=
  if 0 < floordiff then floordiff - done else floordiff + done

/-- The moves the process thread is still committed to. -/
def ProcessPc.movesLeft : ProcessPc → Int
  | .setBetween floordiff i | .lowerFlag floordiff i | .move floordiff i =>
      Elevator.movesLeft floordiff i
  | .setClosed floordiff i | .raiseFlag floordiff i =>
      Elevator.movesLeft floordiff (i + 1)
  | _ => 0

/-- The loop counter is in range inside the loop body. -/
def ProcessPc.Counting : ProcessPc → Prop
  | .setBetween floordiff i | .lowerFlag floordiff i | .move floordiff i
  | .setClosed floordiff i | .raiseFlag floordiff i => i < floordiff.natAbs
  | _ => True

/-- The car stands on a floor of its shaft, and so does the end of the trip it
is on. -/
structure OnTrip (car : CarState) : Prop where
  lowest : IsFloor (stringToFloor car.lowestFloor)
  highest : IsFloor (stringToFloor car.highestFloor)
  label : IsLabel car.data.currentFloor
  here : EndsBetween (stringToFloor car.lowestFloor)
    (stringToFloor car.highestFloor) (stringToFloor car.data.currentFloor) 0
  there : EndsBetween (stringToFloor car.lowestFloor)
    (stringToFloor car.highestFloor) (stringToFloor car.data.currentFloor)
    car.process.movesLeft
  counting : car.process.Counting

theorem OnTrip.inShaft {car : CarState} (htrip : OnTrip car) : InShaft car := by
  have hcurrent := (isFloor_stringToFloor htrip.label).ne_zero
  obtain ⟨habove, hbelow⟩ := htrip.here
  rw [Int.add_zero] at habove hbelow
  exact ⟨(storey_le_iff htrip.lowest.ne_zero hcurrent).mp habove,
    (storey_le_iff hcurrent htrip.highest.ne_zero).mp hbelow⟩

/-- A step that keeps the current floor and the range keeps the invariant as
long as it commits the car to no unsafe trip. -/
theorem OnTrip.of_same {before after : CarState} (htrip : OnTrip before)
    (hlowest : after.lowestFloor = before.lowestFloor)
    (hhighest : after.highestFloor = before.highestFloor)
    (hcurrent : after.data.currentFloor = before.data.currentFloor)
    (hthere : EndsBetween (stringToFloor before.lowestFloor)
      (stringToFloor before.highestFloor)
      (stringToFloor before.data.currentFloor) after.process.movesLeft)
    (hcounting : after.process.Counting) : OnTrip after where
  lowest := hlowest ▸ htrip.lowest
  highest := hhighest ▸ htrip.highest
  label := hcurrent ▸ htrip.label
  here := by rw [hlowest, hhighest, hcurrent]; exact htrip.here
  there := by rw [hlowest, hhighest, hcurrent]; exact hthere
  counting := hcounting

/-- The trip's next move, in storeys: it stays between where the car is and
where the trip ends. -/
theorem onTrip_move {car : CarState} (htrip : OnTrip car) {floordiff : Int}
    {i : Nat} (hpc : car.process = .move floordiff i) :
    OnTrip (processStep car) := by
  obtain ⟨hlowest, hhighest, hlabel, here, there, hcounting⟩ := htrip
  have hcurrent := (isFloor_stringToFloor hlabel).ne_zero
  have hi : i < floordiff.natAbs := by rw [hpc] at hcounting; exact hcounting
  have hstorey := storey_movedFloor hcurrent (if 0 < floordiff then 1 else -1)
  have hne := movedFloor_ne_zero hcurrent (if 0 < floordiff then 1 else -1)
  rw [hpc] at there
  simp only [EndsBetween, ProcessPc.movesLeft, movesLeft, Int.add_zero] at here there
  have habove : storey (stringToFloor car.lowestFloor) ≤
      storey (movedFloor (stringToFloor car.data.currentFloor)
        (if 0 < floordiff then 1 else -1)) := by
    rw [hstorey]; split_ifs at there ⊢ <;> omega
  have hbelow : storey (movedFloor (stringToFloor car.data.currentFloor)
      (if 0 < floordiff then 1 else -1)) ≤
        storey (stringToFloor car.highestFloor) := by
    rw [hstorey]; split_ifs at there ⊢ <;> omega
  have hfloor := isFloor_of_storey_between hlowest hhighest hne habove hbelow
  have hdecode := stringToFloor_floorToString hfloor
  refine ⟨by simpa [processStep, hpc], by simpa [processStep, hpc], ?_, ?_, ?_, ?_⟩
  · simpa [processStep, hpc] using isLabel_floorToString hfloor
  · simpa [processStep, hpc, EndsBetween, hdecode] using ⟨habove, hbelow⟩
  · simp only [processStep, hpc, edit_moveCurrent, EndsBetween, hdecode, hstorey,
      ProcessPc.movesLeft, movesLeft]
    split_ifs at there ⊢ <;> omega
  · simpa [processStep, hpc, ProcessPc.Counting] using hi

theorem moveLoop_movesLeft (floordiff : Int) (i : Nat) (hi : i ≤ floordiff.natAbs) :
    (moveLoop floordiff i).movesLeft = movesLeft floordiff i := by
  unfold moveLoop
  split
  · rfl
  · simp only [ProcessPc.movesLeft, movesLeft]
    split <;> omega

theorem moveLoop_counting (floordiff : Int) (i : Nat) :
    (moveLoop floordiff i).Counting := by
  unfold moveLoop
  split
  · assumption
  · trivial

theorem processStep_counting {car : CarState} (hcounting : car.process.Counting) :
    (processStep car).process.Counting := by
  cases hpc : car.process with
  | checkClosed floordiff =>
      simp only [processStep, hpc]
      split
      · exact moveLoop_counting floordiff 0
      · trivial
  | raiseFlag floordiff i =>
      simpa [processStep, hpc] using moveLoop_counting floordiff (i + 1)
  | setBetween floordiff i | lowerFlag floordiff i | move floordiff i
  | setClosed floordiff i =>
      rw [hpc] at hcounting
      simp only [processStep, hpc]
      exact hcounting
  | checkSend atDestination floordiff =>
      simp only [processStep, hpc]
      split_ifs <;> trivial
  | arrived frame | serve frame =>
      cases hframe : (operateDoorStep car.data frame).2 <;>
        simp [processStep, hpc, hframe, ProcessPc.Counting]
  | start | top | clearSend => simp [processStep, hpc, ProcessPc.Counting]

/-- The process thread commits itself where it sets off, and redeems it with
its moves. -/
theorem processStep_movesLeft {car : CarState} (hcounting : car.process.Counting)
    (hstays : ∀ floordiff i, car.process ≠ .move floordiff i)
    (hwaits : ∀ floordiff ∈ car.process.nextTrip,
      readCarStatus car.data ≠ some .Closed) :
    (processStep car).process.movesLeft = car.process.movesLeft := by
  cases hpc : car.process with
  | move floordiff i => exact absurd hpc (hstays floordiff i)
  | checkClosed floordiff =>
      have hopen := hwaits floordiff (by rw [hpc]; rfl)
      simp [processStep, hpc, hopen, ProcessPc.movesLeft]
  | raiseFlag floordiff i =>
      rw [hpc] at hcounting
      simp only [processStep, hpc]
      exact moveLoop_movesLeft floordiff (i + 1) hcounting
  | checkSend atDestination floordiff =>
      simp only [processStep, hpc]
      split_ifs <;> rfl
  | arrived frame | serve frame =>
      cases hframe : (operateDoorStep car.data frame).2 <;>
        simp [processStep, hpc, hframe, ProcessPc.movesLeft]
  | _ => simp [processStep, hpc, ProcessPc.movesLeft]

theorem onTrip_process {car : CarState} (htrip : OnTrip car)
    (hguard : TripInShaft car .process) : OnTrip (processStep car) := by
  have hrange := carStep_range car .process
  have hcounting := processStep_counting htrip.counting
  by_cases hmove : ∃ floordiff i, car.process = .move floordiff i
  · obtain ⟨floordiff, i, hpc⟩ := hmove
    exact onTrip_move htrip hpc
  have hstays : ∀ floordiff i, car.process ≠ .move floordiff i :=
    fun floordiff i hpc => hmove ⟨floordiff, i, hpc⟩
  have hcurrent := processStep_currentFloor hstays
  refine htrip.of_same hrange.1 hrange.2 hcurrent ?_ hcounting
  by_cases hsets : ∃ floordiff ∈ car.process.nextTrip,
      readCarStatus car.data = some .Closed
  · obtain ⟨floordiff, htrips, hclosed⟩ := hsets
    have hend := hguard floordiff htrips hclosed
    cases hpc : car.process with
    | checkClosed difference =>
        obtain rfl : difference = floordiff := by
          simpa [hpc, ProcessPc.nextTrip] using htrips
        simpa [processStep, hpc, hclosed, moveLoop_movesLeft, movesLeft] using hend
    | _ => simp [hpc, ProcessPc.nextTrip] at htrips
  · rw [processStep_movesLeft htrip.counting hstays
      fun floordiff htrips hclosed => hsets ⟨floordiff, htrips, hclosed⟩]
    exact htrip.there

theorem onTrip_step (car : CarState) (action : CarAction) (htrip : OnTrip car)
    (hguard : CurrentFloorLeftAlone action ∧ TripInShaft car action) :
    OnTrip (carStep car action) := by
  obtain ⟨hlowest, hhighest⟩ := carStep_range car action
  -- where the process thread stands is its own business
  have hkeep : (carStep car action).data.currentFloor = car.data.currentFloor →
      (carStep car action).process = car.process → OnTrip (carStep car action) := by
    intro hcurrent hprocess
    exact htrip.of_same hlowest hhighest hcurrent (hprocess ▸ htrip.there)
      (hprocess ▸ htrip.counting)
  cases action with
  | process => exact onTrip_process htrip hguard.2
  | doorcontrol =>
      exact hkeep (doorcontrolStep_sameButDoors car).currentFloor
        (doorcontrolStep_process car)
  | floor label =>
      exact hkeep (by simp [carStep, receiveFloor_data])
        (receiveFloor_process car label)
  | external edit => exact hkeep (hguard.1 car.data) rfl

theorem onTrip_start {lowest highest : CString 4} (hlowest : IsLabel lowest)
    (hhighest : IsLabel highest)
    (horder : stringToFloor lowest ≤ stringToFloor highest) (readFlag : Int) :
    OnTrip (startCar lowest highest readFlag) := by
  have hlow := isFloor_stringToFloor hlowest
  have hhigh := isFloor_stringToFloor hhighest
  have hstorey := (storey_le_iff hlow.ne_zero hhigh.ne_zero).mpr horder
  have hhere : EndsBetween (stringToFloor lowest) (stringToFloor highest)
      (stringToFloor lowest) 0 := by
    constructor <;> omega
  exact ⟨hlow, hhigh, hlowest, hhere, hhere, trivial⟩

/-- A car whose trips all end in the shaft never leaves it, not even on the
floors a trip passes. -/
theorem inShaft_of_tripsInShaft {lowest highest : CString 4}
    (hlowest : IsLabel lowest) (hhighest : IsLabel highest)
    (horder : stringToFloor lowest ≤ stringToFloor highest) (readFlag : Int)
    (actions : List CarAction)
    (hguard : Along carStep
      (fun car action => CurrentFloorLeftAlone action ∧ TripInShaft car action)
      (startCar lowest highest readFlag) actions) :
    Always carStep InShaft (startCar lowest highest readFlag) actions :=
  always_of_invariant onTrip_step (fun _ htrip => htrip.inShaft)
    (onTrip_start hlowest hhighest horder readFlag) hguard

/-- Ordered from floor 1 to floor 5, its highest, and back down. -/
theorem inShaft_of_floors_in_range :
    Always carStep InShaft demoCar
      ([.process, .floor (floorToString 5)] ++ List.replicate 50 .process ++
        [.floor (floorToString 1)] ++ List.replicate 50 .process) :=
  inShaft_of_tripsInShaft ⟨1, by decide, rfl⟩ ⟨5, by decide, rfl⟩ (by decide) 0 _ <|
    (along_of_forall_mem (by
      simp [CurrentFloorLeftAlone, or_imp, forall_and])).and (by decide)

/-- A passenger's destination beyond the shaft. -/
def requestedBeyond : List CarAction :=
  [.process, .external fun shm => { shm with destinationFloor := floorToString 9 }] ++
    List.replicate 28 .process

/-- The range check resets the destination, and the car drives to floor 6 of a
shaft of five on the difference it had computed before. -/
theorem leaves_shaft_beyond_range :
    (∀ action ∈ requestedBeyond, CurrentFloorLeftAlone action) ∧
      ¬ Always carStep InShaft demoCar requestedBeyond := by
  constructor
  · simp [requestedBeyond, CurrentFloorLeftAlone, or_imp, forall_and]
  · intro halways
    exact absurd halways.final (by decide)

end Elevator
