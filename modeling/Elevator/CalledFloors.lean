/-
Where the car stops.  Its doors are operated where it started and on floors that
somebody has asked it for, wherever the steps of its threads, orders and reports
under way and other clients fall.
-/
import Elevator.LinkedShaft

namespace Elevator

open CText Framing Transition

/-- A trip of so many moves from a floor ends on a floor of `P`. -/
def EndsOn (P : Int → Prop) (fromFloor floordiff : Int) : Prop :=
  ∃ floor, IsFloor floor ∧ P floor ∧ storey fromFloor + floordiff = storey floor

def CarState.OperatesDoors (car : CarState) : Prop :=
  ∃ frame, car.process = .arrived frame ∨ car.process = .serve frame

structure AtHome (car : CarState) : Prop where
  movesLeft : car.process.movesLeft = 0
  planned : car.process.planned = none
  destination : car.data.destinationFloor = car.data.currentFloor

/-- The car heads for floors of `P`: its trip ends on one, so does the one it
has worked out, and its destination is one. -/
structure Aims (P : Int → Prop) (car : CarState) : Prop where
  there : EndsOn P (stringToFloor car.data.currentFloor) car.process.movesLeft
  planned : ∀ floordiff ∈ car.process.planned,
    EndsOn P (stringToFloor car.data.currentFloor) floordiff
  destination : P (stringToFloor car.data.destinationFloor)

section CarSteps

variable {lowest highest : CString 4} {P : Int → Prop} {car : CarState}

theorem EndsOn.here {fromFloor : Int} (hfrom : IsFloor fromFloor)
    (hends : EndsOn P fromFloor 0) : P fromFloor := by
  obtain ⟨floor, hfloor, hP, hstorey⟩ := hends
  rw [Int.add_zero] at hstorey
  have hle := (storey_le_iff hfrom.ne_zero hfloor.ne_zero).mp hstorey.le
  have hge := (storey_le_iff hfloor.ne_zero hfrom.ne_zero).mp hstorey.ge
  rwa [Int.le_antisymm hle hge]

theorem endsOn_here {floor : Int} (hfloor : IsFloor floor) (hP : P floor) :
    EndsOn P floor 0 :=
  ⟨floor, hfloor, hP, Int.add_zero _⟩

/-- A move takes the car one storey on along its trip. -/
theorem OnTrip.move_storey (htrip : OnTrip car) {floordiff : Int} {i : Nat}
    (hpc : car.process = .move floordiff i) :
    storey (stringToFloor (processStep car).data.currentFloor) =
      storey (stringToFloor car.data.currentFloor) +
        if 0 < floordiff then 1 else -1 := by
  obtain ⟨hlowest, hhighest, hlabel, here, there, hcounting⟩ := htrip
  have hcurrent := (isFloor_stringToFloor hlabel).ne_zero
  have hi : i < floordiff.natAbs := by rw [hpc] at hcounting; exact hcounting
  have hstorey := storey_movedFloor hcurrent (if 0 < floordiff then 1 else -1)
  rw [hpc] at there
  simp only [EndsBetween, ProcessPc.movesLeft, movesLeft, Int.add_zero] at here there
  have hfloor : IsFloor (movedFloor (stringToFloor car.data.currentFloor)
      (if 0 < floordiff then 1 else -1)) := by
    apply isFloor_of_storey_between hlowest hhighest (movedFloor_ne_zero hcurrent _)
    · rw [hstorey]; split_ifs at there ⊢ <;> omega
    · rw [hstorey]; split_ifs at there ⊢ <;> omega
  rw [processStep_data, hpc]
  simp only [stringToFloor_floorToString hfloor, hstorey]

/-- The end of the trip stays where it is until the next one is begun. -/
theorem OnTrip.process_end (htrip : OnTrip car) :
    storey (stringToFloor (processStep car).data.currentFloor) +
          (processStep car).process.movesLeft =
        storey (stringToFloor car.data.currentFloor) + car.process.movesLeft ∨
      ∃ floordiff ∈ car.process.planned,
        storey (stringToFloor (processStep car).data.currentFloor) +
            (processStep car).process.movesLeft =
          storey (stringToFloor car.data.currentFloor) + floordiff := by
  by_cases hmove : ∃ floordiff i, car.process = .move floordiff i
  · obtain ⟨floordiff, i, hpc⟩ := hmove
    left
    rw [htrip.move_storey hpc]
    simp only [processStep, hpc, ProcessPc.movesLeft, movesLeft]
    split_ifs <;> omega
  have hstays : ∀ floordiff i, car.process ≠ .move floordiff i :=
    fun floordiff i hpc => hmove ⟨floordiff, i, hpc⟩
  rw [processStep_currentFloor hstays]
  by_cases hsets : ∃ floordiff ∈ car.process.nextTrip,
      readCarStatus car.data = some .Closed
  · obtain ⟨floordiff, htrips, hclosed⟩ := hsets
    cases hpc : car.process with
    | checkClosed difference =>
        right
        refine ⟨difference, rfl, ?_⟩
        simp [processStep, hpc, hclosed, moveLoop_movesLeft, movesLeft]
    | _ => simp [hpc, ProcessPc.nextTrip] at htrips
  · left
    rw [processStep_movesLeft htrip.counting hstays
      fun floordiff htrips hclosed => hsets ⟨floordiff, htrips, hclosed⟩]

theorem Aims.process (hsided : OneSided lowest highest)
    (hbound : Bound lowest highest car) (haims : Aims P car) :
    Aims P (processStep car) := by
  constructor
  · rcases hbound.trip.process_end with hsame | ⟨floordiff, hplanned, hbegun⟩
    · rw [EndsOn, hsame]
      exact haims.there
    · rw [EndsOn, hbegun]
      exact haims.planned floordiff hplanned
  · intro floordiff hfloordiff
    obtain ⟨hcurrent, hold | rfl⟩ := processStep_planned hfloordiff
    · rw [hcurrent]
      exact haims.planned floordiff hold
    · rw [hcurrent]
      exact ⟨stringToFloor car.data.destinationFloor,
        hsided.isFloor hbound.destination.1 hbound.destination.2,
        haims.destination, hsided.storey_sub hbound.here hbound.destination⟩
  · by_cases htop : car.process = .top
    · rw [processStep_data, htop]
      simp only [hbound.low, hbound.high, clampDestination_of_between
        hbound.destination]
      exact haims.destination
    · rw [processStep_destinationFloor htop]
      exact haims.destination

theorem Aims.of_same (haims : Aims P car) {after : CarState}
    (hcurrent : after.data.currentFloor = car.data.currentFloor)
    (hprocess : after.process = car.process)
    (hdestination : P (stringToFloor after.data.destinationFloor)) :
    Aims P after where
  there := by
    rw [hcurrent, hprocess]
    exact haims.there
  planned := by
    rw [hcurrent, hprocess]
    exact haims.planned
  destination := hdestination

/-- Orders are for floors of `P`, and other processes leave both floors alone. -/
def HeadsFor (P : Int → Prop) : CarAction → Prop
  | .floor label => P (stringToFloor label)
  | .external edit => ∀ shm, (edit shm).currentFloor = shm.currentFloor ∧
      (edit shm).destinationFloor = shm.destinationFloor
  | _ => True

theorem Aims.step (hsided : OneSided lowest highest)
    (hbound : Bound lowest highest car) (haims : Aims P car) {action : CarAction}
    (hguard : HeadsFor P action) : Aims P (carStep car action) := by
  cases action with
  | process => exact haims.process hsided hbound
  | doorcontrol =>
      have hsame := doorcontrolStep_sameButDoors car
      apply haims.of_same hsame.currentFloor (doorcontrolStep_process car)
      rw [hsame.destinationFloor]
      exact haims.destination
  | floor label =>
      apply haims.of_same _ (receiveFloor_process car label)
      · simp only [receiveFloor_data]
        split
        · exact hguard
        · exact haims.destination
      · simp only [receiveFloor_data]
  | external edit =>
      obtain ⟨hcurrent, hdestination⟩ := hguard car.data
      apply @Aims.of_same P car haims (carStep car (.external edit)) hcurrent rfl
      simp only [carStep, hdestination]
      exact haims.destination

theorem AtHome.aims (hhome : AtHome car) (htrip : OnTrip car)
    (hP : P (stringToFloor car.data.currentFloor)) : Aims P car where
  there := by
    rw [hhome.movesLeft]
    exact endsOn_here (isFloor_stringToFloor htrip.label) hP
  planned := by simp [hhome.planned]
  destination := hhome.destination ▸ hP

/-- The car operates its doors between its trips. -/
theorem Aims.operatesDoors (haims : Aims P car) (htrip : OnTrip car)
    (hdoors : car.OperatesDoors) : P (stringToFloor car.data.currentFloor) := by
  apply EndsOn.here (isFloor_stringToFloor htrip.label)
  obtain ⟨frame, hframe | hframe⟩ := hdoors
  · have hthere := haims.there
    rwa [hframe] at hthere
  · have hthere := haims.there
    rwa [hframe] at hthere

end CarSteps

section LinkSteps

variable {carname : CString 256} {lowest highest : CString 4} {P : Int → Prop}
  {socket : Int} {link : Link}

/-- Other processes leave both floors of the segment alone, and the handler's
local record has no stops when the car registers. -/
def LeavesFloors (link : Link) : LinkAction → Prop
  | .car (.external edit) => ∀ shm, (edit shm).currentFloor = shm.currentFloor ∧
      (edit shm).destinationFloor = shm.destinationFloor
  | .handle stale _ => link.handled = 0 → stale.fresh.queue = []
  | _ => True

theorem LeavesFloors.staysInShaft {action : LinkAction}
    (hleaves : LeavesFloors link action) :
    StaysInShaft lowest highest link action := by
  cases action with
  | car own =>
      cases own with
      | external edit =>
          intro shm
          obtain ⟨hcurrent, hdestination⟩ := hleaves shm
          exact ⟨hcurrent, fun hbetween => by rwa [hdestination]⟩
      | tcp outcome => trivial
      | process => trivial
      | doorcontrol => trivial
  | handle stale outcome => exact hleaves
  | cutShort length body stale outcome => trivial
  | hangUp => trivial
  | fails => trivial
  | client event => trivial

/-- The invariant over the link: car, orders and stops are for floors of `P` in
the shaft. -/
structure CalledKept (name : CString 50) (lowest highest : CString 4)
    (P : Int → Prop) (link : Link) : Prop where
  shaft : ShaftKept name lowest highest link
  aims : Aims P link.session.tcp.car
  called : Sanctioned name lowest highest
    (fun floor => InRange lowest highest floor ∧ P floor) link

theorem CalledKept.decodes {name : CString 50} (hsided : OneSided lowest highest)
    (hkept : CalledKept name lowest highest P link) :
    ∀ label ∈ link.orders, P (stringToFloor label) := by
  intro label hlabel
  obtain ⟨floor, ⟨hrange, hP⟩, rfl⟩ := hkept.called.orders label hlabel
  rwa [stringToFloor_floorToString (hsided.isFloor hrange.1 hrange.2)]

theorem CalledKept.car (hsided : OneSided lowest highest)
    (hkept : CalledKept (.store 50 carname.chars) lowest highest P link)
    {action : TcpAction} (hwhole : ReadsWholeOrders link (.car action))
    (hguard : LeavesFloors link (.car action)) :
    Aims P (linkStep socket link (.car action)).session.tcp.car := by
  have hstep (action : CarAction) (hheads : HeadsFor P action) :
      Aims P (carStep link.session.tcp.car action) :=
    hkept.aims.step hsided hkept.shaft.bound hheads
  cases action with
  | process => exact hstep .process trivial
  | doorcontrol => exact hstep .doorcontrol trivial
  | external edit => exact hstep (.external edit) hguard
  | tcp outcome =>
      rcases @linkStep_tcp outcome socket link hwhole with
        ⟨hcar, -⟩ | ⟨label, rest, horders, -, hcar⟩
      · rw [hcar]
        exact hkept.aims
      · rw [hcar]
        have hlabel : label ∈ link.orders := horders ▸ List.mem_cons_self
        exact hstep (.floor label) (hkept.decodes hsided label hlabel)

theorem CalledKept.step (hsided : OneSided lowest highest)
    (hcar : (CarMessage.car carname lowest highest).IsReadable)
    (hjoined : Joined carname lowest highest socket link)
    (hkept : CalledKept (.store 50 carname.chars) lowest highest P link)
    (hnonneg : 0 ≤ socket) {action : LinkAction}
    (hwithin : WithinConnection (.store 50 carname.chars) socket link action)
    (hwhole : ReadsWholeOrders link action) (hleaves : LeavesFloors link action)
    (hasks : ∀ request ∈ link.requests (.store 50 carname.chars) action,
      P request.1 ∧ P request.2) :
    CalledKept (.store 50 carname.chars) lowest highest P
      (linkStep socket link action) := by
  have hempty : RegistersEmpty link action := by
    cases action with
    | handle stale outcome => exact hleaves
    | _ => trivial
  refine ⟨hkept.shaft.step hsided hcar hjoined hnonneg hwithin hwhole
    hleaves.staysInShaft, ?_, hkept.called.step hcar hjoined hnonneg hwithin hempty ?_⟩
  · by_cases hown : ∃ own, action = .car own
    · obtain ⟨own, rfl⟩ := hown
      exact hkept.car hsided hwhole hleaves
    · rw [linkStep_car action fun own heq => hown ⟨own, heq⟩]
      exact hkept.aims
  · intro request hrequest floor hfloor hrange
    obtain ⟨hfirst, hsecond⟩ := hasks request hrequest
    rcases hfloor with rfl | rfl
    · exact ⟨hrange, hfirst⟩
    · exact ⟨hrange, hsecond⟩

end LinkSteps

/-- The floor is where the car started, or one of a request. -/
def CalledTo (start : Int) (requests : List (Int × Int)) (floor : Int) : Prop :=
  floor = start ∨ ∃ request ∈ requests, floor = request.1 ∨ floor = request.2

section Results

variable {carname : CString 256} {lowest highest : CString 4} {socket : Int}
  {link : Link}

/-- Alpha is called to floor 3, drives there and opens its doors. -/
def alphaOpens : List LinkAction :=
  alphaDrives ++ List.replicate 3 (.car .process)

theorem leaves_alphaOpens : Along (linkStep 4) (fun link action =>
    WithinConnection (.store 50 "Alpha".toList) 4 link action ∧
      ReadsWholeOrders link action ∧ LeavesFloors link action)
    connectedAlpha alphaOpens := by
  have hprocess (n : Nat) (link : Link) : Along (linkStep 4) (fun link action =>
      WithinConnection (.store 50 "Alpha".toList) 4 link action ∧
        ReadsWholeOrders link action ∧ LeavesFloors link action) link
      (List.replicate n (.car .process)) := by
    apply (along_of_forall_mem fun _ => List.eq_of_mem_replicate).mono
    rintro link action rfl
    exact ⟨⟨rfl, trivial⟩, trivial, trivial⟩
  have hidle := keepsReadable_idleNetwork
  have hnothing (link : Link) : ReadsWholeOrders link (.car idleNetwork) :=
    readsWholeOrders_of_nothing link rfl
  have horder : KeepsReadable (orderArrives (floorToString 3)) :=
    keepsReadable_orderArrives (floorToString_isLabel 3).isOperand
  apply along_append.mpr
  refine ⟨along_append.mpr ⟨?_, hprocess 12 _⟩, hprocess 3 _⟩
  exact ⟨⟨⟨rfl, hidle⟩, hnothing _, trivial⟩, ⟨⟨rfl, trivial⟩, trivial, trivial⟩,
    ⟨trivial, trivial, fun _ => rfl⟩, ⟨trivial, trivial, fun _ => rfl⟩,
    ⟨⟨by decide, sparesName_call _ _ (by decide)⟩, trivial, trivial⟩,
    ⟨⟨rfl, hidle⟩, hnothing _, trivial⟩,
    ⟨⟨rfl, horder⟩, fun _ => ⟨floorToString 3, by decide, rfl⟩, trivial⟩, trivial⟩

end Results

end Elevator
