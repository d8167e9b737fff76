/-
The shaft, over the whole link.  The controller only queues requests that the
car serves and only orders stops it has queued, so no order sends the car out of
a shaft on one side of the ground, whatever is under way when it comes.
-/
import Elevator.OrderFlow
import Elevator.Shaft

namespace Elevator

open CText Framing Transition

def LabelBetween (lowest highest label : CString 4) : Prop :=
  stringToFloor lowest ≤ stringToFloor label ∧
    stringToFloor label ≤ stringToFloor highest

/-- The shaft is all above the ground or all below it. -/
structure OneSided (lowest highest : CString 4) : Prop where
  low : IsLabel lowest
  high : IsLabel highest
  side : 0 < stringToFloor lowest ∨ stringToFloor highest < 0

section Floors

variable {lowest highest : CString 4} {floor : Int}

/-- Between two floors on one side every number is a floor. -/
theorem OneSided.isFloor (hsided : OneSided lowest highest)
    (hlow : stringToFloor lowest ≤ floor) (hhigh : floor ≤ stringToFloor highest) :
    IsFloor floor := by
  have hlowest := isFloor_stringToFloor hsided.low
  have hhighest := isFloor_stringToFloor hsided.high
  have hside := hsided.side
  unfold IsFloor at *
  omega

theorem OneSided.storey_sub (hsided : OneSided lowest highest)
    {fromFloor toFloor : Int}
    (hfrom : stringToFloor lowest ≤ fromFloor ∧ fromFloor ≤ stringToFloor highest)
    (hto : stringToFloor lowest ≤ toFloor ∧ toFloor ≤ stringToFloor highest) :
    storey fromFloor + (toFloor - fromFloor) = storey toFloor := by
  have hside := hsided.side
  simp only [storey]
  split_ifs <;> omega

/-- The way to a floor of the shaft ends in the shaft. -/
theorem OneSided.endsBetween (hsided : OneSided lowest highest)
    {fromFloor toFloor : Int}
    (hfrom : stringToFloor lowest ≤ fromFloor ∧ fromFloor ≤ stringToFloor highest)
    (hto : stringToFloor lowest ≤ toFloor ∧ toFloor ≤ stringToFloor highest) :
    EndsBetween (stringToFloor lowest) (stringToFloor highest) fromFloor
      (toFloor - fromFloor) := by
  have hlowest := (isFloor_stringToFloor hsided.low).ne_zero
  have hhighest := (isFloor_stringToFloor hsided.high).ne_zero
  have hfloor := (hsided.isFloor hto.1 hto.2).ne_zero
  rw [EndsBetween, hsided.storey_sub hfrom hto]
  exact ⟨(storey_le_iff hlowest hfloor).mpr hto.1,
    (storey_le_iff hfloor hhighest).mpr hto.2⟩

/-- The floor of a stop, put into an order and read back. -/
theorem OneSided.between_floorToString (hsided : OneSided lowest highest)
    (hlow : stringToFloor lowest ≤ floor) (hhigh : floor ≤ stringToFloor highest) :
    LabelBetween lowest highest (floorToString floor) := by
  have hdecode := stringToFloor_floorToString (hsided.isFloor hlow hhigh)
  rw [LabelBetween, hdecode]
  exact ⟨hlow, hhigh⟩

end Floors

/-- The trip that the process thread has worked out and not yet set off on. -/
def ProcessPc.planned : ProcessPc → Option Int
  | .checkSend _ floordiff => some floordiff
  | .checkClosed floordiff => some floordiff
  | _ => none

/-- The car is in its shaft and stays there: its trip ends in it, so does the
one it has worked out, and so would one to its destination. -/
structure Bound (lowest highest : CString 4) (car : CarState) : Prop where
  low : car.lowestFloor = lowest
  high : car.highestFloor = highest
  trip : OnTrip car
  planned : ∀ floordiff ∈ car.process.planned,
    EndsBetween (stringToFloor lowest) (stringToFloor highest)
      (stringToFloor car.data.currentFloor) floordiff
  destination : LabelBetween lowest highest car.data.destinationFloor

section CarSteps

variable {lowest highest : CString 4} {car : CarState}

/-- The car stays where it is on the plan it has. -/
theorem Bound.of_same (hbound : Bound lowest highest car) {after : CarState}
    (hlowest : after.lowestFloor = car.lowestFloor)
    (hhighest : after.highestFloor = car.highestFloor)
    (hcurrent : after.data.currentFloor = car.data.currentFloor)
    (hprocess : after.process = car.process)
    (hdestination : LabelBetween lowest highest after.data.destinationFloor) :
    Bound lowest highest after where
  low := hlowest.trans hbound.low
  high := hhighest.trans hbound.high
  trip := hbound.trip.of_same hlowest hhighest hcurrent
    (hprocess ▸ hbound.trip.there) (hprocess ▸ hbound.trip.counting)
  planned := by
    rw [hprocess, hcurrent]
    exact hbound.planned
  destination := hdestination

/-- Orders are for floors between the two, and other processes leave the
current floor alone and the destination between them. -/
def KeepsBetween (lowest highest : CString 4) : CarAction → Prop
  | .floor label => LabelBetween lowest highest label
  | .external edit => ∀ shm, (edit shm).currentFloor = shm.currentFloor ∧
      (LabelBetween lowest highest shm.destinationFloor →
        LabelBetween lowest highest (edit shm).destinationFloor)
  | _ => True

theorem Bound.here (hbound : Bound lowest highest car) :
    LabelBetween lowest highest car.data.currentFloor := by
  obtain ⟨hlow, hhigh⟩ := hbound.trip.inShaft
  rw [hbound.low] at hlow
  rw [hbound.high] at hhigh
  exact ⟨hlow, hhigh⟩

/-- The range check finds nothing to reset. -/
theorem clampDestination_of_between {shm : CarSharedData}
    (hbetween : LabelBetween lowest highest shm.destinationFloor) :
    clampDestination lowest highest shm = shm := by
  obtain ⟨hlow, hhigh⟩ := hbetween
  simp only [clampDestination, if_neg (Int.not_lt.mpr hhigh),
    if_neg (Int.not_lt.mpr hlow)]

/-- A trip is worked out at the top of the loop, from the two floors as they are
there. -/
theorem processStep_planned {floordiff : Int}
    (hfloordiff : floordiff ∈ (processStep car).process.planned) :
    (processStep car).data.currentFloor = car.data.currentFloor ∧
      (floordiff ∈ car.process.planned ∨
        floordiff = stringToFloor car.data.destinationFloor -
          stringToFloor car.data.currentFloor) := by
  cases hpc : car.process with
  | top =>
      refine ⟨processStep_currentFloor fun _ _ => by simp [hpc], Or.inr ?_⟩
      simpa [processStep, hpc, ProcessPc.planned, eq_comm] using hfloordiff
  | checkSend atDestination difference =>
      refine ⟨processStep_currentFloor fun _ _ => by simp [hpc], Or.inl ?_⟩
      simp only [processStep, hpc] at hfloordiff
      split_ifs at hfloordiff
      · cases hfloordiff
      · cases hfloordiff
      · exact hfloordiff
  | checkClosed difference =>
      simp only [processStep, hpc] at hfloordiff
      split_ifs at hfloordiff
      · unfold moveLoop at hfloordiff
        split_ifs at hfloordiff <;> cases hfloordiff
      · cases hfloordiff
  | raiseFlag difference i =>
      simp only [processStep, hpc, moveLoop] at hfloordiff
      split_ifs at hfloordiff <;> cases hfloordiff
  | arrived frame | serve frame =>
      cases hframe : (operateDoorStep car.data frame).2 <;>
        simp [processStep, hpc, hframe, ProcessPc.planned] at hfloordiff
  | _ => simp [processStep, hpc, ProcessPc.planned] at hfloordiff

/-- The trip worked out at the top of the loop leads to the destination. -/
theorem Bound.process_planned (hsided : OneSided lowest highest)
    (hbound : Bound lowest highest car) :
    ∀ floordiff ∈ (processStep car).process.planned,
      EndsBetween (stringToFloor lowest) (stringToFloor highest)
        (stringToFloor (processStep car).data.currentFloor) floordiff := by
  intro floordiff hfloordiff
  obtain ⟨hcurrent, hold | rfl⟩ := processStep_planned hfloordiff
  · rw [hcurrent]
    exact hbound.planned floordiff hold
  · rw [hcurrent]
    exact hsided.endsBetween hbound.here hbound.destination

theorem Bound.process (hsided : OneSided lowest highest)
    (hbound : Bound lowest highest car) : Bound lowest highest (processStep car) := by
  have hrange := carStep_range car .process
  refine ⟨hrange.1.trans hbound.low, hrange.2.trans hbound.high, ?_,
    hbound.process_planned hsided, ?_⟩
  · apply onTrip_process hbound.trip
    intro floordiff hfloordiff hclosed
    rw [hbound.low, hbound.high]
    apply hbound.planned
    cases hpc : car.process <;> simp_all [ProcessPc.nextTrip, ProcessPc.planned]
  · by_cases htop : car.process = .top
    · rw [processStep_data, htop]
      simp only [hbound.low, hbound.high, clampDestination_of_between
        hbound.destination]
      exact hbound.destination
    · rw [processStep_destinationFloor htop]
      exact hbound.destination

theorem Bound.step (hsided : OneSided lowest highest)
    (hbound : Bound lowest highest car) {action : CarAction}
    (hguard : KeepsBetween lowest highest action) :
    Bound lowest highest (carStep car action) := by
  obtain ⟨hlowest, hhighest⟩ := carStep_range car action
  cases action with
  | process => exact hbound.process hsided
  | doorcontrol =>
      have hsame := doorcontrolStep_sameButDoors car
      apply hbound.of_same hlowest hhighest hsame.currentFloor
        (doorcontrolStep_process car)
      simp only [carStep, hsame.destinationFloor]
      exact hbound.destination
  | floor label =>
      apply hbound.of_same hlowest hhighest
      · simp only [carStep, receiveFloor_data]
      · exact receiveFloor_process car label
      · simp only [carStep, receiveFloor_data]
        split
        · exact hguard
        · exact hbound.destination
  | external edit =>
      obtain ⟨hcurrent, hdestination⟩ := hguard car.data
      exact hbound.of_same rfl rfl hcurrent rfl (hdestination hbound.destination)

end CarSteps

/-- The invariant over the link: the car, the orders under way to it and the
stops in its record keep to the shaft. -/
structure ShaftKept (name : CString 50) (lowest highest : CString 4)
    (link : Link) : Prop where
  bound : Bound lowest highest link.session.tcp.car
  sanctioned : Sanctioned name lowest highest (InRange lowest highest) link

/-- The handler's local record has no stops when the car registers, and other
processes leave the floor alone and the destination in the shaft. -/
def StaysInShaft (lowest highest : CString 4) (link : Link) : LinkAction → Prop
  | .car (.external edit) => KeepsBetween lowest highest (.external edit)
  | .handle stale _ => link.handled = 0 → stale.fresh.queue = []
  | _ => True

section LinkSteps

variable {carname : CString 256} {lowest highest : CString 4} {socket : Int}
  {link : Link}

theorem Sanctioned.between {name : CString 50} (hsided : OneSided lowest highest)
    (hkept : Sanctioned name lowest highest (InRange lowest highest) link) :
    ∀ label ∈ link.orders, LabelBetween lowest highest label := by
  intro label hlabel
  obtain ⟨floor, ⟨hlow, hhigh⟩, rfl⟩ := hkept.orders label hlabel
  exact hsided.between_floorToString hlow hhigh

/-- A step of the car, which can only take orders that are under way to it. -/
theorem ShaftKept.car (hsided : OneSided lowest highest)
    (hkept : ShaftKept (.store 50 carname.chars) lowest highest link)
    {action : TcpAction} (hwhole : ReadsWholeOrders link (.car action))
    (hguard : StaysInShaft lowest highest link (.car action)) :
    Bound lowest highest (linkStep socket link (.car action)).session.tcp.car := by
  have hstep (action : CarAction) (hkeeps : KeepsBetween lowest highest action) :
      Bound lowest highest (carStep link.session.tcp.car action) :=
    hkept.bound.step hsided hkeeps
  cases action with
  | process => exact hstep .process trivial
  | doorcontrol => exact hstep .doorcontrol trivial
  | external edit => exact hstep (.external edit) hguard
  | tcp outcome =>
      rcases @linkStep_tcp outcome socket link hwhole with
        ⟨hcar, -⟩ | ⟨label, rest, horders, -, hcar⟩
      · rw [hcar]
        exact hkept.bound
      · rw [hcar]
        have hlabel : label ∈ link.orders := horders ▸ List.mem_cons_self
        exact hstep (.floor label) (hkept.sanctioned.between hsided label hlabel)

/-- Nobody but the car changes the car. -/
theorem linkStep_car (action : LinkAction)
    (hothers : ∀ own, action ≠ .car own) :
    (linkStep socket link action).session.tcp.car = link.session.tcp.car := by
  cases action with
  | car own => exact absurd rfl (hothers own)
  | handle stale outcome =>
      simp only [linkStep]
      split
      · split <;> rfl
      · rfl
  | cutShort _ _ _ _ | hangUp | fails | client event => rfl

theorem ShaftKept.step (hsided : OneSided lowest highest)
    (hcar : (CarMessage.car carname lowest highest).IsReadable)
    (hjoined : Joined carname lowest highest socket link)
    (hkept : ShaftKept (.store 50 carname.chars) lowest highest link)
    (hnonneg : 0 ≤ socket) {action : LinkAction}
    (hwithin : WithinConnection (.store 50 carname.chars) socket link action)
    (hwhole : ReadsWholeOrders link action)
    (hguard : StaysInShaft lowest highest link action) :
    ShaftKept (.store 50 carname.chars) lowest highest
      (linkStep socket link action) := by
  have hempty : RegistersEmpty link action := by
    cases action with
    | handle stale outcome => exact hguard
    | _ => trivial
  have hasks : AsksFor lowest highest (InRange lowest highest)
      (link.requests (.store 50 carname.chars) action) :=
    fun _ _ _ _ hrange => hrange
  refine ⟨?_, hkept.sanctioned.step hcar hjoined hnonneg hwithin hempty hasks⟩
  by_cases hown : ∃ own, action = .car own
  · obtain ⟨own, rfl⟩ := hown
    exact hkept.car hsided hwhole hguard
  · rw [linkStep_car action fun own heq => hown ⟨own, heq⟩]
    exact hkept.bound

end LinkSteps

section Results

variable {carname : CString 256} {lowest highest : CString 4} {socket : Int}
  {link : Link}

def alphaDrives : List LinkAction :=
  [.car idleNetwork, .car .process, .handle blankLocals ⟨true, true, true⟩,
    .handle blankLocals ⟨true, true, true⟩, .client (textFrame 5 "CALL 3 5"),
    .car idleNetwork, .car (orderArrives (floorToString 3))] ++
  List.replicate 12 (.car .process)

theorem guarded_alphaDrives : Along (linkStep 4) (fun link action =>
    WithinConnection (.store 50 "Alpha".toList) 4 link action ∧
      ReadsWholeOrders link action ∧
        StaysInShaft (floorToString 1) (floorToString 5) link action)
    connectedAlpha alphaDrives := by
  have hidle := keepsReadable_idleNetwork
  have hnothing (link : Link) : ReadsWholeOrders link (.car idleNetwork) :=
    readsWholeOrders_of_nothing link rfl
  have horder : KeepsReadable (orderArrives (floorToString 3)) :=
    keepsReadable_orderArrives (floorToString_isLabel 3).isOperand
  apply along_append.mpr
  constructor
  · exact ⟨⟨⟨rfl, hidle⟩, hnothing _, trivial⟩,
      ⟨⟨rfl, trivial⟩, trivial, trivial⟩,
      ⟨trivial, trivial, fun _ => rfl⟩, ⟨trivial, trivial, fun _ => rfl⟩,
      ⟨⟨by decide, sparesName_call _ _ (by decide)⟩, trivial, trivial⟩,
      ⟨⟨rfl, hidle⟩, hnothing _, trivial⟩,
      ⟨⟨rfl, horder⟩, fun _ => ⟨floorToString 3, by decide, rfl⟩, trivial⟩, trivial⟩
  · have hprocess : ∀ action ∈ List.replicate 12 (LinkAction.car .process),
        action = .car .process := fun _ haction => List.eq_of_mem_replicate haction
    apply (along_of_forall_mem hprocess).mono
    rintro link action rfl
    exact ⟨⟨rfl, trivial⟩, trivial, trivial⟩

end Results

end Elevator
