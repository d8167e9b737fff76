/-
Sweep order.  A car goes up and down in sweeps when every block of stops with
one direction is in the order in which the car passes them.  An insertion puts
the source behind the first stop that takes it, and looks at no other.
-/
import Elevator.Blocks
import Elevator.Registry

namespace Elevator

open Blocks

/-- The second floor comes after the first, or is the same, on the way in this
direction. -/
def inOrder : Direction → Int → Int → Prop
  | .up, first, second => first ≤ second
  | .down, first, second => second ≤ first
  | .idle, _, _ => True

instance : ∀ (direction : Direction) (first second : Int),
    Decidable (inOrder direction first second)
  | .up, first, second => inferInstanceAs (Decidable (first ≤ second))
  | .down, first, second => inferInstanceAs (Decidable (second ≤ first))
  | .idle, _, _ => isTrue trivial

theorem inOrder_trans {direction : Direction} {first second third : Int}
    (hfirst : inOrder direction first second)
    (hsecond : inOrder direction second third) : inOrder direction first third := by
  cases direction with
  | up => exact Int.le_trans hfirst hsecond
  | down => exact Int.le_trans hsecond hfirst
  | idle => trivial

def QueueNode.before (first second : QueueNode) : Prop :=
  inOrder first.direction first.floor second.floor

instance (first second : QueueNode) : Decidable (first.before second) :=
  inferInstanceAs (Decidable (inOrder ..))

/-- The queue splits into maximal blocks of equal direction, in which the floors
do not fall on the way up and do not rise on the way down. -/
def SweepOrder (queue : List QueueNode) : Prop :=
  OrderedBlocks QueueNode.direction QueueNode.before queue

instance (queue : List QueueNode) : Decidable (SweepOrder queue) :=
  inferInstanceAs (Decidable (∀ block ∈ blocks _ queue, block.Pairwise _))

theorem sweepOrder_iff_isChain (queue : List QueueNode) :
    SweepOrder queue ↔ queue.IsChain (Fits QueueNode.direction QueueNode.before) := by
  apply orderedBlocks_iff_isChain
  intro first second third hfirst _ hbefore hafter
  rw [QueueNode.before, ← hfirst] at hafter
  exact inOrder_trans hbefore hafter

/-- The direction by which the search judges the stop at a position: that of
the stop, but in the first block of the queue the car's own direction. -/
def blockDirection (currentDirection : Direction) (queue : List QueueNode)
    (position : Nat) (stop : QueueNode) : Direction :=
  if ∀ earlier ∈ queue.take position, earlier.direction = stop.direction then
    currentDirection
  else stop.direction

/-- The stop at a position takes the source of a request: its block is judged to
have the request's direction, and the source does not come before it. -/
def TakesSource (currentDirection direction : Direction) (sourceFloor : Int)
    (queue : List QueueNode) (position : Nat) : Prop :=
  ∃ stop ∈ queue[position]?,
    blockDirection currentDirection queue position stop = direction ∧
      inOrder direction stop.floor sourceFloor

def TakesFirst (currentDirection direction : Direction) (sourceFloor : Int)
    (queue : List QueueNode) (position : Nat) : Prop :=
  TakesSource currentDirection direction sourceFloor queue position ∧
    ∀ earlier < position,
      ¬ TakesSource currentDirection direction sourceFloor queue earlier

section Search

variable {currentDirection direction : Direction} {sourceFloor : Int}
variable {current : QueueNode} {rest : List QueueNode}

/-- The direction of the block after a step of the search. -/
def nextBlock (block : Direction) (current : QueueNode) (rest : List QueueNode) :
    Direction :=
  match rest with
  | next :: _ => if current.direction ≠ next.direction then next.direction else block
  | [] => block

theorem findBlock_eq (direction : Direction) (sourceFloor : Int)
    (block : Direction) (current : QueueNode) (rest : List QueueNode) :
    findBlock direction sourceFloor block (current :: rest) =
      if block = direction ∧
          (direction = .up ∧ current.floor ≤ sourceFloor ∨
            direction = .down ∧ sourceFloor ≤ current.floor) then some 1
      else (findBlock direction sourceFloor (nextBlock block current rest) rest).map
        (· + 1) := by
  cases rest <;> rfl

theorem findBlock_cons (hdirection : direction ≠ .idle) (block : Direction) :
    findBlock direction sourceFloor block (current :: rest) =
      if block = direction ∧ inOrder direction current.floor sourceFloor then some 1
      else (findBlock direction sourceFloor (nextBlock block current rest) rest).map
        (· + 1) := by
  have hsuits : (direction = .up ∧ current.floor ≤ sourceFloor ∨
      direction = .down ∧ sourceFloor ≤ current.floor) ↔
      inOrder direction current.floor sourceFloor := by
    cases direction <;> simp_all [inOrder]
  rw [← if_congr (and_congr_right fun _ => hsuits) rfl rfl]
  exact findBlock_eq direction sourceFloor block current rest

theorem blockDirection_cons {next stop : QueueNode} {position : Nat}
    (hstop : (next :: rest)[position]? = some stop) (block : Direction) :
    blockDirection block (current :: next :: rest) (position + 1) stop =
      blockDirection (nextBlock block current (next :: rest)) (next :: rest)
        position stop := by
  -- the block of `next` is the block of the stop if nothing in between differs
  have hnext : (∀ earlier ∈ (next :: rest).take position,
      earlier.direction = stop.direction) → next.direction = stop.direction := by
    intro hall
    cases position with
    | zero => rw [Option.some.inj hstop]
    | succ position => exact hall next (by simp)
  simp only [blockDirection, nextBlock, List.take_succ_cons, List.forall_mem_cons]
  by_cases hall : ∀ earlier ∈ (next :: rest).take position,
      earlier.direction = stop.direction
  · have heq := hnext hall
    by_cases hcurrent : current.direction = stop.direction
    · simp [hcurrent, heq]
    · simp [hcurrent, heq]
  · simp [hall]

theorem takesSource_zero (block : Direction) :
    TakesSource block direction sourceFloor (current :: rest) 0 ↔
      block = direction ∧ inOrder direction current.floor sourceFloor := by
  simp [TakesSource, blockDirection]

theorem takesSource_succ (block : Direction) (position : Nat) :
    TakesSource block direction sourceFloor (current :: rest) (position + 1) ↔
      TakesSource (nextBlock block current rest) direction sourceFloor rest
        position := by
  cases rest with
  | nil => simp [TakesSource]
  | cons next rest =>
      simp only [TakesSource, List.getElem?_cons_succ]
      apply exists_congr
      intro stop
      apply and_congr_right
      intro hstop
      rw [blockDirection_cons hstop]

/-- The search finds the place behind the first stop that takes the source. -/
theorem findBlock_spec (hdirection : direction ≠ .idle) (block : Direction)
    (queue : List QueueNode) :
    match findBlock direction sourceFloor block queue with
    | some place => ∃ position, place = position + 1 ∧
        TakesFirst block direction sourceFloor queue position
    | none => ∀ position, ¬ TakesSource block direction sourceFloor queue position := by
  induction queue generalizing block with
  | nil => simp [findBlock, TakesSource]
  | cons current rest ih =>
      have hrest := ih (nextBlock block current rest)
      rw [findBlock_cons hdirection]
      by_cases hzero : TakesSource block direction sourceFloor (current :: rest) 0
      · rw [if_pos ((takesSource_zero block).mp hzero)]
        exact ⟨0, rfl, hzero, fun earlier hlt => absurd hlt (Nat.not_lt_zero _)⟩
      · rw [if_neg ((takesSource_zero block).not.mp hzero)]
        cases hfind : findBlock direction sourceFloor
            (nextBlock block current rest) rest with
        | none =>
            rw [hfind] at hrest
            intro position
            cases position with
            | zero => exact hzero
            | succ position => exact (takesSource_succ ..).not.mpr (hrest position)
        | some place =>
            rw [hfind] at hrest
            obtain ⟨position, rfl, htakes, hfirst⟩ := hrest
            refine ⟨position + 1, rfl, (takesSource_succ ..).mpr htakes, ?_⟩
            intro earlier hlt
            cases earlier with
            | zero => exact hzero
            | succ earlier =>
                exact (takesSource_succ ..).not.mpr
                  (hfirst earlier (Nat.lt_of_succ_lt_succ hlt))

end Search

/-- The source fits before a stop that would follow it. -/
def FitsBefore (direction : Direction) (sourceFloor : Int)
    (following : Option QueueNode) : Prop :=
  ∀ next ∈ following, next.direction = direction →
    inOrder direction sourceFloor next.floor

/-- The source fits behind a stop that would precede it. -/
def FitsBehind (direction : Direction) (sourceFloor : Int)
    (preceding : Option QueueNode) : Prop :=
  ∀ last ∈ preceding, last.direction = direction →
    inOrder direction last.floor sourceFloor

/-- What keeps the sweep order when a request comes in.  A source that goes to
the front must not come after the old head; one that goes behind the first stop
that takes it must not come after the stop that followed; and where no stop
takes it, the last stop of the queue must not come after it.  The stops of the
other direction do not matter. -/
structure KeepsSweep (car : ConnectedCar) (sourceFloor : Int)
    (direction : Direction) : Prop where
  front : insertsAtCurrentFloor car sourceFloor direction = true →
    FitsBefore direction sourceFloor car.queue.head?
  splice : insertsAtCurrentFloor car sourceFloor direction = false →
    ∀ position,
      TakesFirst car.currentDirection direction sourceFloor car.queue position →
        FitsBefore direction sourceFloor car.queue[position + 1]?
  join : insertsAtCurrentFloor car sourceFloor direction = false →
    (∀ position, ¬ TakesSource car.currentDirection direction sourceFloor
      car.queue position) →
      FitsBehind direction sourceFloor car.queue.getLast?

theorem requestDirection_ne_idle (sourceFloor destFloor : Int) :
    requestDirection sourceFloor destFloor ≠ .idle := by
  rw [requestDirection]
  split <;> simp

/-- The two stops of a request are in order themselves. -/
theorem inOrder_request (sourceFloor destFloor : Int) :
    inOrder (requestDirection sourceFloor destFloor) sourceFloor destFloor := by
  rw [requestDirection]
  split
  case isTrue hup => exact Int.le_of_lt hup
  case isFalse hdown => exact Int.not_lt.mp hdown

theorem TakesFirst.unique {current direction : Direction} {sourceFloor : Int}
    {queue : List QueueNode} {first second : Nat}
    (hfirst : TakesFirst current direction sourceFloor queue first)
    (hsecond : TakesFirst current direction sourceFloor queue second) :
    first = second := by
  apply Nat.le_antisymm
  · exact Nat.not_lt.mp fun hlt => hfirst.2 second hlt hsecond.1
  · exact Nat.not_lt.mp fun hlt => hsecond.2 first hlt hfirst.1

section Insertion

variable {car : ConnectedCar} {direction : Direction} {sourceFloor : Int}

theorem sweepOrder_cons_iff {queue : List QueueNode} (hsweep : SweepOrder queue) :
    SweepOrder (⟨sourceFloor, direction⟩ :: queue) ↔
      FitsBefore direction sourceFloor queue.head? := by
  rw [sweepOrder_iff_isChain] at hsweep ⊢
  rw [List.isChain_cons, and_iff_left hsweep]
  simp only [Fits, QueueNode.before, FitsBefore, eq_comm]

/-- Behind a stop that takes it, the source only has to fit before the next. -/
theorem sweepOrder_insertIdx_iff {queue : List QueueNode}
    (hsweep : SweepOrder queue) {current : Direction} {position : Nat}
    (htakes : TakesSource current direction sourceFloor queue position) :
    SweepOrder (queue.insertIdx (position + 1) ⟨sourceFloor, direction⟩) ↔
      FitsBefore direction sourceFloor queue[position + 1]? := by
  obtain ⟨stop, hget, -, hbehind⟩ := htakes
  rw [sweepOrder_iff_isChain] at hsweep ⊢
  rw [isChain_insertIdx hsweep hget, and_iff_right]
  · simp only [Fits, QueueNode.before, FitsBefore, eq_comm]
  · intro heq
    rwa [QueueNode.before, show stop.direction = direction from heq]

/-- At the end, the source only has to fit behind the last stop. -/
theorem sweepOrder_append_iff {queue : List QueueNode}
    (hsweep : SweepOrder queue) {destFloor : Int}
    (hrequest : inOrder direction sourceFloor destFloor) :
    SweepOrder (queue ++ [⟨sourceFloor, direction⟩, ⟨destFloor, direction⟩]) ↔
      FitsBehind direction sourceFloor queue.getLast? := by
  rw [sweepOrder_iff_isChain] at hsweep ⊢
  rw [List.isChain_append, and_iff_right hsweep, and_iff_right]
  · simp only [List.head?_cons, Option.mem_def, Option.some.injEq, forall_eq',
      Fits, QueueNode.before, FitsBehind]
    apply forall₂_congr
    intro last _
    exact forall_congr' fun heq => by rw [show last.direction = direction from heq]
  · simpa [Fits, QueueNode.before] using hrequest

end Insertion

/-- A queue in sweep order stays so exactly when the source of the request fits
between the neighbours it gets. -/
theorem sweepOrder_addToCarQueue_iff {car : ConnectedCar}
    (hsweep : SweepOrder car.queue) (allocated : Bool) (sourceFloor destFloor : Int) :
    SweepOrder (addToCarQueue allocated car sourceFloor destFloor).1.queue ↔
      (allocated = true →
        KeepsSweep car sourceFloor (requestDirection sourceFloor destFloor)) := by
  cases allocated with
  | false => simpa [addToCarQueue_refused] using hsweep
  | true =>
      have hrequest := inOrder_request sourceFloor destFloor
      have hidle := requestDirection_ne_idle sourceFloor destFloor
      simp only [addToCarQueue, Bool.not_true, Bool.false_eq_true, if_false,
        forall_const]
      generalize requestDirection sourceFloor destFloor = direction at hrequest hidle
      split_ifs with hempty hfront
      · -- an empty queue has no neighbours to offer
        rw [hempty] at hsweep
        apply iff_of_true ((sweepOrder_append_iff hsweep hrequest).mpr (by simp [FitsBehind]))
        constructor <;> simp [hempty, FitsBefore, FitsBehind]
      · rw [sweepOrder_cons_iff hsweep]
        constructor
        · intro hfits
          exact ⟨fun _ => hfits, by simp [hfront], by simp [hfront]⟩
        · intro hkeeps
          exact hkeeps.front hfront
      · rw [Bool.not_eq_true] at hfront
        have hspec := @findBlock_spec direction sourceFloor hidle
          car.currentDirection car.queue
        split
        · rename_i place hfind
          rw [hfind] at hspec
          obtain ⟨position, rfl, hfirst⟩ := hspec
          rw [sweepOrder_insertIdx_iff hsweep hfirst.1]
          constructor
          · intro hfits
            refine ⟨by simp [hfront], fun _ other hother => ?_, fun _ hnone => ?_⟩
            · rwa [hother.unique hfirst]
            · exact absurd hfirst.1 (hnone position)
          · intro hkeeps
            exact hkeeps.splice hfront position hfirst
        · rename_i hfind
          rw [hfind] at hspec
          rw [sweepOrder_append_iff hsweep hrequest]
          constructor
          · intro hfits
            refine ⟨by simp [hfront], fun _ position hfirst => ?_, fun _ _ => hfits⟩
            exact absurd hfirst.1 (hspec position)
          · intro hkeeps
            exact hkeeps.join hfront hspec

/-- A call from 6 to 5 joins behind the 7 and before the 4. -/
theorem sweepOrder_addToCarQueue_iff_joined :
    KeepsSweep { idleCar with
      queue := [⟨7, .down⟩, ⟨4, .down⟩], currentDirection := .down } 6 .down :=
  (@sweepOrder_addToCarQueue_iff { idleCar with
    queue := [⟨7, .down⟩, ⟨4, .down⟩], currentDirection := .down }
    (by decide) true 6 5).mp (by decide) rfl

/-- A call from 8 to 4 ought to join before the 7.  It goes behind the 4. -/
theorem sweep_turned_around :
    ¬ ∀ (car : ConnectedCar) (sourceFloor destFloor : Int), sourceFloor ≠ destFloor →
      SweepOrder car.queue →
        SweepOrder (addToCarQueue true car sourceFloor destFloor).1.queue := by
  intro hsweep
  exact absurd (hsweep { idleCar with
    queue := [⟨6, .up⟩, ⟨7, .down⟩, ⟨4, .down⟩] } 8 4 (by decide) (by decide))
    (by decide)

end Elevator
