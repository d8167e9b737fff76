/-
The array behind the controller's list of records: `size` records in use at the
front of `capacity` cells, which grow by reallocation.  Sizes stay below the
range of `size_t`, and memory does not run out.
-/
import Mathlib.Logic.Function.Basic
import Elevator.Cells
import Elevator.Transition
import Elevator.ControllerMemory

namespace Elevator

universe u

open CText Cells

/-- `controller_t`.  A cell of `data` is `none` as long as no record has been
written to it. -/
structure ControllerArray where
  size : Nat
  capacity : Nat
  data : List (Option ConnectedCar)
deriving DecidableEq, Repr

def initialCapacity : Nat := 10

def growthFactor : Nat := 2

def queueInit (car : ConnectedCar) : ConnectedCar :=
  { car with
    queue := []
    currentDirection := .idle
    elevatorStatus := stringToStatus car.status }

namespace ControllerArray

/-- The loop of `controller_init` over its cells.  The text members of a cell
that holds no record are no text yet, and `queue_init` leaves them so. -/
def initQueues : Nat → Nat → List (Option ConnectedCar) →
    Option (List (Option ConnectedCar))
  | 0, _, cells => some cells
  | rounds + 1, i, cells =>
      if i < cells.length then
        initQueues rounds (i + 1) (cells.modify i (Option.map queueInit))
      else none

def init : Option ControllerArray :=
  (initQueues initialCapacity 0 (List.replicate initialCapacity none)).map
    fun data => { size := 0, capacity := initialCapacity, data }

def ensureCapacity (controller : ControllerArray) (newSize : Nat) :
    ControllerArray :=
  if controller.capacity < newSize then
    let newCapacity :=
      if newSize < controller.capacity * growthFactor then
        controller.capacity * growthFactor
      else newSize
    { controller with
      data := realloc controller.data newCapacity
      capacity := newCapacity }
  else controller

/-- `controller_copy`, which returns the destination. -/
def copy (src dest : ControllerArray) : Option ControllerArray :=
  let dest := { dest with size := src.size }
  let dest := dest.ensureCapacity src.size
  (copyCells src.data src.size 0 dest.data).map fun data => { dest with data }

def clear (controller : ControllerArray) : ControllerArray :=
  { controller with size := 0 }

def push (controller : ControllerArray) (newCar : ConnectedCar) :
    Option ControllerArray :=
  let controller := controller.ensureCapacity (controller.size + 1)
  (store controller.data controller.size newCar).map fun data =>
    { controller with data, size := controller.size + 1 }

def pop (controller : ControllerArray) : ControllerArray :=
  if controller.size = 0 then controller
  else { controller with size := controller.size - 1 }

/-- `controller_last`, with the record that the pointer leads to. -/
def last (controller : ControllerArray) : Option (Option ConnectedCar) :=
  if controller.size = 0 then some none
  else (load controller.data (controller.size - 1)).map some

def insertAt (controller : ControllerArray) (pos : Nat)
    (newCar : ConnectedCar) : Option ControllerArray :=
  let pos := if controller.size < pos then controller.size else pos
  let controller := controller.ensureCapacity (controller.size + 1)
  ((shiftUp pos controller.size controller.data).bind fun data =>
    store data pos newCar).map fun data =>
      { controller with data, size := controller.size + 1 }

def find (controller : ControllerArray) (test : ConnectedCar → Bool) :
    Option (Option Nat) :=
  findCell test controller.data controller.size 0

/-- What a search returns of the record it finds. -/
def lookup (controller : ControllerArray) (test : ConnectedCar → Bool) :
    Option (Option ConnectedCar) :=
  (controller.find test).bind fun
    | none => some none
    | some i => (load controller.data i).map some

def getNameBySocket (controller : ControllerArray) (connectionSocket : Int) :
    Option (Option (CString 50)) :=
  (controller.lookup fun car => car.connectionsocket = connectionSocket).map
    (Option.map (·.name))

def getSocketByName (controller : ControllerArray) (name : List Char) :
    Option Int :=
  (controller.lookup fun car => car.name.chars = name).map fun
    | none => -1
    | some car => car.connectionsocket

def removeByName (controller : ControllerArray) (name : List Char) :
    Option ControllerArray :=
  (controller.find fun car => car.name.chars = name).bind fun
    | none => some controller
    | some i =>
        (shiftDown (controller.size - 1 - i) i controller.data).map fun data =>
          { controller with data, size := controller.size - 1 }

/-- The array stands for a list of records: the cells in use hold the list, and
there are as many cells as the capacity says. -/
structure Represents (controller : ControllerArray) (cars : List ConnectedCar) :
    Prop where
  allocated : controller.data.length = controller.capacity
  size_eq : controller.size = cars.length
  holds : Holds controller.data cars

theorem exists_init : ∃ start, init = some start ∧ start.Represents [] :=
  ⟨{ size := 0, capacity := 10, data := List.replicate 10 none }, rfl, rfl, rfl,
    fun k x hx => by simp at hx⟩

section Growth

variable {controller : ControllerArray} {newSize : Nat}

theorem ensureCapacity_size :
    (controller.ensureCapacity newSize).size = controller.size := by
  rw [ensureCapacity]
  split <;> rfl

theorem ensureCapacity_capacity :
    newSize ≤ (controller.ensureCapacity newSize).capacity := by
  rw [ensureCapacity]
  split
  · dsimp only
    split <;> omega
  · omega

theorem ensureCapacity_allocated
    (hallocated : controller.data.length = controller.capacity) :
    (controller.ensureCapacity newSize).data.length =
      (controller.ensureCapacity newSize).capacity := by
  rw [ensureCapacity]
  split
  · exact length_realloc controller.data _
  · exact hallocated

theorem ensureCapacity_holds {cars : List ConnectedCar}
    (hholds : Holds controller.data cars)
    (hroom : cars.length ≤ controller.capacity) :
    Holds (controller.ensureCapacity newSize).data cars := by
  rw [ensureCapacity]
  split
  · apply hholds.realloc
    split <;> omega
  · exact hholds

end Growth

namespace Represents

variable {controller : ControllerArray} {cars : List ConnectedCar}

theorem size_le_capacity (hrep : controller.Represents cars) :
    controller.size ≤ controller.capacity := by
  rw [hrep.size_eq, ← hrep.allocated]
  exact hrep.holds.length_le

theorem ensureCapacity (hrep : controller.Represents cars) (newSize : Nat) :
    (controller.ensureCapacity newSize).Represents cars where
  allocated := ensureCapacity_allocated hrep.allocated
  size_eq := ensureCapacity_size.trans hrep.size_eq
  holds := ensureCapacity_holds hrep.holds
    (hrep.size_eq ▸ hrep.size_le_capacity)

/-- Growing for one more record leaves a cell for it after those in use. -/
theorem ensureCapacity_room (hrep : controller.Represents cars) :
    cars.length <
      (controller.ensureCapacity (controller.size + 1)).data.length := by
  rw [ensureCapacity_allocated hrep.allocated, ← hrep.size_eq]
  exact ensureCapacity_capacity

theorem push (hrep : controller.Represents cars) (newCar : ConnectedCar) :
    ∃ after, controller.push newCar = some after ∧
      after.Represents (controllerPush cars newCar) := by
  have hgrown := hrep.ensureCapacity (controller.size + 1)
  obtain ⟨data, hdata, hlength, hholds⟩ :=
    hgrown.holds.concat hrep.ensureCapacity_room newCar
  refine ⟨{ controller.ensureCapacity (controller.size + 1) with
      data, size := cars.length + 1 }, ?_,
    ⟨hlength.trans hgrown.allocated, ?_, hholds⟩⟩
  · rw [ControllerArray.push, hgrown.size_eq, hdata, Option.map_some]
  · rw [controllerPush, List.length_append, List.length_singleton]

theorem pop (hrep : controller.Represents cars) :
    controller.pop.Represents cars.dropLast := by
  have hholds := hrep.holds.of_prefix cars.dropLast_prefix
  rw [ControllerArray.pop]
  split
  · rename_i hempty
    refine ⟨hrep.allocated, ?_, hholds⟩
    rw [List.length_dropLast, ← hrep.size_eq, hempty]
  · refine ⟨hrep.allocated, ?_, hholds⟩
    rw [List.length_dropLast, ← hrep.size_eq]

theorem insertAt (hrep : controller.Represents cars) (pos : Nat)
    (newCar : ConnectedCar) :
    ∃ after, controller.insertAt pos newCar = some after ∧
      after.Represents (cars.insertIdx (min pos cars.length) newCar) := by
  have hgrown := hrep.ensureCapacity (controller.size + 1)
  obtain ⟨data, hdata, hlength, hholds⟩ :=
    hgrown.holds.insertIdx (Nat.min_le_right pos cars.length)
      hrep.ensureCapacity_room newCar
  have hpos : (if controller.size < pos then controller.size else pos) =
      min pos cars.length := by
    rw [hrep.size_eq]
    split <;> omega
  refine ⟨{ controller.ensureCapacity (controller.size + 1) with
      data, size := cars.length + 1 }, ?_,
    ⟨hlength.trans hgrown.allocated, ?_, hholds⟩⟩
  · rw [ControllerArray.insertAt, hpos, hgrown.size_eq, hdata, Option.map_some]
  · rw [List.length_insertIdx_of_le_length (Nat.min_le_right pos cars.length)]

theorem find (hrep : controller.Represents cars) (test : ConnectedCar → Bool) :
    controller.find test = some (cars.findIdx? test) := by
  rw [ControllerArray.find, hrep.size_eq]
  exact hrep.holds.findCell test

theorem removeByName (hrep : controller.Represents cars) (name : List Char) :
    ∃ after, controller.removeByName name = some after ∧
      after.Represents (cars.eraseP fun car => car.name.chars = name) := by
  rw [ControllerArray.removeByName, hrep.find, Option.bind_some,
    List.eraseP_eq_eraseIdx]
  cases hfound : cars.findIdx? fun car => car.name.chars = name with
  | none => exact ⟨controller, rfl, hrep⟩
  | some i =>
      have hi : i < cars.length :=
        (List.findIdx?_eq_some_iff_getElem.mp hfound).1
      obtain ⟨data, hdata, hlength, hholds⟩ := hrep.holds.eraseIdx hi
      refine ⟨{ controller with data, size := controller.size - 1 }, ?_,
        ⟨hlength.trans hrep.allocated, ?_, hholds⟩⟩
      · dsimp only
        rw [hrep.size_eq, hdata, Option.map_some]
      · rw [List.length_eraseIdx_of_lt hi, ← hrep.size_eq]

theorem clear (hrep : controller.Represents cars) :
    controller.clear.Represents [] :=
  ⟨hrep.allocated, rfl, hrep.holds.of_prefix List.nil_prefix⟩

theorem copy {src dest : ControllerArray} {old : List ConnectedCar}
    (hsrc : src.Represents cars) (hdest : dest.Represents old) :
    ∃ after, src.copy dest = some after ∧ after.Represents cars := by
  let resized : ControllerArray := { dest with size := src.size }
  have hallocated : (resized.ensureCapacity src.size).data.length =
      (resized.ensureCapacity src.size).capacity :=
    ensureCapacity_allocated hdest.allocated
  have hroom : cars.length ≤ (resized.ensureCapacity src.size).data.length := by
    rw [hallocated, ← hsrc.size_eq]
    exact ensureCapacity_capacity
  obtain ⟨data, hdata, hlength, hholds⟩ := hsrc.holds.copyCells hroom
  refine ⟨{ resized.ensureCapacity src.size with data }, ?_,
    ⟨hlength.trans hallocated, ?_, hholds⟩⟩
  · rw [← hsrc.size_eq] at hdata
    rw [ControllerArray.copy, hdata, Option.map_some]
  · exact ensureCapacity_size.trans hsrc.size_eq

theorem last (hrep : controller.Represents cars) :
    controller.last = some cars.getLast? := by
  rw [ControllerArray.last, hrep.size_eq, List.getLast?_eq_getElem?]
  split
  · rename_i hempty
    rw [List.length_eq_zero_iff] at hempty
    rw [hempty]
    rfl
  · have hlt : cars.length - 1 < cars.length := by omega
    rw [List.getElem?_eq_getElem hlt,
      hrep.holds _ _ (List.getElem?_eq_getElem hlt), Option.map_some]

theorem lookup (hrep : controller.Represents cars)
    (test : ConnectedCar → Bool) :
    controller.lookup test = some (cars.find? test) := by
  rw [ControllerArray.lookup, hrep.find, Option.bind_some,
    List.find?_eq_bind_findIdx?_getElem?]
  cases hfound : cars.findIdx? test with
  | none => rfl
  | some i =>
      have hi : i < cars.length :=
        (List.findIdx?_eq_some_iff_getElem.mp hfound).1
      rw [Option.bind_some, List.getElem?_eq_getElem hi]
      dsimp only
      rw [hrep.holds _ _ (List.getElem?_eq_getElem hi), Option.map_some]

theorem getNameBySocket (hrep : controller.Represents cars)
    (connectionSocket : Int) :
    controller.getNameBySocket connectionSocket =
      some (controllerGetNameBySocket cars connectionSocket) := by
  rw [ControllerArray.getNameBySocket, hrep.lookup, Option.map_some,
    controllerGetNameBySocket]

theorem getSocketByName (hrep : controller.Represents cars)
    (name : List Char) :
    controller.getSocketByName name =
      some (((cars.find? fun car => car.name.chars = name).map
        (·.connectionsocket)).getD (-1)) := by
  rw [ControllerArray.getSocketByName, hrep.lookup, Option.map_some]
  cases cars.find? fun car => car.name.chars = name <;> rfl

end Represents

/-- What a caller sees of an array that stands for a list of records. -/
structure Agrees (controller : ControllerArray) (cars : List ConnectedCar) :
    Prop where
  allocated : controller.data.length = controller.capacity
  sizeLeCapacity : controller.size ≤ controller.capacity
  sizeEq : controller.size = cars.length
  entries : controller.data.take controller.size = cars.map some
  lastRecord : controller.last = some cars.getLast?
  nameBySocket : ∀ connectionSocket,
    controller.getNameBySocket connectionSocket =
      some (controllerGetNameBySocket cars connectionSocket)
  socketByName : ∀ name,
    controller.getSocketByName name =
      some (((cars.find? fun car => car.name.chars = name).map
        (·.connectionsocket)).getD (-1))

theorem Represents.agrees {controller : ControllerArray}
    {cars : List ConnectedCar} (hrep : controller.Represents cars) :
    controller.Agrees cars where
  allocated := hrep.allocated
  sizeLeCapacity := hrep.size_le_capacity
  sizeEq := hrep.size_eq
  entries := by rw [hrep.size_eq, hrep.holds.take_eq]
  lastRecord := hrep.last
  nameBySocket := hrep.getNameBySocket
  socketByName := hrep.getSocketByName

end ControllerArray

inductive ControllerOp where
  | push (newCar : ConnectedCar)
  | pop
  | insertAt (pos : Nat) (newCar : ConnectedCar)
  | removeByName (name : List Char)
  | clear
  | ensureCapacity (newSize : Nat)
deriving DecidableEq, Repr

/-- Several controllers, and the copy from one to another. -/
inductive PoolOp (ι : Type u) where
  | on (controller : ι) (op : ControllerOp)
  | copy (src dest : ι)
deriving Repr

def ControllerOp.perform (controller : ControllerArray) :
    ControllerOp → Option ControllerArray
  | .push newCar => controller.push newCar
  | .pop => some controller.pop
  | .insertAt pos newCar => controller.insertAt pos newCar
  | .removeByName name => controller.removeByName name
  | .clear => some controller.clear
  | .ensureCapacity newSize => some (controller.ensureCapacity newSize)

/-- The operation as it acts on the list of records. -/
def ControllerOp.onList (cars : List ConnectedCar) :
    ControllerOp → List ConnectedCar
  | .push newCar => controllerPush cars newCar
  | .pop => cars.dropLast
  | .insertAt pos newCar => cars.insertIdx (min pos cars.length) newCar
  | .removeByName name => cars.eraseP fun car => car.name.chars = name
  | .clear => []
  | .ensureCapacity _ => cars

/-- For a name that fits a record this is the removal on lists. -/
theorem ControllerOp.onList_removeByName (cars : List ConnectedCar)
    (name : CString 50) :
    ControllerOp.onList cars (.removeByName name.chars) =
      controllerRemoveByName cars name := by
  rw [ControllerOp.onList, controllerRemoveByName]
  congr 1
  funext car
  rw [decide_eq_decide]
  exact CString.ext_iff.symm

theorem ControllerOp.perform_represents {controller : ControllerArray}
    {cars : List ConnectedCar} (hrep : controller.Represents cars)
    (op : ControllerOp) :
    ∃ after, op.perform controller = some after ∧
      after.Represents (op.onList cars) := by
  cases op with
  | push newCar => exact hrep.push newCar
  | pop => exact ⟨controller.pop, rfl, hrep.pop⟩
  | insertAt pos newCar => exact hrep.insertAt pos newCar
  | removeByName name => exact hrep.removeByName name
  | clear => exact ⟨controller.clear, rfl, hrep.clear⟩
  | ensureCapacity newSize =>
      exact ⟨controller.ensureCapacity newSize, rfl, hrep.ensureCapacity newSize⟩

section Pool

variable {ι : Type u} [DecidableEq ι]

def PoolOp.perform (pool : ι → ControllerArray) :
    PoolOp ι → Option (ι → ControllerArray)
  | .on controller op =>
      (op.perform (pool controller)).map (Function.update pool controller)
  | .copy src dest =>
      ((pool src).copy (pool dest)).map (Function.update pool dest)

def PoolOp.onLists (lists : ι → List ConnectedCar) :
    PoolOp ι → ι → List ConnectedCar
  | .on controller op =>
      Function.update lists controller (op.onList (lists controller))
  | .copy src dest => Function.update lists dest (lists src)

/-- Every controller is initialised, and the operations follow in order. -/
def runPool (ops : List (PoolOp ι)) : Option (ι → ControllerArray) :=
  ControllerArray.init.bind fun start =>
    ops.foldlM PoolOp.perform fun _ => start

def runLists (ops : List (PoolOp ι)) : ι → List ConnectedCar :=
  Transition.run PoolOp.onLists (fun _ => []) ops

theorem represents_update {pool : ι → ControllerArray}
    {lists : ι → List ConnectedCar}
    (hrep : ∀ controller, (pool controller).Represents (lists controller))
    {after : ControllerArray} {cars : List ConnectedCar}
    (hafter : after.Represents cars) (changed controller : ι) :
    (Function.update pool changed after controller).Represents
      (Function.update lists changed cars controller) := by
  by_cases hsame : controller = changed
  · rw [hsame, Function.update_self, Function.update_self]
    exact hafter
  · rw [Function.update_of_ne hsame, Function.update_of_ne hsame]
    exact hrep controller

theorem PoolOp.perform_represents {pool : ι → ControllerArray}
    {lists : ι → List ConnectedCar}
    (hrep : ∀ controller, (pool controller).Represents (lists controller))
    (op : PoolOp ι) :
    ∃ after, op.perform pool = some after ∧
      ∀ controller, (after controller).Represents (op.onLists lists controller) := by
  cases op with
  | on controller op =>
      obtain ⟨after, hperform, hafter⟩ := op.perform_represents (hrep controller)
      refine ⟨Function.update pool controller after, ?_,
        represents_update hrep hafter controller⟩
      rw [PoolOp.perform, hperform, Option.map_some]
  | copy src dest =>
      obtain ⟨after, hcopy, hafter⟩ := (hrep src).copy (hrep dest)
      refine ⟨Function.update pool dest after, ?_,
        represents_update hrep hafter dest⟩
      rw [PoolOp.perform, hcopy, Option.map_some]

/-- No run of operations accesses a cell outside the array or without a record,
and every array ends up agreeing with its list. -/
theorem controller_array_refines_list (ops : List (PoolOp ι)) :
    ∃ pool, runPool ops = some pool ∧
      ∀ controller, (pool controller).Agrees (runLists ops controller) := by
  obtain ⟨start, hstart, hempty⟩ := ControllerArray.exists_init
  let R : (ι → ControllerArray) → (ι → List ConnectedCar) → Prop :=
    fun pool lists => ∀ controller,
      (pool controller).Represents (lists controller)
  have hstep : ∀ pool lists (op : PoolOp ι), R pool lists →
      ∃ after, op.perform pool = some after ∧ R after (op.onLists lists) :=
    fun pool lists op hrep => op.perform_represents hrep
  have hinit : R (fun _ => start) (fun _ => []) := fun _ => hempty
  obtain ⟨pool, hpool, hrep⟩ :=
    Transition.exists_foldlM_of_simulation hstep hinit ops
  refine ⟨pool, ?_, fun controller => (hrep controller).agrees⟩
  rw [runPool, hstart, Option.bind_some, hpool]

end Pool

end Elevator
