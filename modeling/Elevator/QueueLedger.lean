/-
The nodes of all queues over whole runs of the controller.  Pointers never lead
to memory that is not allocated, no node is given back twice, and the queues in
memory are those of the records; what is lost is the destination of a request
that does not go to the end of its queue, and the queue of a car that hangs up.
-/
import Elevator.Itinerary
import Elevator.QueueMemory
import Mathlib.Data.List.GetD
import Mathlib.Data.List.InsertIdx

namespace Elevator

universe u

open CText Linked Transition

variable {A : Type u}

/-- The heap, and the member `queue_head` of every record. -/
structure QueueHeap (A : Type u) where
  heap : Heap A QueueNode
  heads : List (Option A)

def QueueHeap.head (memory : QueueHeap A) (j : Nat) : Option A :=
  memory.heads.getD j none

/-- Every allocated node hangs off some record. -/
def NoNodeLost (memory : QueueHeap A) : Prop :=
  ∀ address, memory.heap address ≠ none →
    ∃ j nodes, Path memory.heap (memory.head j) nodes none ∧ address ∈ nodes

/-- The account of the nodes: each is in the queue of one record, or lost. -/
structure QueueHeap.Holds (memory : QueueHeap A) (queues : Nat → List QueueNode)
    (nodes : Nat → List A) (lost : A → Prop) : Prop where
  path : ∀ j, Path memory.heap (memory.head j) (nodes j) none
  queue : ∀ j, contents memory.heap (nodes j) = queues j
  apart : ∀ {i j address}, address ∈ nodes i → address ∈ nodes j → i = j
  notLost : ∀ {j address}, address ∈ nodes j → ¬ lost address
  allocated : ∀ address, memory.heap address ≠ none ↔
    (∃ j, address ∈ nodes j) ∨ lost address

namespace QueueHeap

variable {memory : QueueHeap A} {queues : Nat → List QueueNode}
  {nodes : Nat → List A} {lost : A → Prop}

theorem head_set {j : Nat} (hj : j < memory.heads.length) (heap : Heap A QueueNode)
    (head : Option A) (i : Nat) :
    QueueHeap.head ⟨heap, memory.heads.set j head⟩ i =
      if i = j then head else memory.head i := by
  simp only [QueueHeap.head, List.getD_eq_getElem?_getD]
  by_cases heq : i = j
  · subst heq
    rw [if_pos rfl, List.getElem?_set_self hj, Option.getD_some]
  · rw [if_neg heq, List.getElem?_set_ne (Ne.symm heq)]

/-- Nothing is lost exactly when the account shows nothing as lost. -/
theorem Holds.noNodeLost_iff (hholds : memory.Holds queues nodes lost) :
    NoNodeLost memory ↔ ∀ address, ¬ lost address := by
  constructor
  · intro hall address hlost
    obtain ⟨j, others, hpath, hmem⟩ :=
      hall address ((hholds.allocated address).mpr (.inr hlost))
    rw [hpath.unique (hholds.path j)] at hmem
    exact hholds.notLost hmem hlost
  · intro hnone address hsome
    obtain ⟨j, hmem⟩ :=
      ((hholds.allocated address).mp hsome).resolve_right (hnone address)
    exact ⟨j, nodes j, hholds.path j, hmem⟩

/-- Nodes that hang off a record, or are lost, are not fresh. -/
theorem Holds.ne_of_mem (hholds : memory.Holds queues nodes lost) {fresh address : A}
    (hfresh : memory.heap fresh = none) {i : Nat} (hmem : address ∈ nodes i) :
    address ≠ fresh := by
  rintro rfl
  exact (hholds.allocated address).mpr (.inl ⟨i, hmem⟩) hfresh

theorem Holds.ne_of_lost (hholds : memory.Holds queues nodes lost) {fresh address : A}
    (hfresh : memory.heap fresh = none) (hlost : lost address) : address ≠ fresh := by
  rintro rfl
  exact (hholds.allocated address).mpr (.inr hlost) hfresh

/-- One queue is changed, and the rest of the memory left alone. -/
theorem Holds.update (hholds : memory.Holds queues nodes lost) {j : Nat}
    (hj : j < memory.heads.length) {heap : Heap A QueueNode} {head : Option A}
    {others : List A} {queue : List QueueNode} {lost' : A → Prop}
    (hpath : Path heap head others none) (hqueue : contents heap others = queue)
    (helsewhere : ∀ i, i ≠ j → ∀ address ∈ nodes i,
      heap address = memory.heap address ∧ address ∉ others ∧ ¬ lost' address)
    (hnotLost : ∀ address ∈ others, ¬ lost' address)
    (hallocated : ∀ address, heap address ≠ none ↔
      address ∈ others ∨ (∃ i, i ≠ j ∧ address ∈ nodes i) ∨ lost' address) :
    QueueHeap.Holds ⟨heap, memory.heads.set j head⟩
      (Function.update queues j queue) (Function.update nodes j others) lost' := by
  have hnodes (i : Nat) (hne : i ≠ j) : Function.update nodes j others i = nodes i :=
    Function.update_of_ne hne ..
  constructor
  · intro i
    rw [head_set hj]
    by_cases heq : i = j
    · subst heq
      rw [if_pos rfl, Function.update_self]
      exact hpath
    · rw [if_neg heq, hnodes i heq]
      exact (hholds.path i).congr fun address hmem =>
        (helsewhere i heq address hmem).1
  · intro i
    by_cases heq : i = j
    · subst heq
      rw [Function.update_self, Function.update_self]
      exact hqueue
    · rw [hnodes i heq, Function.update_of_ne heq, ← hholds.queue i]
      exact contents_congr fun address hmem =>
        congrArg _ (helsewhere i heq address hmem).1
  · intro i k address hi hk
    by_cases hij : i = j
    · by_cases hkj : k = j
      · exact hij.trans hkj.symm
      · rw [hij, Function.update_self] at hi
        rw [hnodes k hkj] at hk
        exact absurd hi (helsewhere k hkj address hk).2.1
    · rw [hnodes i hij] at hi
      by_cases hkj : k = j
      · rw [hkj, Function.update_self] at hk
        exact absurd hk (helsewhere i hij address hi).2.1
      · rw [hnodes k hkj] at hk
        exact hholds.apart hi hk
  · intro i address hi
    by_cases hij : i = j
    · rw [hij, Function.update_self] at hi
      exact hnotLost address hi
    · rw [hnodes i hij] at hi
      exact (helsewhere i hij address hi).2.2
  · intro address
    rw [hallocated address, ← or_assoc]
    refine or_congr_left ⟨?_, ?_⟩
    · rintro (hmem | ⟨i, hne, hmem⟩)
      · exact ⟨j, by rwa [Function.update_self]⟩
      · exact ⟨i, by rwa [hnodes i hne]⟩
    · rintro ⟨i, hmem⟩
      by_cases hij : i = j
      · rw [hij, Function.update_self] at hmem
        exact .inl hmem
      · rw [hnodes i hij] at hmem
        exact .inr ⟨i, hij, hmem⟩

theorem Holds.of_cons (hholds : memory.Holds queues nodes lost) {j : Nat}
    {stop : QueueNode} {rest : List QueueNode} (hqueue : queues j = stop :: rest) :
    ∃ head others cell, memory.head j = some head ∧ nodes j = head :: others ∧
      memory.heap head = some cell ∧ Path memory.heap cell.next others none ∧
      contents memory.heap others = rest := by
  have hpath := hholds.path j
  have hcontents := hholds.queue j
  rw [hqueue] at hcontents
  cases hnodes : nodes j with
  | nil =>
      rw [hnodes, contents_nil] at hcontents
      cases hcontents
  | cons head others =>
      rw [hnodes] at hpath hcontents
      obtain ⟨hhead, cell, hcell, hothers⟩ := hpath
      rw [contents_cons hcell] at hcontents
      exact ⟨head, others, cell, hhead, rfl, hcell, hothers, (List.cons.inj hcontents).2⟩

theorem lt_length_of_head {j : Nat} {head : A} (hhead : memory.head j = some head) :
    j < memory.heads.length := by
  by_contra hout
  rw [QueueHeap.head, List.getD_eq_getElem?_getD,
    List.getElem?_eq_none (Nat.not_lt.mp hout)] at hhead
  cases hhead

theorem exists_mem_iff (nodes : Nat → List A) (j : Nat) (address : A) :
    (∃ i, address ∈ nodes i) ↔
      address ∈ nodes j ∨ ∃ i, i ≠ j ∧ address ∈ nodes i := by
  constructor
  · rintro ⟨i, hmem⟩
    by_cases heq : i = j
    · exact .inl (heq ▸ hmem)
    · exact .inr ⟨i, heq, hmem⟩
  · rintro (hmem | ⟨i, -, hmem⟩)
    · exact ⟨j, hmem⟩
    · exact ⟨i, hmem⟩

theorem Holds.of_head (hholds : memory.Holds queues nodes lost)
    {heads : List (Option A)}
    (hheads : ∀ j, QueueHeap.head ⟨memory.heap, heads⟩ j = memory.head j) :
    QueueHeap.Holds ⟨memory.heap, heads⟩ queues nodes lost :=
  { hholds with path := fun j => hheads j ▸ hholds.path j }

theorem getD_concat_default {α : Type u} (entries : List α) (default : α) (j : Nat) :
    (entries ++ [default]).getD j default = entries.getD j default := by
  rcases Nat.lt_trichotomy j entries.length with hlt | rfl | hgt
  · exact List.getD_append entries [default] default j hlt
  · simp
  · rw [List.getD_eq_default _ _ (by simp; omega), List.getD_eq_default _ _ hgt.le]

theorem head_push (memory : QueueHeap A) (j : Nat) :
    QueueHeap.head ⟨memory.heap, memory.heads ++ [none]⟩ j = memory.head j :=
  getD_concat_default memory.heads none j

/-- The place that a record comes from when the one at `k` is taken out. -/
def behind (k j : Nat) : Nat := if j < k then j else j + 1

theorem behind_ne (k j : Nat) : behind k j ≠ k := by
  unfold behind
  split <;> omega

theorem behind_injective {k i j : Nat} (hsame : behind k i = behind k j) : i = j := by
  unfold behind at hsame
  split at hsame <;> split at hsame <;> omega

theorem exists_behind {k i : Nat} (hne : i ≠ k) : ∃ j, behind k j = i := by
  rcases Nat.lt_or_gt_of_ne hne with hlt | hgt
  · exact ⟨i, if_pos hlt⟩
  · refine ⟨i - 1, ?_⟩
    rw [behind, if_neg (by omega)]
    omega

theorem getD_eraseIdx {α : Type u} (entries : List α) (k j : Nat) (default : α) :
    (entries.eraseIdx k).getD j default = entries.getD (behind k j) default := by
  rw [List.getD_eq_getElem?_getD, List.getD_eq_getElem?_getD, List.getElem?_eraseIdx,
    behind]
  split <;> rfl

/-- A record is taken out, and its queue is lost. -/
theorem Holds.forget (hholds : memory.Holds queues nodes lost) (k : Nat) :
    QueueHeap.Holds ⟨memory.heap, memory.heads.eraseIdx k⟩
      (fun j => queues (behind k j)) (fun j => nodes (behind k j))
      (fun address => lost address ∨ address ∈ nodes k) := by
  constructor
  · intro j
    rw [QueueHeap.head, getD_eraseIdx]
    exact hholds.path (behind k j)
  · exact fun j => hholds.queue (behind k j)
  · exact fun hi hj => behind_injective (hholds.apart hi hj)
  · intro j address hmem
    rintro (hlost | hother)
    · exact hholds.notLost hmem hlost
    · exact behind_ne k j (hholds.apart hmem hother)
  · intro address
    rw [hholds.allocated address, exists_mem_iff nodes k]
    constructor
    · rintro ((hmem | ⟨i, hne, hmem⟩) | hlost)
      · exact .inr (.inr hmem)
      · obtain ⟨j, rfl⟩ := exists_behind hne
        exact .inl ⟨j, hmem⟩
      · exact .inr (.inl hlost)
    · rintro (⟨j, hmem⟩ | hlost | hmem)
      · exact .inl (.inr ⟨behind k j, behind_ne k j, hmem⟩)
      · exact .inr hlost
      · exact .inl (.inl hmem)

theorem Holds.nodes_eq_nil_iff (hholds : memory.Holds queues nodes lost) (j : Nat) :
    nodes j = [] ↔ queues j = [] := by
  rw [← hholds.queue j, ← List.length_eq_zero_iff, ← List.length_eq_zero_iff,
    (hholds.path j).length_contents]

end QueueHeap

/-- The car's record, as `add_to_car_queue` is given it. -/
def QueueHeap.record (memory : QueueHeap A) (j : Nat) (car : ConnectedCar) :
    LinkedCar A where
  currentfloor := car.currentfloor
  queueHead := memory.head j
  currentDirection := car.currentDirection
  elevatorStatus := car.elevatorStatus

structure Ledger (lost : A → Prop) (state : ControllerState × QueueHeap A) :
    Prop where
  size : state.2.heads.length = state.1.cars.length
  holds : ∃ nodes, state.2.Holds (queueAt state.1.cars) nodes lost

variable {state : ControllerState × QueueHeap A} {lost : A → Prop}

theorem Ledger.same (hledger : Ledger lost state)
    {after : ControllerState} (hcars : after.cars = state.1.cars) :
    Ledger lost (after, state.2) := by
  refine ⟨?_, ?_⟩
  · rw [hledger.size, ← hcars]
  · rw [show queueAt after.cars = queueAt state.1.cars by rw [hcars]]
    exact hledger.holds

def noQueues : QueueHeap A := ⟨fun _ => none, []⟩

theorem ledger_noQueues (masterSet : List Int) :
    Ledger (A := A) (fun _ => False) (⟨[], masterSet⟩, noQueues) := by
  refine ⟨rfl, fun _ => [], ?_⟩
  constructor
  · exact fun _ => rfl
  · exact fun _ => rfl
  · exact fun hmem => absurd hmem List.not_mem_nil
  · exact fun hmem => absurd hmem List.not_mem_nil
  · simp [noQueues]

variable [DecidableEq A]

def QueueHeap.add (memory : QueueHeap A) (j : Nat) (car : ConnectedCar)
    (sourceNode destNode : Option A) (sourceFloor destFloor : Int) :
    Option (QueueHeap A) :=
  ((memory.record j car).addToCarQueue car.queue.length memory.heap sourceNode
    destNode sourceFloor destFloor).map fun (heap, record, _) =>
      ⟨heap, memory.heads.set j record.queueHead⟩

/-- `remove_from_car_queue` on a record: the node at the head is read and given
back.  It has no result if the head leads nowhere. -/
def QueueHeap.remove (memory : QueueHeap A) (j : Nat) : Option (QueueHeap A) :=
  match memory.head j with
  | none => some memory
  | some head => (memory.heap head).map fun node : Cell A QueueNode =>
      ⟨free memory.heap head, memory.heads.set j node.next⟩

/-- The nodes that a step of the handlers gives back. -/
def QueueHeap.removeAll (memory : QueueHeap A) (log : List ControllerEvent) :
    Option (QueueHeap A) :=
  log.foldlM (fun memory event =>
    match event with
    | .removed j _ _ => memory.remove j
    | _ => some memory) memory

/-- An input, with the addresses that `malloc` returns if it is called. -/
structure MemoryInput (A : Type u) where
  input : ControllerInput
  sourceNode : A
  destNode : A

/-- What an input does to the nodes.  `controller_remove_by_name` moves the
records behind the one it takes out, without looking at its queue. -/
def QueueHeap.handle (memory : QueueHeap A) (state : ControllerState)
    (label : MemoryInput A) : Option (QueueHeap A) :=
  match label.input with
  | .connection _ => some memory
  | .call _ source destination outcome =>
      match bestCar state.cars (stringToFloor source)
        (stringToFloor destination) with
      | none => some memory
      | some (record, car) =>
          let allocated (node : A) := if outcome.allocated then some node else none
          memory.add record car (allocated label.sourceNode)
            (allocated label.destNode) (stringToFloor source)
            (stringToFloor destination)
  | .car _ _ _ _ _ => some { memory with heads := memory.heads ++ [none] }
  | .status _ _ _ _ _ => memory.removeAll (controllerStep state label.input).2
  | .hangUp socket =>
      some { memory with
        heads := match controllerGetNameBySocket state.cars socket with
          | none => memory.heads
          | some name =>
              match state.cars.findIdx? fun car => car.name = name with
              | none => memory.heads
              | some j => memory.heads.eraseIdx j }

/-- The controller with its queues in memory; `none` once a pointer has led
nowhere. -/
def memoryStep (state : Option (ControllerState × QueueHeap A))
    (label : MemoryInput A) : Option (ControllerState × QueueHeap A) :=
  state.bind fun (state, memory) =>
    (memory.handle state label).map fun after =>
      ((controllerStep state label.input).1, after)

/-- The controller with its queues as lists. -/
def registryStep (state : ControllerState) (input : ControllerInput) :
    ControllerState :=
  (controllerStep state input).1

/-- What the environment sees to: `malloc` returns what is free, and a car
registers without stops. -/
def Admitted (state : ControllerState × QueueHeap A) (label : MemoryInput A) :
    Prop :=
  match label.input with
  | .call _ _ _ _ => state.2.heap label.sourceNode = none ∧
      state.2.heap label.destNode = none ∧ label.sourceNode ≠ label.destNode
  | .car _ _ _ _ fresh => fresh.queue = []
  | _ => True

instance (state : ControllerState × QueueHeap A) (label : MemoryInput A) :
    Decidable (Admitted state label) := by
  unfold Admitted
  split <;> infer_instance

/-- No node is lost: a request that is taken goes to the end of its queue, and
the record removed when a car hangs up has no stops left.  It is the first one
under the car's name, so another one where names are equal. -/
def KeepsNodes (state : ControllerState) : ControllerInput → Prop
  | .call _ source destination outcome =>
      outcome.allocated = true →
        ∀ found ∈ bestCar state.cars (stringToFloor source)
          (stringToFloor destination),
          JoinsAtEnd found.2 (stringToFloor source) (stringToFloor destination)
  | .hangUp socket =>
      ∀ name ∈ controllerGetNameBySocket state.cars socket,
        ∀ j ∈ state.cars.findIdx? (fun car => car.name = name),
          queueAt state.cars j = []
  | _ => True

namespace QueueHeap

variable {memory : QueueHeap A} {queues : Nat → List QueueNode}
  {nodes : Nat → List A} {lost : A → Prop}

/-- The node at the head is allocated, so that it can be read and given back. -/
theorem Holds.remove (hholds : memory.Holds queues nodes lost) {j : Nat}
    {stop : QueueNode} {rest : List QueueNode} (hqueue : queues j = stop :: rest) :
    ∃ after nodes', memory.remove j = some after ∧
      after.Holds (Function.update queues j rest) nodes' lost ∧
      after.heads.length = memory.heads.length := by
  obtain ⟨head, others, cell, hhead, hnodes, hcell, hothers, hrest⟩ :=
    hholds.of_cons hqueue
  have hpath := hholds.path j
  rw [hhead, hnodes] at hpath
  have hnodup := List.nodup_cons.mp hpath.nodup
  obtain ⟨hpath', hcontents⟩ := hpath.free_head hcell
  refine ⟨⟨free memory.heap head, memory.heads.set j cell.next⟩,
    Function.update nodes j others, ?_, ?_, List.length_set⟩
  · rw [QueueHeap.remove, hhead]
    simp only [hcell, Option.map_some]
  · apply hholds.update (lt_length_of_head hhead) hpath' (hcontents.trans hrest)
    · intro i hne address hmem
      have hapart : address ∉ nodes j := fun hother => hne (hholds.apart hmem hother)
      rw [hnodes, List.mem_cons, not_or] at hapart
      exact ⟨free_of_ne hapart.1 _, hapart.2, hholds.notLost hmem⟩
    · intro address hmem
      exact hholds.notLost (j := j) (hnodes ▸ List.mem_cons_of_mem head hmem)
    · intro address
      by_cases heq : address = head
      · subst heq
        rw [free_self]
        refine iff_of_false (not_not.mpr rfl) ?_
        have hmem : address ∈ nodes j := hnodes ▸ List.mem_cons_self
        rintro (hothers | ⟨i, hne, hother⟩ | hlost)
        · exact hnodup.1 hothers
        · exact hne (hholds.apart hother hmem)
        · exact hholds.notLost hmem hlost
      · rw [free_of_ne heq, hholds.allocated address, exists_mem_iff nodes j, hnodes,
          List.mem_cons, or_iff_right heq, or_assoc]

theorem Holds.removeAll (hholds : memory.Holds queues nodes lost)
    {log : List ControllerEvent} {rest : Nat → List QueueNode}
    (hqueues : ∀ j, removedFrom j log ++ rest j = queues j) :
    ∃ after nodes', memory.removeAll log = some after ∧
      after.Holds rest nodes' lost ∧
      after.heads.length = memory.heads.length := by
  induction log generalizing memory queues nodes with
  | nil =>
      obtain rfl : rest = queues := funext hqueues
      exact ⟨memory, nodes, rfl, hholds, rfl⟩
  | cons event log ih =>
      cases event with
      | assigned record sourceFloor destFloor => exact ih hholds hqueues
      | sent receiver message => exact ih hholds hqueues
      | removed j stop reported =>
          have hown : removedFrom j (.removed j stop reported :: log) =
              stop :: removedFrom j log := by simp [removedFrom]
          have hqueue : queues j = stop :: (removedFrom j log ++ rest j) := by
            rw [← hqueues j, hown, List.cons_append]
          obtain ⟨middle, nodes', hmiddle, hholds', hlength⟩ :=
            hholds.remove hqueue
          have hlater (i : Nat) : removedFrom i log ++ rest i =
              Function.update queues j (removedFrom j log ++ rest j) i := by
            by_cases heq : i = j
            · rw [heq, Function.update_self]
            · have hother : removedFrom i (.removed j stop reported :: log) =
                  removedFrom i log := by simp [removedFrom, Ne.symm heq]
              rw [Function.update_of_ne heq, ← hqueues i, hother]
          obtain ⟨after, nodes'', hafter, hholds'', hlength'⟩ := ih hholds' hlater
          refine ⟨after, nodes'', ?_, hholds'', hlength'.trans hlength⟩
          rw [QueueHeap.removeAll, List.foldlM_cons]
          simp only [hmiddle]
          exact hafter

theorem store_ne_none {heap : Heap A QueueNode} {address other : A}
    (hother : heap other ≠ none) (cell : Cell A QueueNode) :
    store heap address cell other ≠ none := by
  by_cases heq : other = address
  · rw [heq, store_self]
    exact Option.some_ne_none cell
  · rwa [store_of_ne heq]

/-- Where the source has been linked in, the destination has been filled in. -/
theorem destNode_allocated {linked linked' : LinkedCar A}
    {heap after : Heap A QueueNode} {rounds : Nat} {sourceNode destNode : A}
    {sourceFloor destFloor : Int} {added : Bool}
    (hadd : linked.addToCarQueue rounds heap (some sourceNode) (some destNode)
      sourceFloor destFloor = some (after, linked', added))
    (hsource : heap sourceNode = none) (hlinked : after sourceNode ≠ none) :
    after destNode ≠ none := by
  have hfilled (sourceStop destStop : QueueNode) (sourceNext destNext : Option A) :
      linkNodes heap sourceNode destNode sourceStop destStop sourceNext destNext
        destNode ≠ none := by
    rw [LinkedCar.linkNodes_dest]
    exact Option.some_ne_none _
  simp only [LinkedCar.addToCarQueue] at hadd
  split_ifs at hadd
  · cases hadd
    exact hfilled _ _ _ _
  · cases hadd
    exact hfilled _ _ _ _
  · obtain ⟨found, -, hfound⟩ := Option.bind_eq_some_iff.mp hadd
    cases found with
    | insertHere current =>
        obtain ⟨node, -, hnode⟩ := Option.map_eq_some_iff.mp hfound
        cases hnode
        exact store_ne_none (hfilled _ _ _ _) _
    | notFound prev =>
        cases prev with
        | some prev =>
            obtain ⟨node, -, hnode⟩ := Option.map_eq_some_iff.mp hfound
            cases hnode
            exact store_ne_none (hfilled _ _ _ _) _
        | none =>
            cases hfound
            exact absurd hsource hlinked

section Add

variable {car : ConnectedCar} {sourceNode destNode : A} {heap after : Heap A QueueNode}
  {sourceStop destStop : QueueNode}

/-- The destination is linked in exactly when the list gains two nodes. -/
theorem destNode_mem_iff {before linked : List A} (hbefore : before.Nodup)
    (hlinkedNodup : linked.Nodup)
    (hlinked : LinkedCar.LinkedIn heap after before linked sourceNode destNode
      sourceStop destStop)
    (hsource : sourceNode ∉ before) (hdest : destNode ∉ before)
    (hne : sourceNode ≠ destNode) :
    destNode ∈ linked ↔ linked.length ≠ before.length + 1 := by
  constructor
  · intro hmem
    have hboth : (sourceNode :: destNode :: before).Nodup := by
      simp [hbefore, hsource, hdest, hne]
    have hsub : sourceNode :: destNode :: before ⊆ linked := by
      intro address haddress
      rcases List.mem_cons.mp haddress with rfl | haddress
      · exact hlinked.present
      · rcases List.mem_cons.mp haddress with rfl | haddress
        · exact hmem
        · exact hlinked.sublist.subset haddress
    have hlength := hboth.length_le_of_subset hsub
    simp only [List.length_cons] at hlength
    omega
  · intro hlength
    by_contra hout
    have hsub : linked ⊆ sourceNode :: before := by
      intro address haddress
      by_cases hold : address ∈ before
      · exact List.mem_cons_of_mem _ hold
      · rcases hlinked.added address haddress hold with ⟨rfl, -⟩ | ⟨rfl, -⟩
        · exact List.mem_cons_self
        · exact absurd haddress hout
    have hle := hlinkedNodup.length_le_of_subset hsub
    have hlt : before.length < linked.length := by
      by_contra hge
      have hsame := hlinked.sublist.eq_of_length_le (Nat.not_lt.mp hge)
      exact hsource (hsame ▸ hlinked.present)
    rw [List.length_cons] at hle
    omega

theorem joinsAtEnd_iff_length (car : ConnectedCar) (sourceFloor destFloor : Int) :
    JoinsAtEnd car sourceFloor destFloor ↔
      (addToCarQueue true car sourceFloor destFloor).1.queue.length ≠
        car.queue.length + 1 := by
  by_cases hjoins : JoinsAtEnd car sourceFloor destFloor
  · rw [addToCarQueue_of_joinsAtEnd hjoins, List.length_append]
    exact iff_of_true hjoins (by simp)
  · exact iff_of_false hjoins
      (not_not.mpr (length_addToCarQueue_of_not_joinsAtEnd hjoins))

/-- Fresh nodes have been linked into the queue of a record; the destination is
lost where it has been left out. -/
theorem Holds.linkedIn (hholds : memory.Holds queues nodes lost) {j : Nat}
    (hj : j < memory.heads.length) (hsource : memory.heap sourceNode = none)
    (hdest : memory.heap destNode = none) {head : Option A} {others : List A}
    {queue : List QueueNode} (hpath : Path heap head others none)
    (hqueue : contents heap others = queue)
    (hlinked : LinkedCar.LinkedIn memory.heap heap (nodes j) others sourceNode
      destNode sourceStop destStop)
    (hdestNode : heap destNode ≠ none) :
    QueueHeap.Holds ⟨heap, memory.heads.set j head⟩
      (Function.update queues j queue) (Function.update nodes j others)
      (fun address => lost address ∨ address = destNode ∧ destNode ∉ others) := by
  have hnew {address : A} (hmem : address ∈ others) (hold : address ∉ nodes j) :
      address = sourceNode ∨ address = destNode :=
    (hlinked.added address hmem hold).imp And.left And.left
  apply hholds.update hj hpath hqueue
  · intro i hi address hmem
    have hneSource := hholds.ne_of_mem hsource hmem
    have hneDest := hholds.ne_of_mem hdest hmem
    have hout : address ∉ others := by
      intro hin
      rcases hnew hin fun hother => hi (hholds.apart hmem hother) with heq | heq
      · exact hneSource heq
      · exact hneDest heq
    exact ⟨hlinked.elsewhere address hout hneDest, hout,
      not_or.mpr ⟨hholds.notLost hmem, fun h => hneDest h.1⟩⟩
  · intro address hmem
    rintro (hlost | ⟨rfl, hout⟩)
    · by_cases hold : address ∈ nodes j
      · exact hholds.notLost hold hlost
      · exact (hnew hmem hold).elim (hholds.ne_of_lost hsource hlost)
          (hholds.ne_of_lost hdest hlost)
    · exact hout hmem
  · intro address
    by_cases hin : address ∈ others
    · obtain ⟨cell, hcell⟩ := hpath.exists_cell hin
      exact iff_of_true (hcell ▸ Option.some_ne_none cell) (.inl hin)
    · by_cases heq : address = destNode
      · subst heq
        exact iff_of_true hdestNode (.inr (.inr (.inr ⟨rfl, hin⟩)))
      · have hout : address ∉ nodes j := fun hmem => hin (hlinked.sublist.subset hmem)
        rw [hlinked.elsewhere address hin heq, hholds.allocated address,
          exists_mem_iff nodes j]
        simp [hin, hout, heq]

/-- A request is linked in; its destination is lost unless it goes to the end of
the queue. -/
theorem Holds.add (hholds : memory.Holds queues nodes lost) {j : Nat}
    (hj : j < memory.heads.length) (hqueue : queues j = car.queue)
    (hsource : memory.heap sourceNode = none) (hdest : memory.heap destNode = none)
    (hne : sourceNode ≠ destNode) (sourceFloor destFloor : Int) :
    ∃ after nodes' lost',
      memory.add j car (some sourceNode) (some destNode) sourceFloor destFloor =
        some after ∧
      after.Holds (Function.update queues j
        (addToCarQueue true car sourceFloor destFloor).1.queue) nodes' lost' ∧
      after.heads.length = memory.heads.length ∧
      ((∀ address, ¬ lost' address) ↔
        (∀ address, ¬ lost address) ∧ JoinsAtEnd car sourceFloor destFloor) := by
  have hsourceOut : sourceNode ∉ nodes j := fun hmem => hholds.ne_of_mem hsource hmem rfl
  have hdestOut : destNode ∉ nodes j := fun hmem => hholds.ne_of_mem hdest hmem rfl
  have hrep : (memory.record j car).Represents memory.heap (nodes j) car :=
    ⟨rfl, rfl, rfl, hholds.path j, (hholds.queue j).trans hqueue⟩
  have hlengthBefore : (nodes j).length = car.queue.length := by
    rw [← hqueue, ← hholds.queue j, (hholds.path j).length_contents]
  obtain ⟨heap, record, others, hadd, hrep', hlinked⟩ := hrep.addToCarQueue
    hsourceOut hdestOut hne (Nat.le_of_eq hlengthBefore) sourceFloor destFloor
  have hlengthAfter : others.length =
      (addToCarQueue true car sourceFloor destFloor).1.queue.length := by
    rw [← hrep'.queue, hrep'.path.length_contents]
  have hallocatedSource : heap sourceNode ≠ none := by
    obtain ⟨cell, hcell⟩ := hrep'.path.exists_cell hlinked.present
    exact hcell ▸ Option.some_ne_none cell
  have hdestIn : destNode ∈ others ↔ JoinsAtEnd car sourceFloor destFloor := by
    rw [destNode_mem_iff (hholds.path j).nodup hrep'.path.nodup hlinked hsourceOut
      hdestOut hne, joinsAtEnd_iff_length, hlengthAfter, hlengthBefore]
  refine ⟨⟨heap, memory.heads.set j record.queueHead⟩, Function.update nodes j others,
    fun address => lost address ∨ address = destNode ∧ destNode ∉ others, ?_, ?_,
    List.length_set, ?_⟩
  · rw [QueueHeap.add, hadd]
    rfl
  · exact hholds.linkedIn hj hsource hdest hrep'.path hrep'.queue hlinked
      (destNode_allocated hadd hsource hallocatedSource)
  · rw [← hdestIn]
    constructor
    · intro hnone
      refine ⟨fun address hlost => hnone address (.inl hlost), ?_⟩
      by_contra hout
      exact hnone destNode (.inr ⟨rfl, hout⟩)
    · rintro ⟨hnone, hin⟩ address (hlost | ⟨-, hout⟩)
      · exact hnone address hlost
      · exact hout hin

end Add

theorem add_refused {j : Nat} (hj : j < memory.heads.length) (car : ConnectedCar)
    (sourceFloor destFloor : Int) :
    memory.add j car none none sourceFloor destFloor = some memory := by
  have hhead : memory.head j = memory.heads[j] := by
    rw [QueueHeap.head, List.getD_eq_getElem?_getD, List.getElem?_eq_getElem hj,
      Option.getD_some]
  have hset : memory.heads.set j (memory.head j) = memory.heads := by
    rw [hhead, List.set_getElem_self]
  simp only [QueueHeap.add, LinkedCar.addToCarQueue, Option.map_some,
    QueueHeap.record, hset]

end QueueHeap

section Run

/-- The outcome of a step: it does not fail, its nodes are accounted for, and it
loses none of them exactly when it keeps them. -/
def StepBalanced (lost : A → Prop) (state : ControllerState × QueueHeap A)
    (label : MemoryInput A) : Prop :=
  ∃ memory, ∃ lost' : A → Prop, state.2.handle state.1 label = some memory ∧
    Ledger lost' ((controllerStep state.1 label.input).1, memory) ∧
    ((∀ address, ¬ lost' address) ↔
      (∀ address, ¬ lost address) ∧ KeepsNodes state.1 label.input)

theorem Ledger.call (hledger : Ledger lost state) {socket : Int}
    {source destination : CString 4} {outcome : CallOutcome}
    {sourceNode destNode : A}
    (hadmitted : Admitted state
      ⟨.call socket source destination outcome, sourceNode, destNode⟩) :
    StepBalanced lost state
      ⟨.call socket source destination outcome, sourceNode, destNode⟩ := by
  cases hbest : bestCar state.1.cars (stringToFloor source)
      (stringToFloor destination) with
  | none =>
      have hcars := (@callStep_refused state.1 source destination socket outcome
        (Or.inl hbest)).1
      refine ⟨state.2, lost, ?_, hledger.same hcars, ?_⟩
      · simp only [QueueHeap.handle, hbest]
      · simp [KeepsNodes, hbest]
  | some found =>
      obtain ⟨record, car⟩ := found
      have hold := getElem?_of_bestCar hbest
      have hrecord : record < state.2.heads.length := by
        rw [hledger.size]
        exact (List.getElem?_eq_some_iff.mp hold).1
      cases hallocated : outcome.allocated with
      | false =>
          have hcars := (@callStep_refused state.1 source destination socket
            outcome (Or.inr hallocated)).1
          refine ⟨state.2, lost, ?_, hledger.same hcars, ?_⟩
          · simp only [QueueHeap.handle, hbest, hallocated, Bool.false_eq_true,
              if_false]
            exact QueueHeap.add_refused hrecord ..
          · simp [KeepsNodes, hallocated]
      | true =>
          obtain ⟨nodes, hholds⟩ := hledger.holds
          obtain ⟨hsource, hdest, hne⟩ := hadmitted
          obtain ⟨after, nodes', lost', hadd, hholds', hlength, hlost⟩ :=
            hholds.add hrecord (queueAt_of_getElem? hold) hsource hdest hne
              (stringToFloor source) (stringToFloor destination)
          obtain ⟨destination', hcars⟩ := sendNextDestination_cars state.1 record
            (addToCarQueue true car (stringToFloor source)
              (stringToFloor destination)).1 outcome.orderSent
          have hafter := (@callStep_cars state.1 record car socket source destination
            outcome hallocated hbest).trans hcars
          refine ⟨after, lost', ?_, ⟨?_, nodes', ?_⟩, ?_⟩
          · simp only [QueueHeap.handle, hbest, hallocated, if_true]
            exact hadd
          · simp only [controllerStep]
            rw [hlength, hledger.size, hafter, List.length_set]
          · have hqueues : queueAt (controllerStep state.1 (.call socket source
                destination outcome)).1.cars = Function.update
                  (queueAt state.1.cars) record (addToCarQueue true car
                    (stringToFloor source) (stringToFloor destination)).1.queue := by
              funext i
              simp only [controllerStep]
              rw [hafter, queueAt_set hold]
              by_cases heq : record = i
              · rw [if_pos heq, heq, Function.update_self]
              · rw [if_neg heq, Function.update_of_ne (Ne.symm heq)]
            exact hqueues ▸ hholds'
          · rw [hlost]
            simp [KeepsNodes, hallocated, hbest]

theorem Ledger.status (hledger : Ledger lost state) (socket : Int)
    (statusStr : CString 8) (currentFloor destinationFloor : CString 4)
    (sends : Bool) (sourceNode destNode : A) :
    StepBalanced lost state
      ⟨.status socket statusStr currentFloor destinationFloor sends, sourceNode,
        destNode⟩ := by
  obtain ⟨nodes, hholds⟩ := hledger.holds
  obtain ⟨after, nodes', hremove, hholds', hlength⟩ := hholds.removeAll fun j =>
    (statusStep_conserves state.1 socket statusStr currentFloor destinationFloor
      sends j).2
  have hsize := congrArg List.length (statusStep_identity state.1 socket statusStr
    currentFloor destinationFloor sends)
  rw [List.length_map, List.length_map] at hsize
  refine ⟨after, lost, hremove, ⟨?_, nodes', hholds'⟩, ?_⟩
  · rw [hlength, hledger.size]
    exact hsize.symm
  · simp [KeepsNodes]

theorem queueAt_eq_getD (cars : List ConnectedCar) (j : Nat) :
    queueAt cars j = (cars.map (·.queue)).getD j [] :=
  (List.getD_eq_getElem?_getD ..).symm

theorem queueAt_push {cars : List ConnectedCar} {newCar : ConnectedCar}
    (hqueue : newCar.queue = []) (j : Nat) :
    queueAt (cars ++ [newCar]) j = queueAt cars j := by
  rw [queueAt_eq_getD, queueAt_eq_getD, List.map_append, List.map_singleton, hqueue,
    QueueHeap.getD_concat_default]

theorem queueAt_eraseIdx (cars : List ConnectedCar) (k j : Nat) :
    queueAt (cars.eraseIdx k) j = queueAt cars (QueueHeap.behind k j) := by
  rw [queueAt_eq_getD, queueAt_eq_getD, ← List.eraseIdx_map, QueueHeap.getD_eraseIdx]

theorem Ledger.register (hledger : Ledger lost state) {socket : Int}
    {name : CString 50} {lowestFloor highestFloor : CString 4}
    {fresh : ConnectedCar} (hfresh : fresh.queue = []) (sourceNode destNode : A) :
    StepBalanced lost state
      ⟨.car socket name lowestFloor highestFloor fresh, sourceNode, destNode⟩ := by
  obtain ⟨nodes, hholds⟩ := hledger.holds
  refine ⟨⟨state.2.heap, state.2.heads ++ [none]⟩, lost, rfl, ⟨?_, nodes, ?_⟩, ?_⟩
  · simp [controllerStep, controllerPush, hledger.size]
  · have hqueues : queueAt (controllerStep state.1 (.car socket name lowestFloor
        highestFloor fresh)).1.cars = queueAt state.1.cars := by
      funext i
      have hnew : (registeredCar socket name lowestFloor highestFloor fresh).queue =
          [] := hfresh
      simp only [controllerStep, controllerPush]
      exact queueAt_push hnew i
    rw [hqueues]
    exact hholds.of_head (QueueHeap.head_push state.2)
  · simp [KeepsNodes]

theorem Ledger.hangUp (hledger : Ledger lost state) (socket : Int)
    (sourceNode destNode : A) :
    StepBalanced lost state ⟨.hangUp socket, sourceNode, destNode⟩ := by
  obtain ⟨nodes, hholds⟩ := hledger.holds
  cases hname : controllerGetNameBySocket state.1.cars socket with
  | none =>
      have hcars : (hangUpStep state.1 socket).cars = state.1.cars := by
        simp only [hangUpStep, hname]
        rfl
      refine ⟨state.2, lost, ?_, hledger.same hcars, ?_⟩
      · simp only [QueueHeap.handle, hname]
      · simp [KeepsNodes, hname]
  | some name =>
      have hafter : (hangUpStep state.1 socket).cars =
          controllerRemoveByName state.1.cars name := by
        simp only [hangUpStep, hname]
        rfl
      rw [controllerRemoveByName, List.eraseP_eq_eraseIdx] at hafter
      cases hfind : state.1.cars.findIdx? fun car => car.name = name with
      | none =>
          rw [hfind] at hafter
          refine ⟨state.2, lost, ?_, hledger.same hafter, ?_⟩
          · simp only [QueueHeap.handle, hname, hfind]
          · simp [KeepsNodes, hname, hfind]
      | some k =>
          rw [hfind] at hafter
          refine ⟨⟨state.2.heap, state.2.heads.eraseIdx k⟩,
            fun address => lost address ∨ address ∈ nodes k, ?_, ⟨?_,
            fun j => nodes (QueueHeap.behind k j), ?_⟩, ?_⟩
          · simp only [QueueHeap.handle, hname, hfind]
          · simp only [controllerStep]
            rw [hafter, List.length_eraseIdx, List.length_eraseIdx, hledger.size]
          · have hqueues : queueAt (hangUpStep state.1 socket).cars =
                fun j => queueAt state.1.cars (QueueHeap.behind k j) := by
              funext j
              rw [hafter, queueAt_eraseIdx]
            simp only [controllerStep]
            rw [hqueues]
            exact hholds.forget k
          · have hkeeps : KeepsNodes state.1 (.hangUp socket) ↔ nodes k = [] := by
              simp only [KeepsNodes, hname, hfind, Option.mem_def, Option.some.injEq,
                forall_eq', hholds.nodes_eq_nil_iff k]
            rw [hkeeps, List.eq_nil_iff_forall_not_mem, ← forall_and]
            exact forall_congr' fun address => not_or

theorem Ledger.step (hledger : Ledger lost state) {label : MemoryInput A}
    (hadmitted : Admitted state label) : StepBalanced lost state label := by
  obtain ⟨input, sourceNode, destNode⟩ := label
  cases input with
  | connection socket =>
      exact ⟨state.2, lost, rfl, hledger.same rfl, by simp [KeepsNodes]⟩
  | call socket source destination outcome => exact hledger.call hadmitted
  | car socket name lowestFloor highestFloor fresh =>
      exact hledger.register hadmitted sourceNode destNode
  | status socket statusStr currentFloor destinationFloor sends =>
      exact hledger.status socket statusStr currentFloor destinationFloor sends
        sourceNode destNode
  | hangUp socket => exact hledger.hangUp socket sourceNode destNode

theorem Ledger.run (labels : List (MemoryInput A)) (hledger : Ledger lost state)
    (hadmitted : Along memoryStep (fun state label => ∀ s ∈ state, Admitted s label)
      (some state) labels) :
    ∃ memory, ∃ lost' : A → Prop,
      Transition.run memoryStep (some state) labels =
          some (Transition.run registryStep state.1 (labels.map (·.input)), memory) ∧
        Ledger lost'
          (Transition.run registryStep state.1 (labels.map (·.input)), memory) ∧
        ((∀ address, ¬ lost' address) ↔ (∀ address, ¬ lost address) ∧
          Along registryStep KeepsNodes state.1 (labels.map (·.input))) := by
  induction labels generalizing state lost with
  | nil =>
      refine ⟨state.2, lost, rfl, hledger, ?_⟩
      simp [Along]
  | cons label rest ih =>
      obtain ⟨hnow, hlater⟩ := hadmitted
      obtain ⟨memory, middle, hhandle, hledger', hmiddle⟩ :=
        hledger.step (hnow state rfl)
      change Ledger middle (registryStep state.1 label.input, memory) at hledger'
      have hstep : memoryStep (some state) label =
          some (registryStep state.1 label.input, memory) := by
        simp only [memoryStep, Option.bind_some, hhandle, Option.map_some]
        rfl
      rw [hstep] at hlater
      obtain ⟨after, lost', hrun, hafter, hlost⟩ := ih hledger' hlater
      refine ⟨after, lost', ?_, hafter, ?_⟩
      · rw [run_cons, hstep, hrun]
        rfl
      · rw [hlost, hmiddle, and_assoc]
        rfl

end Run

/-- From the start of the controller on, the queues in memory are those of the
records, if `malloc` returns free addresses and cars register without leftover
queue pointers: no pointer is followed to memory that is not allocated, no node is
given back twice, and no two queues share one.  Every node that is allocated hangs
off some record exactly when every request has gone to the end of its queue and
no record removed at a hang-up had stops left. -/
theorem queues_in_memory_over_runs (masterSet : List Int)
    (labels : List (MemoryInput A))
    (hadmitted : Along memoryStep (fun state label => ∀ s ∈ state, Admitted s label)
      (some (⟨[], masterSet⟩, noQueues)) labels) :
    let inputs := labels.map (·.input)
    let registry := run registryStep ⟨[], masterSet⟩ inputs
    ∃ memory : QueueHeap A, ∃ nodes : Nat → List A,
      run memoryStep (some (⟨[], masterSet⟩, noQueues)) labels =
          some (registry, memory) ∧
        (∀ j, Path memory.heap (memory.head j) (nodes j) none ∧
          contents memory.heap (nodes j) = queueAt registry.cars j) ∧
        (∀ i j, i ≠ j → (nodes i).Disjoint (nodes j)) ∧
        (NoNodeLost memory ↔
          Along registryStep KeepsNodes ⟨[], masterSet⟩ inputs) := by
  obtain ⟨memory, lost, hrun, ⟨-, nodes, hholds⟩, hlost⟩ :=
    (ledger_noQueues masterSet).run labels hadmitted
  refine ⟨memory, nodes, hrun, fun j => ⟨hholds.path j, hholds.queue j⟩, ?_, ?_⟩
  · intro i j hne address hi hj
    exact hne (hholds.apart hi hj)
  · rw [hholds.noNodeLost_iff, hlost]
    exact and_iff_right fun _ => not_false

/-- Alpha registers and is called twice; it serves the first stop, and hangs up
before the others. -/
def servedOnce : List (MemoryInput Nat) :=
  [⟨.car 4 idleCar.name idleCar.lowestFloor idleCar.highestFloor idleCar, 0, 0⟩,
    ⟨callFrom 3 6, 10, 20⟩,
    ⟨reportAt .Closing 3 3, 0, 0⟩,
    ⟨callFrom 5 2, 30, 40⟩,
    ⟨reportAt .Closed 3 3, 0, 0⟩,
    ⟨.hangUp 4, 0, 0⟩]

theorem queues_in_memory_served_once :
    ∃ memory : QueueHeap Nat, ∃ nodes : Nat → List Nat,
      run memoryStep (some (⟨[], [5]⟩, noQueues)) servedOnce =
          some (run registryStep ⟨[], [5]⟩ (servedOnce.map (·.input)), memory) ∧
        (∀ j, Path memory.heap (memory.head j) (nodes j) none ∧
          contents memory.heap (nodes j) =
            queueAt (run registryStep ⟨[], [5]⟩
              (servedOnce.map (·.input))).cars j) ∧
        (∀ i j, i ≠ j → (nodes i).Disjoint (nodes j)) ∧
        (NoNodeLost memory ↔
          Along registryStep KeepsNodes ⟨[], [5]⟩ (servedOnce.map (·.input))) :=
  queues_in_memory_over_runs [5] servedOnce (by decide)

end Elevator
