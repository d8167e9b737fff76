/-
The queue as it lies in memory: nodes on the heap, each with a pointer to the
next.  A request links its nodes into the list without losing one of those that
are there, and what the list then holds is what the model of it as a list says.
-/
import Elevator.LinkedList
import Elevator.SweepOrder

namespace Elevator

universe u

open CText Linked

variable {A : Type u}

/-- What `add_to_car_queue` uses of a car's record. -/
structure LinkedCar (A : Type u) where
  currentfloor : CString 4
  queueHead : Option A
  currentDirection : Direction
  elevatorStatus : Option Status
deriving DecidableEq, Repr

/-- How the search for a block ends: at the node to insert behind, or past the
end of the list with `prev` at its last node. -/
inductive SearchEnd (A : Type u) where
  | insertHere (current : A)
  | notFound (prev : Option A)
deriving DecidableEq, Repr

/-- The two nodes of a request, with the links they get. -/
def linkNodes [DecidableEq A] (heap : Heap A QueueNode) (sourceNode destNode : A)
    (sourceStop destStop : QueueNode) (sourceNext destNext : Option A) :
    Heap A QueueNode :=
  store (store heap sourceNode ⟨sourceStop, sourceNext⟩) destNode
    ⟨destStop, destNext⟩

namespace LinkedCar

def insertsAtCurrentFloor (car : LinkedCar A) (sourceFloor : Int)
    (direction : Direction) : Bool :=
  stringToFloor car.currentfloor = sourceFloor &&
    car.elevatorStatus ≠ some .Closing &&
    (car.currentDirection = direction || car.currentDirection = .idle)

/-- The block of the next round: another one begins where the direction
changes. -/
def blockBehind (heap : Heap A QueueNode) (block : Direction)
    (node : Cell A QueueNode) : Option Direction :=
  match node.next with
  | none => some block
  | some next => (heap next).map fun following : Cell A QueueNode =>
      if node.value.direction ≠ following.value.direction then
        following.value.direction
      else block

/-- The loop over the nodes.  It has no result if a pointer leads nowhere, or if
it goes on for more than so many rounds. -/
def searchBlocks (heap : Heap A QueueNode) (direction : Direction)
    (sourceFloor : Int) :
    Nat → Direction → Option A → Option A → Option (SearchEnd A)
  | _, _, prev, none => some (.notFound prev)
  | 0, _, _, some _ => none
  | rounds + 1, block, _, some current =>
      (heap current).bind fun node =>
        if block = direction ∧
            (direction = .up ∧ node.value.floor ≤ sourceFloor ∨
              direction = .down ∧ sourceFloor ≤ node.value.floor) then
          some (.insertHere current)
        else
          (blockBehind heap block node).bind fun block =>
            searchBlocks heap direction sourceFloor rounds block (some current)
              node.next

variable [DecidableEq A]

/-- `add_to_car_queue`, with what `malloc` has returned for the two nodes. -/
def addToCarQueue (rounds : Nat) (heap : Heap A QueueNode) (car : LinkedCar A)
    (sourceNode destNode : Option A) (sourceFloor destFloor : Int) :
    Option (Heap A QueueNode × LinkedCar A × Bool) :=
  match sourceNode, destNode with
  | some sourceNode, some destNode =>
      let direction := requestDirection sourceFloor destFloor
      let linked := linkNodes heap sourceNode destNode ⟨sourceFloor, direction⟩
        ⟨destFloor, direction⟩
      if car.queueHead = none then
        some (linked (some destNode) none,
          { car with queueHead := some sourceNode }, true)
      else if car.insertsAtCurrentFloor sourceFloor direction then
        some (linked car.queueHead car.queueHead,
          { car with queueHead := some sourceNode }, true)
      else
        (searchBlocks heap direction sourceFloor rounds car.currentDirection
            none car.queueHead).bind fun
          | .insertHere current => (heap current).map fun node =>
              (store (linked node.next node.next) current
                { node with next := some sourceNode }, car, true)
          | .notFound (some prev) => (heap prev).map fun node =>
              (store (linked (some destNode) none) prev
                { node with next := some sourceNode }, car, true)
          -- the loop has passed at least one node
          | .notFound none => some (heap, car, true)
  | _, _ => some (heap, car, false)

end LinkedCar

/-- The nodes that hang off `queue_head` hold the queue of the record. -/
structure LinkedCar.Represents (linked : LinkedCar A) (heap : Heap A QueueNode)
    (nodes : List A) (car : ConnectedCar) : Prop where
  currentfloor : linked.currentfloor = car.currentfloor
  currentDirection : linked.currentDirection = car.currentDirection
  elevatorStatus : linked.elevatorStatus = car.elevatorStatus
  path : Path heap linked.queueHead nodes none
  queue : contents heap nodes = car.queue

namespace LinkedCar

section Search

variable {heap : Heap A QueueNode} {direction : Direction} {sourceFloor : Int}

theorem blockBehind_eq {node : Cell A QueueNode} {rest : List A}
    (hrest : Path heap node.next rest none) (block : Direction) :
    blockBehind heap block node =
      some (nextBlock block node.value (contents heap rest)) := by
  cases rest with
  | nil =>
      have hend : node.next = none := hrest
      rw [blockBehind, hend]
      rfl
  | cons next rest =>
      obtain ⟨hnext, following, hfollowing, -⟩ := hrest
      simp only [blockBehind, hnext, hfollowing, Option.map_some,
        contents_cons hfollowing, nextBlock]

/-- The loop over the nodes ends where the search in the list does. -/
theorem searchBlocks_spec {current : Option A} {nodes : List A}
    (hpath : Path heap current nodes none) {rounds : Nat}
    (hrounds : nodes.length ≤ rounds) (block : Direction) (prev : Option A) :
    match findBlock direction sourceFloor block (contents heap nodes) with
    | some position => ∃ before node after, nodes = before ++ node :: after ∧
        position = before.length + 1 ∧
        searchBlocks heap direction sourceFloor rounds block prev current =
          some (.insertHere node)
    | none =>
        searchBlocks heap direction sourceFloor rounds block prev current =
          some (.notFound (nodes.getLast?.or prev)) := by
  induction nodes generalizing current rounds block prev with
  | nil =>
      obtain rfl : current = none := hpath
      cases rounds <;> rfl
  | cons address rest ih =>
      obtain ⟨rfl, cell, hcell, hrest⟩ := hpath
      obtain ⟨rounds, rfl⟩ : ∃ n, rounds = n + 1 :=
        ⟨rounds - 1, by rw [List.length_cons] at hrounds; omega⟩
      rw [contents_cons hcell, findBlock_eq]
      by_cases hhere : block = direction ∧
          (direction = .up ∧ cell.value.floor ≤ sourceFloor ∨
            direction = .down ∧ sourceFloor ≤ cell.value.floor)
      · rw [if_pos hhere]
        refine ⟨[], address, rest, rfl, rfl, ?_⟩
        rw [searchBlocks, hcell, Option.bind_some, if_pos hhere]
      · rw [if_neg hhere]
        have hround : searchBlocks heap direction sourceFloor (rounds + 1) block
              prev (some address) =
            searchBlocks heap direction sourceFloor rounds
              (nextBlock block cell.value (contents heap rest)) (some address)
              cell.next := by
          rw [searchBlocks, hcell, Option.bind_some, if_neg hhere,
            blockBehind_eq hrest, Option.bind_some]
        have hspec := ih hrest (Nat.le_of_succ_le_succ hrounds)
          (nextBlock block cell.value (contents heap rest)) (some address)
        cases hfind : findBlock direction sourceFloor
            (nextBlock block cell.value (contents heap rest))
            (contents heap rest) with
        | some position =>
            rw [hfind] at hspec
            obtain ⟨before, node, after, rfl, rfl, hsearch⟩ := hspec
            exact ⟨address :: before, node, after, rfl, rfl,
              hround.trans hsearch⟩
        | none =>
            rw [hfind] at hspec
            refine hround.trans (hspec.trans ?_)
            cases rest with
            | nil => rfl
            | cons next rest =>
                rw [List.getLast?_cons_cons,
                  List.getLast?_eq_some_getLast (List.cons_ne_nil next rest)]
                rfl

end Search

section Linked

variable {heap : Heap A QueueNode} {sourceNode destNode : A}
  {sourceStop destStop : QueueNode}

/-- The nodes of a request have been linked into a list: it has lost none of
its stops, and gained the source and perhaps the destination. -/
structure LinkedIn (heap after : Heap A QueueNode) (nodes linked : List A)
    (sourceNode destNode : A) (sourceStop destStop : QueueNode) : Prop where
  sublist : nodes.Sublist linked
  kept : ∀ address ∈ nodes,
    (after address).map (·.value) = (heap address).map (·.value)
  added : ∀ address ∈ linked, address ∉ nodes →
    address = sourceNode ∧ (after address).map (·.value) = some sourceStop ∨
      address = destNode ∧ (after address).map (·.value) = some destStop
  present : sourceNode ∈ linked
  elsewhere : ∀ address, address ∉ linked → address ≠ destNode →
    after address = heap address

/-- The nodes of a request come to the head of the list, or behind one of its
nodes, and the destination comes with the source or not at all. -/
theorem linkedIn_insert {before rest added : List A} {after : Heap A QueueNode}
    (hsource : sourceNode ∉ before ++ rest) (hdest : destNode ∉ before ++ rest)
    (hadded : added = [sourceNode] ∨ added = [sourceNode, destNode])
    (hkept : ∀ address ∈ before ++ rest,
      (after address).map (·.value) = (heap address).map (·.value))
    (hsourceStop : (after sourceNode).map (·.value) = some sourceStop)
    (hdestStop : (after destNode).map (·.value) = some destStop)
    (helsewhere : ∀ address, address ∉ before ++ rest → address ≠ sourceNode →
      address ≠ destNode → after address = heap address) :
    LinkedIn heap after (before ++ rest) (before ++ added ++ rest) sourceNode
      destNode sourceStop destStop := by
  constructor
  · rw [List.append_assoc]
    exact (List.sublist_append_right added rest).append_left before
  · exact hkept
  · intro address hmem hnew
    have hin : address ∈ added := by
      simp only [List.mem_append] at hmem hnew
      tauto
    rcases hadded with rfl | rfl
    · obtain rfl : address = sourceNode := by simpa using hin
      exact Or.inl ⟨rfl, hsourceStop⟩
    · obtain rfl | rfl : address = sourceNode ∨ address = destNode := by
        simpa using hin
      · exact Or.inl ⟨rfl, hsourceStop⟩
      · exact Or.inr ⟨rfl, hdestStop⟩
  · rcases hadded with rfl | rfl <;> simp
  · intro address hout hne
    apply helsewhere address _ _ hne
    · intro hmem
      apply hout
      simp only [List.mem_append] at hmem ⊢
      tauto
    · rintro rfl
      apply hout
      rcases hadded with rfl | rfl <;> simp

/-- The nodes of a request, with the links they get, lead on to the rest. -/
theorem path_added {start : Option A} {rest added : List A} {stops : List QueueNode}
    {sourceNext destNext : Option A} {after : Heap A QueueNode}
    (hrest : Path after start rest none)
    (hafterSource : after sourceNode = some ⟨sourceStop, sourceNext⟩)
    (hafterDest : after destNode = some ⟨destStop, destNext⟩)
    (hadded : added = [sourceNode] ∧ stops = [sourceStop] ∧ sourceNext = start ∨
      added = [sourceNode, destNode] ∧ stops = [sourceStop, destStop] ∧
        rest = [] ∧ sourceNext = some destNode ∧ destNext = none) :
    Path after (some sourceNode) (added ++ rest) none ∧
      contents after added = stops := by
  rcases hadded with ⟨rfl, rfl, rfl⟩ | ⟨rfl, rfl, rfl, rfl, rfl⟩
  · refine ⟨⟨rfl, _, hafterSource, hrest⟩, ?_⟩
    rw [contents_cons hafterSource]
    rfl
  · refine ⟨⟨rfl, _, hafterSource, rfl, _, hafterDest, rfl⟩, ?_⟩
    rw [contents_cons hafterSource, contents_cons hafterDest]
    rfl

theorem insertIdx_behind {α : Type u} (before rest : List α) (x y : α) :
    (before ++ x :: rest).insertIdx (before.length + 1) y =
      before ++ x :: y :: rest := by
  induction before with
  | nil => rfl
  | cons head before ih =>
      rw [List.cons_append, List.length_cons, List.insertIdx_succ_cons, ih]
      rfl

/-- One more stop behind a node is an insertion into the stops. -/
theorem contents_behind {start : Option A} {before rest : List A} {node : A}
    {cell : Cell A QueueNode} (hpath : Path heap start (before ++ node :: rest) none)
    (hcell : heap node = some cell) (stop : QueueNode) :
    contents heap (before ++ [node]) ++ [stop] ++ contents heap rest =
      (contents heap (before ++ node :: rest)).insertIdx (before.length + 1) stop := by
  obtain ⟨_, hbefore, -⟩ := Path.append_iff.mp hpath
  rw [contents_append, contents_append, contents_cons hcell, contents_cons hcell,
    ← hbefore.length_contents, insertIdx_behind]
  simp

variable {linked : LinkedCar A} {nodes : List A} {car : ConnectedCar}

theorem Represents.insertsAtCurrentFloor
    (hrep : linked.Represents heap nodes car) (sourceFloor : Int)
    (direction : Direction) :
    linked.insertsAtCurrentFloor sourceFloor direction =
      Elevator.insertsAtCurrentFloor car sourceFloor direction := by
  rw [LinkedCar.insertsAtCurrentFloor, Elevator.insertsAtCurrentFloor,
    hrep.currentfloor, hrep.currentDirection, hrep.elevatorStatus]

theorem Represents.withQueue (hrep : linked.Represents heap nodes car)
    {after : Heap A QueueNode} {head : Option A} {others : List A}
    {queue : List QueueNode} (hpath : Path after head others none)
    (hqueue : contents after others = queue) :
    ({ linked with queueHead := head } : LinkedCar A).Represents after others
      { car with queue := queue } :=
  ⟨hrep.currentfloor, hrep.currentDirection, hrep.elevatorStatus, hpath, hqueue⟩

end Linked

section Insertion

variable [DecidableEq A] {heap : Heap A QueueNode} {sourceNode destNode : A}
  {sourceStop destStop : QueueNode} {linked : LinkedCar A} {nodes : List A}
  {car : ConnectedCar}

theorem linkNodes_source (hne : sourceNode ≠ destNode)
    (sourceNext destNext : Option A) :
    linkNodes heap sourceNode destNode sourceStop destStop sourceNext destNext
      sourceNode = some ⟨sourceStop, sourceNext⟩ := by
  rw [linkNodes, store_of_ne hne, store_self]

theorem linkNodes_dest (sourceNext destNext : Option A) :
    linkNodes heap sourceNode destNode sourceStop destStop sourceNext destNext
      destNode = some ⟨destStop, destNext⟩ :=
  store_self ..

theorem linkNodes_of_ne {address : A} (hsource : address ≠ sourceNode)
    (hdest : address ≠ destNode) (sourceNext destNext : Option A) :
    linkNodes heap sourceNode destNode sourceStop destStop sourceNext destNext
      address = heap address := by
  rw [linkNodes, store_of_ne hdest, store_of_ne hsource]

/-- The store after a node of the list has been made to lead to the source. -/
def linkBehind (heap : Heap A QueueNode) (sourceNode destNode : A)
    (sourceStop destStop : QueueNode) (sourceNext destNext : Option A) (node : A)
    (cell : Cell A QueueNode) : Heap A QueueNode :=
  store
    (linkNodes heap sourceNode destNode sourceStop destStop sourceNext destNext)
    node { cell with next := some sourceNode }

/-- Apart from the three nodes concerned, everything is as it was. -/
theorem linkBehind_cells {node : A} (cell : Cell A QueueNode)
    (hsource : sourceNode ≠ node) (hdest : destNode ≠ node)
    (hne : sourceNode ≠ destNode) (sourceNext destNext : Option A) :
    let after := linkBehind heap sourceNode destNode sourceStop destStop
      sourceNext destNext node cell
    after node = some { cell with next := some sourceNode } ∧
      after sourceNode = some ⟨sourceStop, sourceNext⟩ ∧
      after destNode = some ⟨destStop, destNext⟩ ∧
      ∀ address, address ≠ node → address ≠ sourceNode → address ≠ destNode →
        after address = heap address := by
  refine ⟨store_self .., ?_, ?_, fun address hnode hsource hdest => ?_⟩
  · rw [linkBehind, store_of_ne hsource, linkNodes_source hne]
  · rw [linkBehind, store_of_ne hdest, linkNodes_dest]
  · rw [linkBehind, store_of_ne hnode, linkNodes_of_ne hsource hdest]

/-- A list goes on, behind one of its nodes, with the nodes of the request. -/
theorem linkBehind_spec {start : Option A} {before rest added : List A}
    {stops : List QueueNode} {node : A} {cell : Cell A QueueNode}
    (hpath : Path heap start (before ++ node :: rest) none)
    (hcell : heap node = some cell)
    (hsource : sourceNode ∉ before ++ node :: rest)
    (hdest : destNode ∉ before ++ node :: rest) (hne : sourceNode ≠ destNode)
    {sourceNext destNext : Option A}
    (hadded : added = [sourceNode] ∧ stops = [sourceStop] ∧
        sourceNext = cell.next ∨
      added = [sourceNode, destNode] ∧ stops = [sourceStop, destStop] ∧
        rest = [] ∧ sourceNext = some destNode ∧ destNext = none) :
    let after := linkBehind heap sourceNode destNode sourceStop destStop
      sourceNext destNext node cell
    let linked := before ++ node :: (added ++ rest)
    Path after start linked none ∧
      contents after linked =
        contents heap (before ++ [node]) ++ stops ++ contents heap rest ∧
      LinkedIn heap after (before ++ node :: rest) linked sourceNode destNode
        sourceStop destStop := by
  intro after linked
  have hmem : node ∈ before ++ node :: rest := by simp
  have hnot : node ∉ before ++ rest :=
    (List.nodup_cons.mp (List.nodup_middle.mp hpath.nodup)).1
  obtain ⟨hafterNode, hafterSource, hafterDest, hother⟩ :
      after node = some { cell with next := some sourceNode } ∧
      after sourceNode = some ⟨sourceStop, sourceNext⟩ ∧
      after destNode = some ⟨destStop, destNext⟩ ∧
      ∀ address, address ≠ node → address ≠ sourceNode → address ≠ destNode →
        after address = heap address :=
    @linkBehind_cells A _ heap sourceNode destNode sourceStop destStop node cell (fun heq => hsource (heq ▸ hmem))
      (fun heq => hdest (heq ▸ hmem)) hne sourceNext destNext
  have hsame : ∀ address ∈ before ++ rest, after address = heap address := by
    intro address haddress
    have hin : address ∈ before ++ node :: rest := by
      simp only [List.mem_append, List.mem_cons] at haddress ⊢
      tauto
    apply hother address
    · exact fun heq => hnot (heq ▸ haddress)
    · exact fun heq => hsource (heq ▸ hin)
    · exact fun heq => hdest (heq ▸ hin)
  obtain ⟨hbefore, hrest⟩ := List.forall_mem_append.mp hsame
  have hkept : ∀ address ∈ before ++ [node] ++ rest,
      (after address).map (·.value) = (heap address).map (·.value) := by
    intro address haddress
    by_cases heq : address = node
    · rw [heq, hafterNode, hcell]
      rfl
    · rw [hsame address (by simp_all)]
  have hpathRest : Path heap cell.next rest none := by
    obtain ⟨_, -, rfl, cell', hcell', hpathRest⟩ := Path.append_iff.mp hpath
    obtain rfl : cell = cell' := Option.some.inj (hcell.symm.trans hcell')
    exact hpathRest
  obtain ⟨hpathTail, hstops⟩ :=
    path_added (hpathRest.congr hrest) hafterSource hafterDest hadded
  have hlinked : linked = before ++ [node] ++ added ++ rest := by simp [linked]
  refine ⟨hpath.relink hbefore hafterNode hpathTail, ?_, ?_⟩
  · rw [hlinked, contents_append, contents_append, hstops,
      contents_congr fun address hin => hkept address
        (List.mem_append_left rest hin),
      contents_congr fun address hin => hkept address
        (List.mem_append_right _ hin)]
  · rw [hlinked, show before ++ node :: rest = before ++ [node] ++ rest by simp]
    apply linkedIn_insert
    · simpa using hsource
    · simpa using hdest
    · exact hadded.imp And.left And.left
    · exact hkept
    · rw [hafterSource]
      rfl
    · rw [hafterDest]
      rfl
    · intro address hout hnotSource hnotDest
      exact hother address (by rintro rfl; simp at hout) hnotSource hnotDest

/-- The nodes of a request in front of a list, or by themselves. -/
theorem linkNodes_spec {start : Option A} {added : List A}
    {stops : List QueueNode} (hpath : Path heap start nodes none)
    (hsource : sourceNode ∉ nodes) (hdest : destNode ∉ nodes)
    (hne : sourceNode ≠ destNode) {sourceNext destNext : Option A}
    (hadded : added = [sourceNode] ∧ stops = [sourceStop] ∧
        sourceNext = start ∨
      added = [sourceNode, destNode] ∧ stops = [sourceStop, destStop] ∧
        nodes = [] ∧ sourceNext = some destNode ∧ destNext = none) :
    let after := linkNodes heap sourceNode destNode sourceStop destStop
      sourceNext destNext
    Path after (some sourceNode) (added ++ nodes) none ∧
      contents after (added ++ nodes) = stops ++ contents heap nodes ∧
      LinkedIn heap after nodes (added ++ nodes) sourceNode destNode sourceStop
        destStop := by
  intro after
  have hafterSource : after sourceNode = some ⟨sourceStop, sourceNext⟩ :=
    linkNodes_source hne ..
  have hafterDest : after destNode = some ⟨destStop, destNext⟩ :=
    linkNodes_dest ..
  have hsame : ∀ address ∈ nodes, after address = heap address :=
    fun address hin =>
      linkNodes_of_ne (fun heq : address = sourceNode => hsource (heq ▸ hin))
        (fun heq : address = destNode => hdest (heq ▸ hin)) ..
  have hvalues : ∀ address ∈ nodes,
      (after address).map (·.value) = (heap address).map (·.value) :=
    fun address hin => by rw [hsame address hin]
  obtain ⟨hpathAdded, hstops⟩ :=
    path_added (hpath.congr hsame) hafterSource hafterDest hadded
  refine ⟨hpathAdded, ?_, ?_⟩
  · rw [contents_append, contents_congr hvalues, hstops]
  · apply @linkedIn_insert A heap sourceNode destNode sourceStop destStop [] nodes
      added after hsource hdest (hadded.imp And.left And.left) hvalues
    · rw [hafterSource]
      rfl
    · rw [hafterDest]
      rfl
    · exact fun address _ hnotSource hnotDest =>
        linkNodes_of_ne hnotSource hnotDest ..

/-- A request with memory for its nodes goes through, does to the list of nodes
what the model of the queue as a list says, and keeps its stops. -/
theorem Represents.addToCarQueue (hrep : linked.Represents heap nodes car)
    (hsource : sourceNode ∉ nodes) (hdest : destNode ∉ nodes)
    (hne : sourceNode ≠ destNode) {rounds : Nat} (hrounds : nodes.length ≤ rounds)
    (sourceFloor destFloor : Int) :
    ∃ after linked' nodes',
      linked.addToCarQueue rounds heap (some sourceNode) (some destNode)
          sourceFloor destFloor = some (after, linked', true) ∧
        linked'.Represents after nodes'
          (Elevator.addToCarQueue true car sourceFloor destFloor).1 ∧
        LinkedIn heap after nodes nodes' sourceNode destNode
          ⟨sourceFloor, requestDirection sourceFloor destFloor⟩
          ⟨destFloor, requestDirection sourceFloor destFloor⟩ := by
  have hpath := hrep.path
  have hqueue := hrep.queue
  simp only [LinkedCar.addToCarQueue, Elevator.addToCarQueue, Bool.not_true,
    Bool.false_eq_true, if_false]
  by_cases hempty : linked.queueHead = none
  · obtain rfl : nodes = [] := hpath.unique (hempty ▸ rfl)
    rw [if_pos hempty, if_pos (show car.queue = [] from hqueue.symm)]
    obtain ⟨hafter, hcontents, hlinked⟩ := linkNodes_spec hpath hsource hdest hne
      (Or.inr ⟨rfl, rfl, rfl, rfl, rfl⟩)
    exact ⟨_, _, _, rfl, hrep.withQueue hafter hcontents, hlinked⟩
  · have hne' : car.queue ≠ [] := by
      intro hnil
      have hlength := hpath.length_contents
      rw [hqueue, hnil] at hlength
      obtain rfl := List.eq_nil_of_length_eq_zero hlength.symm
      exact hempty hpath
    rw [if_neg hempty, if_neg hne', hrep.insertsAtCurrentFloor]
    cases hfront : Elevator.insertsAtCurrentFloor car sourceFloor
        (requestDirection sourceFloor destFloor) with
    | true =>
        obtain ⟨hafter, hcontents, hlinked⟩ := linkNodes_spec hpath hsource hdest
          hne (Or.inl ⟨rfl, rfl, rfl⟩)
        refine ⟨_, _, _, rfl, hrep.withQueue hafter ?_, hlinked⟩
        rw [hcontents, hqueue]
        rfl
    | false =>
        have hsearch := @searchBlocks_spec A heap
          (requestDirection sourceFloor destFloor) sourceFloor _ _ hpath _ hrounds
          linked.currentDirection none
        rw [hqueue, hrep.currentDirection] at hsearch
        simp only [Bool.false_eq_true, if_false]
        rw [hrep.currentDirection]
        cases hfind : findBlock (requestDirection sourceFloor destFloor)
            sourceFloor car.currentDirection car.queue with
        | some position =>
            rw [hfind] at hsearch
            obtain ⟨before, node, rest, rfl, rfl, hfound⟩ := hsearch
            obtain ⟨cell, hcell⟩ := hpath.exists_cell
              (show node ∈ before ++ node :: rest by simp)
            obtain ⟨hafter, hcontents, hlinked⟩ := linkBehind_spec hpath hcell
              hsource hdest hne (Or.inl ⟨rfl, rfl, rfl⟩)
            refine ⟨_, _, _, ?_, hrep.withQueue hafter ?_, hlinked⟩
            · rw [hfound, Option.bind_some]
              simp only [hcell]
              rfl
            · rw [hcontents, ← hqueue]
              exact contents_behind hpath hcell _
        | none =>
            rw [hfind] at hsearch
            obtain ⟨before, node, rfl⟩ :
                ∃ before node, nodes = before ++ [node] := by
              have hnodes : nodes ≠ [] := by
                rintro rfl
                exact hempty hpath
              exact ⟨_, _, (List.dropLast_append_getLast hnodes).symm⟩
            obtain ⟨cell, hcell⟩ := hpath.exists_cell
              (show node ∈ before ++ [node] by simp)
            obtain ⟨hafter, hcontents, hlinked⟩ := linkBehind_spec hpath hcell
              hsource hdest hne (Or.inr ⟨rfl, rfl, rfl, rfl, rfl⟩)
            refine ⟨_, _, _, ?_, hrep.withQueue hafter ?_, hlinked⟩
            · rw [hsearch, List.getLast?_concat, Option.some_or, Option.bind_some]
              simp only [hcell]
              rfl
            · rw [hcontents, hqueue, contents_nil, List.append_nil]

/-- A request with memory for its nodes goes through.  The queue stays a list
that ends, with its old stops as they were and in their order; besides them it
holds the source of the request and perhaps the destination. -/
theorem addToCarQueue_keeps_stops
    (hpath : Path heap linked.queueHead nodes none)
    (hsource : heap sourceNode = none) (hdest : heap destNode = none)
    (hne : sourceNode ≠ destNode) {rounds : Nat} (hrounds : nodes.length ≤ rounds)
    (sourceFloor destFloor : Int) :
    ∃ after linked' nodes',
      linked.addToCarQueue rounds heap (some sourceNode) (some destNode)
          sourceFloor destFloor = some (after, linked', true) ∧
        Path after linked'.queueHead nodes' none ∧ nodes'.Nodup ∧
        LinkedIn heap after nodes nodes' sourceNode destNode
          ⟨sourceFloor, requestDirection sourceFloor destFloor⟩
          ⟨destFloor, requestDirection sourceFloor destFloor⟩ := by
  have hfresh : ∀ address, heap address = none → address ∉ nodes := by
    intro address hnone hmem
    obtain ⟨cell, hcell⟩ := hpath.exists_cell hmem
    exact absurd (hnone.symm.trans hcell) (Option.some_ne_none cell).symm
  have hrep : linked.Represents heap nodes
      { idleCar with
        currentfloor := linked.currentfloor
        currentDirection := linked.currentDirection
        elevatorStatus := linked.elevatorStatus
        queue := contents heap nodes } := ⟨rfl, rfl, rfl, hpath, rfl⟩
  obtain ⟨after, linked', nodes', hadd, hafter, hlinked⟩ :=
    hrep.addToCarQueue (hfresh _ hsource) (hfresh _ hdest) hne hrounds sourceFloor
      destFloor
  exact ⟨after, linked', nodes', hadd, hafter.path, hafter.path.nodup, hlinked⟩

end Insertion

/-- A car on floor 1 with two stops on its way up, at addresses 10 and 20. -/
def twoStops : LinkedCar Nat :=
  ⟨floorToString 1, some 10, .up, some .Closed⟩

def twoStopsHeap : Heap Nat QueueNode :=
  store (store (fun _ => none) 20 ⟨⟨7, .up⟩, none⟩) 10 ⟨⟨3, .up⟩, some 20⟩

theorem addToCarQueue_keeps_stops_between :
    ∃ after linked' nodes',
      twoStops.addToCarQueue 2 twoStopsHeap (some 30) (some 40) 5 9 =
          some (after, linked', true) ∧
        Path after linked'.queueHead nodes' none ∧ nodes'.Nodup ∧
        LinkedIn twoStopsHeap after [10, 20] nodes' 30 40 ⟨5, .up⟩ ⟨9, .up⟩ := by
  have hpath : Path twoStopsHeap twoStops.queueHead [10, 20] none :=
    ⟨rfl, ⟨⟨3, .up⟩, some 20⟩, rfl, rfl, ⟨⟨7, .up⟩, none⟩, rfl, rfl⟩
  exact addToCarQueue_keeps_stops hpath rfl rfl (by decide) (Nat.le_refl 2) 5 9

end LinkedCar

end Elevator
