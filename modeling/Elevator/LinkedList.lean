/-
Singly linked lists in a store of cells.  A list is the sequence of addresses
that the links lead along; one that the links lead to the end of passes no
address twice, and a store to cells off the path leaves it where it is.
-/
import Mathlib.Data.List.Nodup
import Mathlib.Logic.Function.Basic

namespace Linked

universe u v

variable {A : Type u} {V : Type v}

structure Cell (A : Type u) (V : Type v) where
  value : V
  next : Option A
deriving DecidableEq, Repr

abbrev Heap (A : Type u) (V : Type v) := A → Option (Cell A V)

/-- The links lead from `start` along `nodes` to `stop`. -/
def Path (heap : Heap A V) : Option A → List A → Option A → Prop
  | start, [], stop => start = stop
  | start, address :: rest, stop => start = some address ∧
      ∃ cell, heap address = some cell ∧ Path heap cell.next rest stop

def contents (heap : Heap A V) (nodes : List A) : List V :=
  nodes.filterMap fun address => (heap address).map (·.value)

def store [DecidableEq A] (heap : Heap A V) (address : A) (cell : Cell A V) :
    Heap A V :=
  Function.update heap address (some cell)

def free [DecidableEq A] (heap : Heap A V) (address : A) : Heap A V :=
  Function.update heap address none

@[simp] theorem path_nil (heap : Heap A V) (start stop : Option A) :
    Path heap start [] stop ↔ start = stop := Iff.rfl

@[simp] theorem contents_nil (heap : Heap A V) : contents heap [] = [] := rfl

theorem contents_cons {heap : Heap A V} {address : A} {cell : Cell A V}
    (hcell : heap address = some cell) (rest : List A) :
    contents heap (address :: rest) = cell.value :: contents heap rest := by
  rw [contents, List.filterMap_cons, hcell]
  rfl

theorem contents_congr {heap other : Heap A V} {nodes : List A}
    (hsame : ∀ address ∈ nodes,
      (other address).map (·.value) = (heap address).map (·.value)) :
    contents other nodes = contents heap nodes :=
  List.filterMap_congr hsame

theorem contents_append (heap : Heap A V) (first second : List A) :
    contents heap (first ++ second) =
      contents heap first ++ contents heap second :=
  List.filterMap_append

section Store

variable [DecidableEq A]

@[simp] theorem store_self (heap : Heap A V) (address : A) (cell : Cell A V) :
    store heap address cell address = some cell :=
  Function.update_self ..

theorem store_of_ne {address other : A} (hne : other ≠ address)
    (heap : Heap A V) (cell : Cell A V) :
    store heap address cell other = heap other :=
  Function.update_of_ne hne ..

@[simp] theorem free_self (heap : Heap A V) (address : A) :
    free heap address address = none :=
  Function.update_self ..

theorem free_of_ne {address other : A} (hne : other ≠ address)
    (heap : Heap A V) : free heap address other = heap other :=
  Function.update_of_ne hne ..

end Store

namespace Path

variable {heap other : Heap A V} {start stop : Option A} {nodes : List A}

theorem append_iff {first second : List A} :
    Path heap start (first ++ second) stop ↔
      ∃ middle, Path heap start first middle ∧ Path heap middle second stop := by
  induction first generalizing start with
  | nil => simp [Path]
  | cons address first ih =>
      constructor
      · rintro ⟨rfl, cell, hcell, hrest⟩
        obtain ⟨middle, hfirst, hsecond⟩ := ih.mp hrest
        exact ⟨middle, ⟨rfl, cell, hcell, hfirst⟩, hsecond⟩
      · rintro ⟨middle, ⟨rfl, cell, hcell, hfirst⟩, hsecond⟩
        exact ⟨rfl, cell, hcell, ih.mpr ⟨middle, hfirst, hsecond⟩⟩

theorem exists_cell (hpath : Path heap start nodes stop) {address : A}
    (hmem : address ∈ nodes) : ∃ cell, heap address = some cell := by
  induction nodes generalizing start with
  | nil => cases hmem
  | cons head rest ih =>
      obtain ⟨rfl, cell, hcell, hrest⟩ := hpath
      rcases List.mem_cons.mp hmem with rfl | hmem
      · exact ⟨cell, hcell⟩
      · exact ih hrest hmem

theorem length_contents (hpath : Path heap start nodes stop) :
    (contents heap nodes).length = nodes.length := by
  induction nodes generalizing start with
  | nil => rfl
  | cons head rest ih =>
      obtain ⟨rfl, cell, hcell, hrest⟩ := hpath
      rw [contents_cons hcell, List.length_cons, List.length_cons, ih hrest]

/-- A path does not see what happens off it. -/
theorem congr (hpath : Path heap start nodes stop)
    (hsame : ∀ address ∈ nodes, other address = heap address) :
    Path other start nodes stop := by
  induction nodes generalizing start with
  | nil => exact hpath
  | cons head rest ih =>
      obtain ⟨rfl, cell, hcell, hrest⟩ := hpath
      obtain ⟨hhead, hothers⟩ := List.forall_mem_cons.mp hsame
      exact ⟨rfl, cell, hhead.trans hcell, ih hrest hothers⟩

/-- The links leave no choice. -/
theorem unique {first second : List A} (hfirst : Path heap start first none)
    (hsecond : Path heap start second none) : first = second := by
  induction first generalizing start second with
  | nil =>
      obtain rfl : start = none := hfirst
      cases second with
      | nil => rfl
      | cons head rest => exact absurd hsecond.1 (Option.some_ne_none head).symm
  | cons address first ih =>
      obtain ⟨rfl, cell, hcell, hrest⟩ := hfirst
      cases second with
      | nil => exact absurd hsecond (Option.some_ne_none address)
      | cons head rest =>
          obtain ⟨hhead, cell', hcell', hrest'⟩ := hsecond
          obtain rfl : address = head := Option.some.inj hhead
          obtain rfl : cell = cell' :=
            Option.some.inj (hcell.symm.trans hcell')
          rw [ih hrest hrest']

/-- A list that ends has no cycle. -/
theorem nodup (hpath : Path heap start nodes none) : nodes.Nodup := by
  induction nodes generalizing start with
  | nil => exact List.nodup_nil
  | cons address rest ih =>
      have hwhole := hpath
      obtain ⟨rfl, cell, hcell, hrest⟩ := hpath
      apply List.nodup_cons.mpr
      refine ⟨fun hmem => ?_, ih hrest⟩
      -- from its second occurrence on, the address would begin the same list
      obtain ⟨before, after, rfl⟩ := List.append_of_mem hmem
      obtain ⟨middle, -, hafter⟩ := append_iff.mp hrest
      obtain rfl := hafter.1
      have heq := congrArg List.length (unique hwhole hafter)
      simp only [List.length_cons, List.length_append] at heq
      omega

/-- Without its first node a list is what the node led to. -/
theorem free_head [DecidableEq A] {address : A} {rest : List A} {cell : Cell A V}
    (hpath : Path heap (some address) (address :: rest) none)
    (hcell : heap address = some cell) :
    Path (free heap address) cell.next rest none ∧
      contents (free heap address) rest = contents heap rest := by
  have hnot := (List.nodup_cons.mp hpath.nodup).1
  have hsame : ∀ other ∈ rest, free heap address other = heap other :=
    fun other hmem => free_of_ne (ne_of_mem_of_not_mem hmem hnot) heap
  obtain ⟨-, cell', hcell', hrest⟩ := hpath
  obtain rfl : cell = cell' := Option.some.inj (hcell.symm.trans hcell')
  exact ⟨hrest.congr hsame, contents_congr fun other hmem => by rw [hsame other hmem]⟩

theorem relink {before after tail : List A} {address : A} {cell : Cell A V}
    (hpath : Path heap start (before ++ address :: after) stop)
    (hbefore : ∀ earlier ∈ before, other earlier = heap earlier)
    (hcell : other address = some cell) {stop' : Option A}
    (htail : Path other cell.next tail stop') :
    Path other start (before ++ address :: tail) stop' := by
  obtain ⟨middle, hfirst, rfl, -, -, -⟩ := append_iff.mp hpath
  exact append_iff.mpr ⟨_, hfirst.congr hbefore, rfl, cell, hcell, htail⟩

end Path

end Linked
