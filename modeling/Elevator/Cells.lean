/-
A growing array written with explicit indices: cells that may hold a value, and
the loops that shift, copy and search them.  An access outside the array, or to
a cell that holds no value yet, is no result.  Such an array stands for a list
where its first cells hold the list's elements.
-/
import Mathlib.Data.List.InsertIdx

namespace Cells

universe u

variable {α : Type u}

def load (cells : List (Option α)) (i : Nat) : Option α :=
  cells[i]?.join

def store (cells : List (Option α)) (i : Nat) (x : α) :
    Option (List (Option α)) :=
  if i < cells.length then some (cells.set i (some x)) else none

/-- `data[j] = source[i]`. -/
def copyCell (source : List (Option α)) (i : Nat) (cells : List (Option α))
    (j : Nat) : Option (List (Option α)) :=
  (load source i).bind (store cells j)

/-- `for (; i > pos; --i) data[i] = data[i - 1]`. -/
def shiftUp (pos : Nat) : Nat → List (Option α) → Option (List (Option α))
  | 0, cells => some cells
  | i + 1, cells =>
      if pos < i + 1 then
        (copyCell cells i cells (i + 1)).bind (shiftUp pos i)
      else some cells

/-- `for (; j < stop; ++j) data[j] = data[j + 1]`, which takes `stop - j`
rounds. -/
def shiftDown : Nat → Nat → List (Option α) → Option (List (Option α))
  | 0, _, cells => some cells
  | rounds + 1, j, cells =>
      (copyCell cells (j + 1) cells j).bind (shiftDown rounds (j + 1))

/-- `for (; i < stop; ++i) data[i] = source[i]`, which takes `stop - i`
rounds. -/
def copyCells (source : List (Option α)) :
    Nat → Nat → List (Option α) → Option (List (Option α))
  | 0, _, cells => some cells
  | rounds + 1, i, cells =>
      (copyCell source i cells i).bind (copyCells source rounds (i + 1))

/-- The first of the next `rounds` cells from `i` on whose value passes the
test. -/
def findCell (test : α → Bool) (cells : List (Option α)) :
    Nat → Nat → Option (Option Nat)
  | 0, _ => some none
  | rounds + 1, i =>
      (load cells i).bind fun x =>
        if test x then some (some i) else findCell test cells rounds (i + 1)

/-- `realloc` to so many cells: those there is still room for keep what they
hold. -/
def realloc (cells : List (Option α)) (count : Nat) : List (Option α) :=
  cells.take count ++ List.replicate (count - cells.length) none

@[simp] theorem length_realloc (cells : List (Option α)) (count : Nat) :
    (realloc cells count).length = count := by
  simp [realloc]
  omega

theorem load_realloc {cells : List (Option α)} {count k : Nat} (hk : k < count) :
    load (realloc cells count) k = load cells k := by
  rw [load, load, realloc]
  by_cases hcell : k < cells.length
  · rw [List.getElem?_append_left (by rw [List.length_take]; omega),
      List.getElem?_take, if_pos hk]
  · rw [List.getElem?_append_right (by rw [List.length_take]; omega),
      List.getElem?_replicate, List.getElem?_eq_none (by omega)]
    split <;> rfl

theorem load_store {cells after : List (Option α)} {i : Nat} {x : α}
    (hstore : store cells i x = some after) (k : Nat) :
    load after k = if k = i then some x else load cells k := by
  rw [store, Option.ite_none_right_eq_some] at hstore
  obtain ⟨hi, hset⟩ := hstore
  rw [Option.some.injEq] at hset
  rw [load, ← hset, List.getElem?_set]
  by_cases hk : k = i
  · simp [hk, hi]
  · rw [if_neg fun h => hk h.symm, if_neg hk, load]

theorem length_store {cells after : List (Option α)} {i : Nat} {x : α}
    (hstore : store cells i x = some after) : after.length = cells.length := by
  rw [store, Option.ite_none_right_eq_some, Option.some.injEq] at hstore
  rw [← hstore.2, List.length_set]

theorem exists_store {cells : List (Option α)} {i : Nat} (hi : i < cells.length)
    (x : α) : ∃ after, store cells i x = some after :=
  ⟨cells.set i (some x), if_pos hi⟩

/-- What one assignment does: the cell is overwritten and the others stay. -/
theorem copyCell_spec {source cells : List (Option α)} {i j : Nat} {x : α}
    (hx : load source i = some x) (hj : j < cells.length) :
    ∃ after, copyCell source i cells j = some after ∧
      after.length = cells.length ∧
      ∀ k, load after k = if k = j then some x else load cells k := by
  obtain ⟨after, hafter⟩ := exists_store hj x
  refine ⟨after, ?_, length_store hafter, load_store hafter⟩
  rw [copyCell, hx, Option.bind_some, hafter]

theorem shiftUp_spec {pos i : Nat} {cells : List (Option α)}
    (hi : i < cells.length)
    (hload : ∀ k, pos ≤ k → k < i → ∃ x, load cells k = some x) :
    ∃ after, shiftUp pos i cells = some after ∧ after.length = cells.length ∧
      ∀ k, load after k =
        if pos < k ∧ k ≤ i then load cells (k - 1) else load cells k := by
  induction i generalizing cells with
  | zero =>
      refine ⟨cells, rfl, rfl, fun k => ?_⟩
      rw [if_neg (by omega)]
  | succ i ih =>
      by_cases hpos : pos < i + 1
      · obtain ⟨x, hx⟩ := hload i (by omega) (by omega)
        obtain ⟨middle, hmiddle, hlength, hcells⟩ := copyCell_spec hx hi
        obtain ⟨after, hafter, hafterLength, hafterCells⟩ :=
          @ih middle (by omega) fun k hk hki => by
            rw [hcells, if_neg (by omega)]
            exact hload k hk (by omega)
        refine ⟨after, ?_, by omega, fun k => ?_⟩
        · rw [shiftUp, if_pos hpos, hmiddle, Option.bind_some, hafter]
        · rw [hafterCells]
          by_cases hk : pos < k ∧ k ≤ i
          · rw [if_pos hk, if_pos (by omega), hcells, if_neg (by omega)]
          · rw [if_neg hk, hcells]
            by_cases htop : k = i + 1
            · rw [if_pos htop, if_pos (by omega), htop, Nat.add_sub_cancel, hx]
            · rw [if_neg htop, if_neg (by omega)]
      · refine ⟨cells, if_neg hpos, rfl, fun k => ?_⟩
        rw [if_neg (by omega)]

theorem shiftDown_spec {rounds j : Nat} {cells : List (Option α)}
    (hload : ∀ k, j < k → k ≤ j + rounds → ∃ x, load cells k = some x)
    (hlast : j + rounds < cells.length) :
    ∃ after, shiftDown rounds j cells = some after ∧
      after.length = cells.length ∧
      ∀ k, load after k =
        if j ≤ k ∧ k < j + rounds then load cells (k + 1) else load cells k := by
  induction rounds generalizing j cells with
  | zero =>
      refine ⟨cells, rfl, rfl, fun k => ?_⟩
      rw [if_neg (by omega)]
  | succ rounds ih =>
      obtain ⟨x, hx⟩ := hload (j + 1) (by omega) (by omega)
      obtain ⟨middle, hmiddle, hlength, hcells⟩ :=
        copyCell_spec hx (show j < cells.length by omega)
      obtain ⟨after, hafter, hafterLength, hafterCells⟩ :=
        @ih (j + 1) middle
          (fun k hk hkj => by
            rw [hcells, if_neg (by omega)]
            exact hload k (by omega) (by omega))
          (by omega)
      refine ⟨after, ?_, by omega, fun k => ?_⟩
      · rw [shiftDown, hmiddle, Option.bind_some, hafter]
      · rw [hafterCells]
        by_cases hk : j + 1 ≤ k ∧ k < j + 1 + rounds
        · rw [if_pos hk, if_pos (by omega), hcells, if_neg (by omega)]
        · rw [if_neg hk, hcells]
          by_cases hbottom : k = j
          · rw [if_pos hbottom, if_pos (by omega), hbottom, hx]
          · rw [if_neg hbottom, if_neg (by omega)]

theorem copyCells_spec {source : List (Option α)} {rounds i : Nat}
    {cells : List (Option α)}
    (hload : ∀ k, i ≤ k → k < i + rounds → ∃ x, load source k = some x)
    (hroom : i + rounds ≤ cells.length) :
    ∃ after, copyCells source rounds i cells = some after ∧
      after.length = cells.length ∧
      ∀ k, load after k =
        if i ≤ k ∧ k < i + rounds then load source k else load cells k := by
  induction rounds generalizing i cells with
  | zero =>
      refine ⟨cells, rfl, rfl, fun k => ?_⟩
      rw [if_neg (by omega)]
  | succ rounds ih =>
      obtain ⟨x, hx⟩ := hload i (by omega) (by omega)
      obtain ⟨middle, hmiddle, hlength, hcells⟩ :=
        copyCell_spec hx (show i < cells.length by omega)
      obtain ⟨after, hafter, hafterLength, hafterCells⟩ :=
        @ih (i + 1) middle (fun k hk hki => hload k (by omega) (by omega))
          (by omega)
      refine ⟨after, ?_, by omega, fun k => ?_⟩
      · rw [copyCells, hmiddle, Option.bind_some, hafter]
      · rw [hafterCells]
        by_cases hk : i + 1 ≤ k ∧ k < i + 1 + rounds
        · rw [if_pos hk, if_pos (by omega)]
        · rw [if_neg hk, hcells]
          by_cases hfirst : k = i
          · rw [if_pos hfirst, if_pos (by omega), hfirst, hx]
          · rw [if_neg hfirst, if_neg (by omega)]

theorem findCell_of_load {test : α → Bool} {cells : List (Option α)}
    {l : List α} {i : Nat}
    (hload : ∀ k x, l[k]? = some x → load cells (i + k) = some x) :
    findCell test cells l.length i = some ((l.findIdx? test).map (· + i)) := by
  induction l generalizing i with
  | nil => rfl
  | cons x rest ih =>
      have hx : load cells i = some x := hload 0 x rfl
      rw [List.length_cons, findCell, hx, Option.bind_some, List.findIdx?_cons]
      by_cases htest : test x
      · simp [htest]
      · have hrest := @ih (i + 1) fun k y hy => by
          rw [Nat.add_right_comm, Nat.add_assoc]
          exact hload (k + 1) y hy
        rw [if_neg htest, if_neg htest, hrest, Option.map_map]
        congr 2
        funext k
        simp only [Function.comp_apply]
        omega

/-- The first cells hold the elements of the list, in order. -/
def Holds (cells : List (Option α)) (l : List α) : Prop :=
  ∀ k x, l[k]? = some x → load cells k = some x

section Holds

variable {cells source : List (Option α)} {l : List α}

theorem Holds.exists_load (hholds : Holds cells l) {k : Nat}
    (hk : k < l.length) : ∃ x, load cells k = some x :=
  ⟨l[k], hholds k l[k] (List.getElem?_eq_getElem hk)⟩

theorem Holds.length_le (hholds : Holds cells l) : l.length ≤ cells.length := by
  by_contra hlong
  obtain ⟨x, hx⟩ := hholds.exists_load (show cells.length < l.length by omega)
  simp [load] at hx

theorem Holds.take_eq (hholds : Holds cells l) :
    cells.take l.length = l.map some := by
  apply List.ext_getElem?
  intro k
  rw [List.getElem?_take, List.getElem?_map]
  by_cases hk : k < l.length
  · have hload := hholds k l[k] (List.getElem?_eq_getElem hk)
    rw [load, Option.join_eq_some_iff] at hload
    rw [if_pos hk, hload, List.getElem?_eq_getElem hk, Option.map_some]
  · rw [if_neg hk, List.getElem?_eq_none (by omega), Option.map_none]

/-- Forgetting the last elements needs no write. -/
theorem Holds.of_prefix (hholds : Holds cells l) {first : List α}
    (hfirst : first <+: l) : Holds cells first := by
  intro k x hx
  apply hholds k x
  obtain ⟨rest, rfl⟩ := hfirst
  rw [List.getElem?_append_left (List.getElem?_eq_some_iff.mp hx).1, hx]

theorem Holds.realloc (hholds : Holds cells l) {count : Nat}
    (hroom : l.length ≤ count) : Holds (realloc cells count) l := by
  intro k x hx
  have hk := (List.getElem?_eq_some_iff.mp hx).1
  rw [load_realloc (by omega)]
  exact hholds k x hx

/-- Making a gap at `pos` and writing it is an insertion. -/
theorem Holds.insertIdx (hholds : Holds cells l) {pos : Nat}
    (hpos : pos ≤ l.length) (hroom : l.length < cells.length) (x : α) :
    ∃ after, ((shiftUp pos l.length cells).bind fun cells => store cells pos x) =
        some after ∧
      after.length = cells.length ∧ Holds after (l.insertIdx pos x) := by
  obtain ⟨shifted, hshifted, hlength, hcells⟩ :=
    @shiftUp_spec _ pos _ cells hroom fun k _ hk => hholds.exists_load hk
  obtain ⟨after, hafter⟩ :=
    exists_store (show pos < shifted.length by omega) x
  refine ⟨after, ?_, (length_store hafter).trans hlength, fun k y hy => ?_⟩
  · rw [hshifted, Option.bind_some, hafter]
  · rw [load_store hafter, hcells]
    rcases Nat.lt_trichotomy k pos with hk | hk | hk
    · rw [List.getElem?_insertIdx_of_lt hk] at hy
      rw [if_neg (by omega), if_neg (by omega)]
      exact hholds k y hy
    · rw [hk, List.getElem?_insertIdx_self, if_pos hpos] at hy
      rw [if_pos hk, hy]
    · rw [List.getElem?_insertIdx_of_gt hk] at hy
      have hlt := (List.getElem?_eq_some_iff.mp hy).1
      rw [if_neg (by omega), if_pos (by omega)]
      exact hholds (k - 1) y hy

/-- Writing the cell after the last element is an append. -/
theorem Holds.concat (hholds : Holds cells l) (hroom : l.length < cells.length)
    (x : α) :
    ∃ after, store cells l.length x = some after ∧
      after.length = cells.length ∧ Holds after (l ++ [x]) := by
  obtain ⟨after, hafter⟩ := exists_store hroom x
  refine ⟨after, hafter, length_store hafter, fun k y hy => ?_⟩
  rw [load_store hafter]
  by_cases hk : k = l.length
  · rw [hk, List.getElem?_concat_length] at hy
    rw [if_pos hk, hy]
  · have hlt := (List.getElem?_eq_some_iff.mp hy).1
    rw [List.length_append, List.length_singleton] at hlt
    rw [List.getElem?_append_left (by omega)] at hy
    rw [if_neg hk]
    exact hholds k y hy

/-- Closing the gap at `i` is an erasure. -/
theorem Holds.eraseIdx (hholds : Holds cells l) {i : Nat} (hi : i < l.length) :
    ∃ after, shiftDown (l.length - 1 - i) i cells = some after ∧
      after.length = cells.length ∧ Holds after (l.eraseIdx i) := by
  have hfits := hholds.length_le
  obtain ⟨after, hafter, hlength, hcells⟩ :=
    @shiftDown_spec _ (l.length - 1 - i) i cells
      (fun k _ hk => hholds.exists_load (show k < l.length by omega)) (by omega)
  refine ⟨after, hafter, hlength, fun k y hy => ?_⟩
  have hlt := (List.getElem?_eq_some_iff.mp hy).1
  rw [List.length_eraseIdx_of_lt hi] at hlt
  rw [hcells]
  by_cases hk : k < i
  · rw [List.getElem?_eraseIdx_of_lt hk] at hy
    rw [if_neg (by omega)]
    exact hholds k y hy
  · rw [List.getElem?_eraseIdx_of_ge (by omega)] at hy
    rw [if_pos (by omega)]
    exact hholds (k + 1) y hy

/-- Copying the cells that hold a list copies the list. -/
theorem Holds.copyCells (hholds : Holds source l)
    (hroom : l.length ≤ cells.length) :
    ∃ after, copyCells source l.length 0 cells = some after ∧
      after.length = cells.length ∧ Holds after l := by
  obtain ⟨after, hafter, hlength, hcells⟩ :=
    @copyCells_spec _ source l.length 0 cells
      (fun k _ hk => hholds.exists_load (by omega)) (by omega)
  refine ⟨after, hafter, hlength, fun k y hy => ?_⟩
  have hlt := (List.getElem?_eq_some_iff.mp hy).1
  rw [hcells, if_pos (by omega)]
  exact hholds k y hy

/-- The search of the cells is the search of the list. -/
theorem Holds.findCell (hholds : Holds cells l) (test : α → Bool) :
    findCell test cells l.length 0 = some (l.findIdx? test) := by
  rw [findCell_of_load fun k x hx => by
    rw [Nat.zero_add]
    exact hholds k x hx]
  simp

end Holds

end Cells
