/-
Lists that split into blocks: the maximal runs of elements with equal keys.
Being ordered within every block is a matter of neighbours, and an insertion
has to fit between its own two neighbours only.
-/
import Mathlib.Data.List.SplitBy
import Mathlib.Data.List.Chain

namespace Blocks

universe u v

variable {α : Type u} {κ : Type v} {key : α → κ} {R : α → α → Prop}

/-- The condition on neighbours: those with equal keys are related. -/
def Fits (key : α → κ) (R : α → α → Prop) (first second : α) : Prop :=
  key first = key second → R first second

/-- Among elements with equal keys, the condition on neighbours reaches from
every element to every later one. -/
theorem pairwise_iff_isChain
    (htrans : ∀ {a b c}, key a = key b → key b = key c → R a b → R b c → R a c)
    {block : List α}
    (hsame : block.IsChain fun first second => key first = key second) :
    block.Pairwise R ↔ block.IsChain (Fits key R) := by
  constructor
  · intro hpairwise
    exact hpairwise.isChain.imp fun _ _ hR _ => hR
  · intro hchain
    let S : α → α → Prop := fun first second => key first = key second ∧ R first second
    have hboth : block.IsChain S := by
      induction hsame with
      | nil => exact .nil
      | singleton a => exact .singleton a
      | cons_cons hkey _ ih =>
          rw [List.isChain_cons_cons] at hchain ⊢
          exact ⟨⟨hkey, hchain.1 hkey⟩, ih hchain.2⟩
    have : Trans S S S :=
      ⟨fun hab hbc => ⟨hab.1.trans hbc.1, htrans hab.1 hbc.1 hab.2 hbc.2⟩⟩
    exact hboth.pairwise.imp And.right

section Ordered

variable [DecidableEq κ]

/-- The maximal runs of elements with equal keys. -/
def blocks (key : α → κ) (l : List α) : List (List α) :=
  l.splitBy fun first second => key first = key second

/-- Within each block, every element is related to the later ones. -/
def OrderedBlocks (key : α → κ) (R : α → α → Prop) (l : List α) : Prop :=
  ∀ block ∈ blocks key l, block.Pairwise R

theorem isChain_of_mem_blocks {l block : List α} (hblock : block ∈ blocks key l) :
    block.IsChain fun first second => key first = key second :=
  (List.isChain_of_mem_splitBy hblock).imp fun _ _ heq => of_decide_eq_true heq

/-- Order within the blocks is a matter of neighbours. -/
theorem orderedBlocks_iff_isChain
    (htrans : ∀ {a b c}, key a = key b → key b = key c → R a b → R b c → R a c)
    (l : List α) : OrderedBlocks key R l ↔ l.IsChain (Fits key R) := by
  have hflatten := List.isChain_flatten (R := Fits key R)
    (List.nil_notMem_splitBy (fun first second => key first = key second) l)
  rw [List.flatten_splitBy] at hflatten
  rw [hflatten, OrderedBlocks]
  -- between two blocks the keys differ
  have hborders := (List.isChain_getLast_head_splitBy
    (fun first second => decide (key first = key second)) l).imp
    (S := fun first second => ∀ x ∈ first.getLast?, ∀ y ∈ second.head?, Fits key R x y)
    (by
      rintro first second ⟨hfirst, hsecond, hkeys⟩ x hx y hy heq
      rw [← List.getLast_of_mem_getLast? hx, ← List.head_of_mem_head? hy] at heq
      exact absurd heq (of_decide_eq_false hkeys))
  rw [and_iff_left hborders]
  apply forall₂_congr
  intro block hblock
  exact pairwise_iff_isChain htrans (isChain_of_mem_blocks hblock)

end Ordered

section Insertion

variable {S : α → α → Prop} {before after : List α}

/-- An element fits into a chain where it fits between its neighbours. -/
theorem isChain_insert (hchain : (before ++ after).IsChain S) (x : α) :
    (before ++ x :: after).IsChain S ↔
      (∀ last ∈ before.getLast?, S last x) ∧ ∀ next ∈ after.head?, S x next := by
  obtain ⟨hbefore, hafter, -⟩ := List.isChain_append.mp hchain
  rw [List.isChain_append, List.isChain_cons]
  simp [hbefore, hafter, and_comm]

theorem insertIdx_eq_append (x : α) {l : List α} {position : Nat}
    (hposition : position ≤ l.length) :
    l.insertIdx position x = l.take position ++ x :: l.drop position := by
  induction l generalizing position with
  | nil => simp_all
  | cons a rest ih =>
      cases position with
      | zero => simp
      | succ position => simp [ih (Nat.le_of_succ_le_succ hposition)]

/-- An insertion behind the element at `position` keeps the chain where the new
element fits behind that one and before the one that followed it. -/
theorem isChain_insertIdx {l : List α} (hchain : l.IsChain S) {position : Nat}
    {element : α} (hget : l[position]? = some element) (x : α) :
    (l.insertIdx (position + 1) x).IsChain S ↔
      S element x ∧ ∀ next ∈ l[position + 1]?, S x next := by
  have hlt : position < l.length := (List.getElem?_eq_some_iff.mp hget).1
  rw [insertIdx_eq_append x hlt, isChain_insert (by rwa [List.take_append_drop]),
    List.getLast?_take, List.head?_drop]
  simp [hget]

end Insertion

end Blocks
