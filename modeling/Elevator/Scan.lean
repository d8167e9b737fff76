/-
What `sscanf` makes of a text: a literal, and then words, some of them with a
field width.  The conversion stops at the first word that is not there.
-/
import Elevator.CString
import Mathlib.Data.List.Forall2

namespace CText

/-- A field width, if there is one, bounds the length of a word. -/
def cutTo : Option Nat → List Char → List Char
  | none, word => word
  | some size, word => word.take size

/-- `%s`, or `%7s` if there is a width: white space and then a word.  The result
is the word and what has not been read. -/
def scanWord (width : Option Nat) (text : List Char) :
    Option (List Char × List Char) :=
  let start := text.dropWhile isSpace
  let word := cutTo width (start.takeWhile fun c => !isSpace c)
  if word = [] then none else some (word, start.drop word.length)

/-- The words that a sequence of such conversions assigns. -/
def scanWords : List (Option Nat) → List Char → List (List Char)
  | [], _ => []
  | width :: widths, text =>
      match scanWord width text with
      | none => []
      | some (word, rest) => word :: scanWords widths rest

/-- A format that begins with a literal. -/
def scanAfter (literal : List Char) (widths : List (Option Nat))
    (text : List Char) : List (List Char) :=
  if literal.isPrefixOf text then scanWords widths (text.drop literal.length)
  else []

/-- What `%s` can read back. -/
def IsWord (word : List Char) : Prop :=
  word ≠ [] ∧ ∀ c ∈ word, isSpace c = false

instance (word : List Char) : Decidable (IsWord word) :=
  @instDecidableAnd _ _ _ (List.decidableBAll (isSpace · = false) word)

/-- Words with a space before each. -/
def spaced (words : List (List Char)) : List Char :=
  words.flatMap fun word => ' ' :: word

theorem spaced_nil : spaced [] = [] := rfl

theorem spaced_cons (word : List Char) (words : List (List Char)) :
    spaced (word :: words) = ' ' :: (word ++ spaced words) := rfl

def EndsWord (rest : List Char) : Prop :=
  ∀ c ∈ rest.head?, isSpace c = true

theorem endsWord_spaced (words : List (List Char)) {rest : List Char}
    (hrest : EndsWord rest) : EndsWord (spaced words ++ rest) := by
  cases words with
  | nil => exact hrest
  | cons word words =>
      intro c hc
      obtain rfl : ' ' = c := by simpa [spaced] using hc
      rfl

/-- A word is read back from behind a space if it does not exceed the width. -/
theorem scanWord_spaced {width : Option Nat} {word rest : List Char}
    (hword : IsWord word) (hwidth : ∀ size ∈ width, word.length ≤ size)
    (hrest : EndsWord rest) :
    scanWord width (' ' :: word ++ rest) = some (word, rest) := by
  obtain ⟨hne, hsolid⟩ := hword
  obtain ⟨c, word', rfl⟩ := List.exists_cons_of_ne_nil hne
  have hstart : (' ' :: (c :: word') ++ rest).dropWhile isSpace =
      (c :: word') ++ rest := by
    have hc := hsolid c List.mem_cons_self
    simp [hc, show isSpace ' ' = true from rfl]
  have hfound : ((c :: word') ++ rest).takeWhile (fun c => !isSpace c) =
      c :: word' := by
    rw [List.takeWhile_append_of_pos (by simpa using hsolid)]
    cases rest with
    | nil => simp
    | cons d rest =>
        have hd : isSpace d = true := hrest d rfl
        simp [hd]
  have hcut : cutTo width (c :: word') = c :: word' := by
    cases width with
    | none => rfl
    | some size => exact List.take_of_length_le (hwidth size rfl)
  simp only [scanWord, hstart, hfound, hcut]
  simp

/-- The words of a message come back as they were put in. -/
theorem scanWords_spaced {widths : List (Option Nat)} {words : List (List Char)}
    (hwords : List.Forall₂
      (fun width word => IsWord word ∧ ∀ size ∈ width, word.length ≤ size)
      widths words)
    {rest : List Char} (hrest : EndsWord rest) :
    scanWords widths (spaced words ++ rest) = words := by
  induction hwords with
  | nil => rfl
  | @cons width word widths words hword hwords ih =>
      have hscan := scanWord_spaced hword.1 hword.2
        (endsWord_spaced words hrest)
      have htext : spaced (word :: words) ++ rest =
          ' ' :: word ++ (spaced words ++ rest) := by
        simp [spaced_cons]
      simp only [scanWords, htext, hscan, ih]

theorem scanAfter_literal (literal rest : List Char)
    (widths : List (Option Nat)) :
    scanAfter literal widths (literal ++ rest) = scanWords widths rest := by
  simp [scanAfter]

/-- The words of a text: what stands between its white space. -/
def wordsOf (text : List Char) : List (List Char) :=
  (text.splitOnP isSpace).filter (· ≠ [])

theorem wordsOf_cons_space {c : Char} (hc : isSpace c = true)
    (text : List Char) : wordsOf (c :: text) = wordsOf text := by
  rw [wordsOf, wordsOf, List.splitOnP_cons_eq_if_modifyHead, if_pos hc,
    List.filter_cons_of_neg (by simp)]

theorem wordsOf_dropWhile (text : List Char) :
    wordsOf (text.dropWhile isSpace) = wordsOf text := by
  induction text with
  | nil => rfl
  | cons c text ih =>
      by_cases hc : isSpace c = true
      · rw [List.dropWhile_cons_of_pos hc, ih, wordsOf_cons_space hc]
      · rw [List.dropWhile_cons_of_neg hc]

/-- A word at the front, up to the end of the text or the next white space. -/
theorem wordsOf_append {word rest : List Char} (hword : IsWord word)
    (hrest : EndsWord rest) : wordsOf (word ++ rest) = word :: wordsOf rest := by
  have hsplit : word.splitOnP isSpace = [word] :=
    List.splitOnP_eq_singleton hword.2
  cases rest with
  | nil =>
      rw [List.append_nil, wordsOf, hsplit]
      simp [hword.1, wordsOf]
  | cons c rest =>
      have hc : isSpace c = true := hrest c rfl
      rw [wordsOf_cons_space hc, wordsOf, List.splitOnP_append_cons word rest hc,
        hsplit, List.singleton_append, List.filter_cons_of_pos (by simp [hword.1]),
        wordsOf]

/-- `%s` without a width takes the next word, if there is one. -/
theorem scanWord_none (text : List Char) :
    scanWord none text = none ∧ wordsOf text = [] ∨
      ∃ word rest, scanWord none text = some (word, rest) ∧
        wordsOf text = word :: wordsOf rest := by
  let start := text.dropWhile isSpace
  let solid : Char → Bool := fun c => !isSpace c
  have hwords : wordsOf text = wordsOf start := (wordsOf_dropWhile text).symm
  by_cases hword : start.takeWhile solid = []
  · left
    refine ⟨if_pos hword, ?_⟩
    cases hstart : start with
    | nil => rw [hwords, hstart, wordsOf]; rfl
    | cons c rest =>
        have hc : isSpace c ≠ true := by
          have hhead := List.head?_dropWhile_not isSpace text
          simp only [start] at hstart
          simpa [hstart] using hhead
        simp [hstart, solid, hc] at hword
  · right
    refine ⟨start.takeWhile solid, start.dropWhile solid, ?_, ?_⟩
    · have hdrop : start.drop (start.takeWhile solid).length =
          start.dropWhile solid := by
        calc
          start.drop (start.takeWhile solid).length =
              (start.takeWhile solid ++ start.dropWhile solid).drop
                (start.takeWhile solid).length := by
            rw [List.takeWhile_append_dropWhile]
          _ = start.dropWhile solid := List.drop_left
      rw [← hdrop]
      exact if_neg hword
    · have hsolid : IsWord (start.takeWhile solid) := by
        refine ⟨hword, fun c hc => ?_⟩
        simpa [solid] using List.mem_takeWhile_imp hc
      have hends : EndsWord (start.dropWhile solid) := by
        intro c hc
        have hhead := List.head?_dropWhile_not solid start
        rw [Option.mem_def.mp hc] at hhead
        simpa [solid] using hhead
      rw [hwords, ← wordsOf_append hsolid hends,
        List.takeWhile_append_dropWhile]

/-- Conversions without widths read the first words. -/
theorem scanWords_eq_take (n : Nat) (text : List Char) :
    scanWords (List.replicate n none) text = (wordsOf text).take n := by
  induction n generalizing text with
  | zero => rfl
  | succ n ih =>
      rw [List.replicate_succ, scanWords]
      rcases scanWord_none text with ⟨hscan, hwords⟩ | ⟨word, rest, hscan, hwords⟩
      · rw [hscan, hwords]
        rfl
      · rw [hscan, hwords, List.take_succ_cons]
        simp only [ih]

theorem IsWord.take {word : List Char} (hword : IsWord word) {size : Nat}
    (hsize : 0 < size) : IsWord (word.take size) := by
  obtain ⟨hne, hsolid⟩ := hword
  refine ⟨?_, fun c hc => hsolid c (List.mem_of_mem_take hc)⟩
  rw [Ne, List.take_eq_nil_iff]
  rintro (hzero | hnil)
  · omega
  · exact hne hnil

/-- What a conversion assigns is a word. -/
theorem isWord_of_scanWord {width : Option Nat} {text word rest : List Char}
    (hscan : scanWord width text = some (word, rest)) : IsWord word := by
  simp only [scanWord] at hscan
  split at hscan
  · cases hscan
  · next hne =>
      rw [Option.some.injEq, Prod.mk.injEq] at hscan
      obtain ⟨rfl, -⟩ := hscan
      refine ⟨hne, fun c hc => ?_⟩
      have hstart : c ∈ (text.dropWhile isSpace).takeWhile fun c => !isSpace c := by
        cases width with
        | none => exact hc
        | some size => exact List.mem_of_mem_take hc
      simpa using List.mem_takeWhile_imp hstart

theorem isWord_of_mem_scanWords {widths : List (Option Nat)} {text word : List Char}
    (hword : word ∈ scanWords widths text) : IsWord word := by
  induction widths generalizing text with
  | nil => cases hword
  | cons width widths ih =>
      rw [scanWords] at hword
      split at hword
      · cases hword
      · next first rest hscan =>
          rcases List.mem_cons.mp hword with rfl | hrest
          · exact isWord_of_scanWord hscan
          · exact ih hrest

theorem mem_of_scanWord {width : Option Nat} {text word rest : List Char}
    (hscan : scanWord width text = some (word, rest)) :
    (∀ c ∈ word, c ∈ text) ∧ ∀ c ∈ rest, c ∈ text := by
  have hstart : (text.dropWhile isSpace).Sublist text := List.dropWhile_sublist _
  simp only [scanWord] at hscan
  split at hscan
  · cases hscan
  · rw [Option.some.injEq, Prod.mk.injEq] at hscan
    obtain ⟨rfl, rfl⟩ := hscan
    constructor
    · intro c hc
      apply hstart.subset
      cases width with
      | none => exact (List.takeWhile_sublist _).subset hc
      | some size => exact (List.takeWhile_sublist _).subset (List.mem_of_mem_take hc)
    · intro c hc
      exact hstart.subset (List.mem_of_mem_drop hc)

/-- Words are made of the characters of the text. -/
theorem mem_of_mem_scanWords {widths : List (Option Nat)} {text word : List Char}
    (hword : word ∈ scanWords widths text) {c : Char} (hc : c ∈ word) :
    c ∈ text := by
  induction widths generalizing text with
  | nil => cases hword
  | cons width widths ih =>
      rw [scanWords] at hword
      split at hword
      · cases hword
      · next first rest hscan =>
          obtain ⟨hfirst, hrest⟩ := mem_of_scanWord hscan
          rcases List.mem_cons.mp hword with rfl | hlater
          · exact hfirst c hc
          · exact hrest c (ih hlater)

/-- A field width bounds what is stored. -/
theorem length_scanWord_le {size : Nat} {text word rest : List Char}
    (hscan : scanWord (some size) text = some (word, rest)) :
    word.length ≤ size := by
  simp only [scanWord] at hscan
  split at hscan
  · cases hscan
  · rw [Option.some.injEq, Prod.mk.injEq] at hscan
    rw [← hscan.1]
    exact List.length_take_le size _

end CText
