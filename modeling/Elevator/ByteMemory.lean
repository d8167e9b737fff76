/-
Bytes in memory and the C library's string functions on them: copying with a
count, comparing, and reading a string up to its terminating NUL.  A string at
hand is the list of its bytes without the NUL.
-/
import Mathlib.Data.List.GetD
import Mathlib.Logic.Function.Basic

namespace ByteMemory

abbrev Memory := Nat → UInt8

/-- A terminated string stands at an address. -/
def StringAt (memory : Memory) (address : Nat) (text : List UInt8) : Prop :=
  ∀ k ≤ text.length, memory (address + k) = text.getD k 0

instance (memory : Memory) (address : Nat) (text : List UInt8) :
    Decidable (StringAt memory address text) :=
  inferInstanceAs (Decidable (∀ _, _ → _))

def write (memory : Memory) (address : Nat) (bytes : List UInt8) : Memory :=
  fun k =>
    if address ≤ k ∧ k < address + bytes.length then bytes.getD (k - address) 0
    else memory k

/-- `strncpy`: the bytes of the string, and NULs for what is missing. -/
def strncpy (memory : Memory) (dest : Nat) (source : List UInt8) (count : Nat) :
    Memory :=
  fun k =>
    if dest ≤ k ∧ k < dest + count then source.getD (k - dest) 0 else memory k

/-- Whether `strcmp` finds the string in memory equal to a given one. -/
def strcmp (memory : Memory) : Nat → List UInt8 → Bool
  | address, [] => memory address = 0
  | address, byte :: rest =>
      memory address = byte && strcmp memory (address + 1) rest

/-- The string at an address, as far as the count. -/
def readString (memory : Memory) : Nat → Nat → List UInt8
  | 0, _ => []
  | count + 1, address =>
      if memory address = 0 then []
      else memory address :: readString memory count (address + 1)

variable {memory : Memory} {address : Nat} {text : List UInt8}

theorem stringAt_nil : StringAt memory address [] ↔ memory address = 0 := by
  simp [StringAt]

theorem stringAt_cons {byte : UInt8} {rest : List UInt8} :
    StringAt memory address (byte :: rest) ↔
      memory address = byte ∧ StringAt memory (address + 1) rest := by
  constructor
  · intro hstring
    refine ⟨hstring 0 (Nat.zero_le _), fun k hk => ?_⟩
    have hnext := hstring (k + 1) (Nat.succ_le_succ hk)
    rwa [List.getD_cons_succ, ← Nat.add_assoc, Nat.add_right_comm] at hnext
  · rintro ⟨hbyte, hrest⟩ k hk
    cases k with
    | zero => exact hbyte
    | succ k =>
        have hnext := hrest k (Nat.le_of_succ_le_succ hk)
        rwa [List.getD_cons_succ, ← Nat.add_assoc, Nat.add_right_comm]

theorem strcmp_iff : strcmp memory address text = true ↔
    StringAt memory address text := by
  induction text generalizing address with
  | nil => rw [strcmp, stringAt_nil, decide_eq_true_iff]
  | cons byte rest ih =>
      rw [strcmp, stringAt_cons, Bool.and_eq_true, decide_eq_true_iff, ih]

/-- A string is read whole where the count allows it. -/
theorem readString_of_stringAt {count : Nat} (hnul : (0 : UInt8) ∉ text)
    (hstring : StringAt memory address text) (hcount : text.length ≤ count) :
    readString memory count address = text := by
  induction text generalizing address count with
  | nil =>
      cases count with
      | zero => rfl
      | succ count => rw [readString, if_pos (stringAt_nil.mp hstring)]
  | cons byte rest ih =>
      obtain ⟨hbyte, hrest⟩ := stringAt_cons.mp hstring
      rw [List.mem_cons, not_or] at hnul
      obtain ⟨hfirst, hlater⟩ := hnul
      cases count with
      | zero => exact absurd hcount (Nat.not_succ_le_zero _)
      | succ count =>
          rw [readString, hbyte, if_neg (Ne.symm hfirst),
            ih hlater hrest (Nat.le_of_succ_le_succ hcount)]

theorem stringAt_unique {other : List UInt8} (hnul : (0 : UInt8) ∉ text)
    (hother : (0 : UInt8) ∉ other) (htext : StringAt memory address text)
    (hsame : StringAt memory address other) : text = other := by
  rw [← readString_of_stringAt hnul htext (Nat.le_add_right _ other.length),
    readString_of_stringAt hother hsame (Nat.le_add_left _ text.length)]

theorem StringAt.congr {after : Memory}
    (hsame : ∀ k ≤ text.length, after (address + k) = memory (address + k)) :
    StringAt after address text ↔ StringAt memory address text :=
  forall₂_congr fun k hk => by rw [hsame k hk]

section Copying

variable {dest count : Nat} {source bytes : List UInt8}

theorem write_inside {k : Nat} (hk : k < bytes.length) :
    write memory address bytes (address + k) = bytes.getD k 0 := by
  rw [write, if_pos ⟨Nat.le_add_right _ _, Nat.add_lt_add_left hk address⟩,
    Nat.add_sub_cancel_left]

theorem write_outside {k : Nat}
    (hk : ¬ (address ≤ k ∧ k < address + bytes.length)) :
    write memory address bytes k = memory k :=
  if_neg hk

theorem strncpy_inside {k : Nat} (hk : k < count) :
    strncpy memory dest source count (dest + k) = source.getD k 0 := by
  rw [strncpy, if_pos ⟨Nat.le_add_right _ _, Nat.add_lt_add_left hk dest⟩,
    Nat.add_sub_cancel_left]

theorem strncpy_outside {k : Nat} (hk : ¬ (dest ≤ k ∧ k < dest + count)) :
    strncpy memory dest source count k = memory k :=
  if_neg hk

/-- What has been copied is a string if and only if a NUL stands behind it; one
has been copied with it where the string is shorter than the count. -/
theorem stringAt_take_iff {after : Memory}
    (hcopied : ∀ k < count, after (dest + k) = source.getD k 0) :
    StringAt after dest (source.take count) ↔
      (source.length < count ∨ after (dest + count) = 0) := by
  constructor
  · intro hstring
    by_cases hshort : source.length < count
    · exact Or.inl hshort
    · have hlength : (source.take count).length = count := by
        rw [List.length_take]
        omega
      have hend := hstring count (Nat.le_of_eq hlength.symm)
      rw [List.getD_eq_default _ _ (Nat.le_of_eq hlength)] at hend
      exact Or.inr hend
  · intro hend k hk
    rw [List.length_take] at hk
    rw [List.getD_eq_getElem?_getD, List.getElem?_take]
    by_cases hcount : k < count
    · rw [if_pos hcount, hcopied k hcount, List.getD_eq_getElem?_getD]
    · obtain rfl : k = count := by omega
      rw [if_neg hcount, hend.resolve_left (by omega), Option.getD_none]

end Copying

end ByteMemory
