/-
NUL-terminated text held in character arrays of a fixed size, with the decimal
conversions of the C library on it: what `snprintf` leaves in an array, and
what `%d` reads back out of one.
-/
import Mathlib.Algebra.Group.Nat.Defs
import Mathlib.Data.List.Induction
import Mathlib.Data.List.TakeWhile

namespace CText

/-- The text in a `char[size]` array, up to its terminating NUL. -/
@[ext] structure CString (size : Nat) where
  chars : List Char
  fits : chars.length ≤ size - 1
deriving DecidableEq, Repr

/-- What `snprintf(array, size, ...)` leaves in the array, and `strncpy` of
`size - 1` characters followed by the terminating NUL. -/
def CString.store (size : Nat) (text : List Char) : CString size :=
  ⟨text.take (size - 1), List.length_take_le (size - 1) text⟩

theorem CString.store_chars {size : Nat} {text : List Char}
    (hfits : text.length ≤ size - 1) : (CString.store size text).chars = text :=
  List.take_of_length_le hfits

/-- Text that came out of an array of the same size goes back unchanged. -/
@[simp] theorem CString.store_self {size : Nat} (text : CString size) :
    CString.store size text.chars = text :=
  CString.ext (CString.store_chars text.fits)

/-- The white space that `isspace` recognises in the C locale. -/
def isSpace (c : Char) : Bool :=
  c = ' ' || ('\t' ≤ c && c ≤ '\r')

/-- `%d` on output. -/
def printInt (n : Int) : List Char :=
  if n < 0 then '-' :: Nat.toDigits 10 n.natAbs else Nat.toDigits 10 n.natAbs

/-- The longest run of decimal digits at the front, if it is not empty. -/
def scanNat (text : List Char) : Option Nat :=
  match text.takeWhile Char.isDigit with
  | [] => none
  | digits => some (Nat.ofDigitChars 10 digits 0)

/-- `%d` on input: optional white space, an optional sign, decimal digits.
Whatever follows the digits is left unread. -/
def scanInt (text : List Char) : Option Int :=
  match text.dropWhile isSpace with
  | '-' :: rest => (scanNat rest).map fun n : Nat => -(n : Int)
  | '+' :: rest => (scanNat rest).map fun n : Nat => (n : Int)
  | rest => (scanNat rest).map fun n : Nat => (n : Int)

theorem takeWhile_isDigit_toDigits (n : Nat) :
    (Nat.toDigits 10 n).takeWhile Char.isDigit = Nat.toDigits 10 n := by
  rw [List.takeWhile_eq_self_iff]
  intro c hc
  exact Nat.isDigit_of_mem_toDigits (by decide) (by decide) hc

@[simp] theorem scanNat_toDigits (n : Nat) :
    scanNat (Nat.toDigits 10 n) = some n := by
  rw [scanNat, takeWhile_isDigit_toDigits]
  cases hdigits : Nat.toDigits 10 n with
  | nil => exact absurd hdigits Nat.toDigits_ne_nil
  | cons c rest =>
      have hvalue := Nat.ofDigitChars_ten_toDigits (n := n)
      rw [hdigits] at hvalue
      simp [hvalue]

theorem isDigit_not_isSpace {c : Char} (hc : c.isDigit = true) :
    isSpace c = false := by
  simp only [Char.isDigit, Bool.and_eq_true, decide_eq_true_eq] at hc
  simp only [isSpace, Bool.or_eq_false_iff, Bool.and_eq_false_iff,
    decide_eq_false_iff_not]
  refine ⟨?_, Or.inr ?_⟩
  · rintro rfl
    exact absurd hc.1 (by decide)
  · intro hle
    exact absurd (Nat.le_trans hc.1 hle) (by decide)

theorem isDigit_ne_sign {c : Char} (hc : c.isDigit = true) :
    c ≠ '-' ∧ c ≠ '+' := by
  constructor <;> rintro rfl <;> exact absurd hc (by decide)

/-- Scanning digits needs neither the white space nor the sign branch. -/
theorem scanInt_of_digit {c : Char} (hc : c.isDigit = true) (rest : List Char) :
    scanInt (c :: rest) = (scanNat (c :: rest)).map fun n : Nat => (n : Int) := by
  obtain ⟨hminus, hplus⟩ := isDigit_ne_sign hc
  rw [scanInt, List.dropWhile_cons_of_neg (by simp [isDigit_not_isSpace hc])]
  split
  · rename_i heq
    exact absurd (List.cons.inj heq).1 hminus
  · rename_i heq
    exact absurd (List.cons.inj heq).1 hplus
  · rfl

theorem scanInt_toDigits (n : Nat) :
    scanInt (Nat.toDigits 10 n) = some (n : Int) := by
  have hscan := scanNat_toDigits n
  cases hdigits : Nat.toDigits 10 n with
  | nil => exact absurd hdigits Nat.toDigits_ne_nil
  | cons c rest =>
      have hc : c.isDigit = true :=
        Nat.isDigit_of_mem_toDigits (n := n) (by decide) (by decide)
          (hdigits ▸ List.mem_cons_self)
      rw [hdigits] at hscan
      simp [scanInt_of_digit hc, hscan]

@[simp] theorem scanInt_printInt (n : Int) : scanInt (printInt n) = some n := by
  by_cases hneg : n < 0
  · simp only [printInt, hneg, ↓reduceIte]
    rw [scanInt, List.dropWhile_cons_of_neg (by decide)]
    simp only [scanNat_toDigits, Option.map_some, Option.some.injEq]
    omega
  · simp only [printInt, hneg, ↓reduceIte, scanInt_toDigits, Option.some.injEq]
    omega

theorem isDigit_of_mem_printInt {n : Int} (hn : 0 ≤ n) {c : Char}
    (hc : c ∈ printInt n) : c.isDigit = true := by
  rw [printInt, if_neg (by omega)] at hc
  exact Nat.isDigit_of_mem_toDigits (by decide) (by decide) hc

theorem printInt_ne_nil {n : Int} (hn : 0 ≤ n) : printInt n ≠ [] := by
  rw [printInt, if_neg (by omega)]
  exact Nat.toDigits_ne_nil

theorem length_printInt_le {n : Int} {k : Nat} (hk : 0 < k)
    (hlow : -(10 ^ k : Nat) < n) (hhigh : n < (10 ^ (k + 1) : Nat)) :
    (printInt n).length ≤ k + 1 := by
  by_cases hneg : n < 0
  · simp only [printInt, hneg, ↓reduceIte, List.length_cons, Nat.add_le_add_iff_right]
    exact (Nat.length_toDigits_le_iff (by decide) hk).mpr (by omega)
  · simp only [printInt, hneg, ↓reduceIte]
    exact (Nat.length_toDigits_le_iff (by decide) (Nat.succ_pos k)).mpr (by omega)

theorem isDigit_value_le {c : Char} (hc : c.isDigit = true) :
    c.toNat - '0'.toNat ≤ 9 := by
  simp only [Char.isDigit, Bool.and_eq_true, decide_eq_true_eq] at hc
  have hle : c.toNat ≤ 57 := hc.2
  have hzero : '0'.toNat = 48 := rfl
  omega

theorem ofDigitChars_lt_pow {digits : List Char}
    (hdigits : ∀ c ∈ digits, c.isDigit = true) :
    Nat.ofDigitChars 10 digits 0 < 10 ^ digits.length := by
  induction digits with
  | nil => simp
  | cons c rest ih =>
      have hrest := ih fun d hd => hdigits d (List.mem_cons_of_mem c hd)
      have hc := isDigit_value_le (hdigits c List.mem_cons_self)
      rw [Nat.ofDigitChars_cons, Nat.ofDigitChars_eq_ofDigitChars_zero,
        List.length_cons, Nat.pow_succ]
      have hlead : 10 ^ rest.length * (10 * 0 + (c.toNat - '0'.toNat)) ≤
          10 ^ rest.length * 9 := Nat.mul_le_mul_left _ (by omega)
      omega

/-- A scanned number has at most as many digits as the text has characters. -/
theorem scanNat_lt_pow {text : List Char} {n : Nat}
    (hscan : scanNat text = some n) : n < 10 ^ text.length := by
  rw [scanNat] at hscan
  split at hscan
  · exact absurd hscan (by simp)
  · rename_i digits _
    have hvalue := Option.some.inj hscan
    have hlt : Nat.ofDigitChars 10 (text.takeWhile Char.isDigit) 0 <
        10 ^ (text.takeWhile Char.isDigit).length :=
      ofDigitChars_lt_pow fun c hc => List.mem_takeWhile_imp hc
    have hlength : (text.takeWhile Char.isDigit).length ≤ text.length :=
      (List.takeWhile_sublist _).length_le
    calc n = Nat.ofDigitChars 10 (text.takeWhile Char.isDigit) 0 := hvalue.symm
      _ < 10 ^ (text.takeWhile Char.isDigit).length := hlt
      _ ≤ 10 ^ text.length := Nat.pow_le_pow_right (by decide) hlength

/-- The range of the numbers `%d` can read from a text of `k + 1` characters:
a sign costs one of them. -/
theorem scanInt_bounds {text : List Char} {n : Int} {k : Nat}
    (hlength : text.length ≤ k + 1) (hscan : scanInt text = some n) :
    -(10 ^ k : Nat) < n ∧ n < (10 ^ (k + 1) : Nat) := by
  have hdrop : (text.dropWhile isSpace).length ≤ k + 1 :=
    Nat.le_trans (List.dropWhile_sublist _).length_le hlength
  have hpow : 10 ^ k < 10 ^ (k + 1) := Nat.pow_lt_pow_right (by decide) (Nat.lt_succ_self k)
  have hbound {digits : List Char} {m bound : Nat}
      (hm : scanNat digits = some m) (hle : digits.length ≤ bound) :
      m < 10 ^ bound :=
    Nat.lt_of_lt_of_le (scanNat_lt_pow hm) (Nat.pow_le_pow_right (by decide) hle)
  rw [scanInt] at hscan
  split at hscan
  · rename_i rest heq
    rw [heq, List.length_cons] at hdrop
    obtain ⟨m, hm, rfl⟩ := Option.map_eq_some_iff.mp hscan
    have hlt := hbound hm (Nat.le_of_succ_le_succ hdrop)
    omega
  · rename_i rest heq
    rw [heq, List.length_cons] at hdrop
    obtain ⟨m, hm, rfl⟩ := Option.map_eq_some_iff.mp hscan
    have hlt := hbound hm (Nat.le_of_succ_le_succ hdrop)
    omega
  · obtain ⟨m, hm, rfl⟩ := Option.map_eq_some_iff.mp hscan
    have hlt := hbound hm hdrop
    omega

theorem lt_length_toDigits {n k : Nat} (hk : 0 < k) (hlarge : 10 ^ k ≤ n) :
    k < (Nat.toDigits 10 n).length := by
  have hlong := (Nat.length_toDigits_le_iff (n := n) (by decide) hk).not.mpr
    (Nat.not_lt.mpr hlarge)
  exact Nat.not_le.mp hlong

/-- A decimal cut short to `k` digits is the decimal of a shorter number. -/
theorem exists_take_toDigits {k : Nat} (hk : 0 < k) {n : Nat} (hn : 0 < n) :
    ∃ m, 0 < m ∧ m < 10 ^ k ∧
      (Nat.toDigits 10 n).take k = Nat.toDigits 10 m := by
  induction n using Nat.strongRecOn with
  | ind n ih =>
      by_cases hsmall : n < 10 ^ k
      · refine ⟨n, hn, hsmall, List.take_of_length_le ?_⟩
        exact (Nat.length_toDigits_le_iff (by decide) hk).mpr hsmall
      · have hten : 10 ≤ n := by
          have hpow : 10 ^ 1 ≤ 10 ^ k := Nat.pow_le_pow_right (by decide) hk
          omega
        obtain ⟨m, hpos, hlt, htake⟩ := ih (n / 10) (by omega) (by omega)
        refine ⟨m, hpos, hlt, ?_⟩
        rw [Nat.toDigits_of_base_le (by decide) hten,
          List.take_append_of_le_length, htake]
        -- the last digit lies beyond the cut
        have hlong := lt_length_toDigits hk (Nat.not_lt.mp hsmall)
        rw [Nat.toDigits_of_base_le (by decide) hten, List.length_append] at hlong
        exact Nat.lt_succ_iff.mp hlong

theorem digitChar_value {c : Char} (hc : c.isDigit = true) :
    (c.toNat - '0'.toNat).digitChar = c := by
  have hle := isDigit_value_le hc
  simp only [Char.isDigit, Bool.and_eq_true, decide_eq_true_eq] at hc
  have hlow : 48 ≤ c.toNat := hc.1
  have hzero : '0'.toNat = 48 := rfl
  apply Char.toNat_inj.mp
  rw [Nat.toNat_digitChar_of_lt_ten (by omega)]
  omega

/-- Digits without a leading zero are the decimal of the number they read as. -/
theorem toDigits_ofDigitChars {digits : List Char}
    (hdigits : ∀ c ∈ digits, c.isDigit = true) (hne : digits ≠ [])
    (hlead : digits.head? ≠ some '0') :
    0 < Nat.ofDigitChars 10 digits 0 ∧
      Nat.toDigits 10 (Nat.ofDigitChars 10 digits 0) = digits := by
  induction digits using List.reverseRecOn with
  | nil => exact absurd rfl hne
  | append_singleton front c ih =>
      have hc : c.isDigit = true :=
        hdigits c (List.mem_append_right front (List.mem_singleton_self c))
      have hle := isDigit_value_le hc
      have hchar : (c.toNat - '0'.toNat).digitChar = c := digitChar_value hc
      have hlast : Nat.toDigits 10 (c.toNat - '0'.toNat) = [c] := by
        rw [Nat.toDigits_of_lt_base (by omega), hchar]
      rw [Nat.ofDigitChars_append, Nat.ofDigitChars_cons, Nat.ofDigitChars_nil]
      cases front with
      | nil =>
          rw [Nat.ofDigitChars_nil, Nat.mul_zero, Nat.zero_add]
          refine ⟨?_, hlast⟩
          apply Nat.pos_of_ne_zero
          intro hzero
          rw [hzero] at hchar
          exact hlead (congrArg some hchar.symm)
      | cons d front =>
          obtain ⟨hpos, hvalue⟩ := ih
            (fun e he => hdigits e (List.mem_append_left [c] he))
            (List.cons_ne_nil d front) hlead
          refine ⟨by omega, ?_⟩
          rw [← Nat.toDigits_append_toDigits (by decide) hpos (by omega), hvalue,
            hlast]

end CText
