/-
Text messages on a byte stream.  A message goes out as its length, four bytes
in network byte order, and then its characters; what a receiver has in hand is
the contents of an array into which the bytes were read.
-/
import Mathlib.Algebra.Group.Nat.Defs
import Mathlib.Data.List.Induction
import Mathlib.Data.List.TakeWhile

namespace Framing

/-- A 32-bit length in network byte order. -/
def bigEndian (n : Nat) : List UInt8 :=
  [.ofNat (n / 2 ^ 24), .ofNat (n / 2 ^ 16), .ofNat (n / 2 ^ 8), .ofNat n]

def fromBigEndian (bytes : List UInt8) : Nat :=
  bytes.foldl (fun n byte => n * 256 + byte.toNat) 0

@[simp] theorem length_bigEndian (n : Nat) : (bigEndian n).length = 4 := rfl

theorem fromBigEndian_bigEndian {n : Nat} (hn : n < 2 ^ 32) :
    fromBigEndian (bigEndian n) = n := by
  simp only [fromBigEndian, bigEndian, List.foldl_cons, List.foldl_nil,
    UInt8.toNat_ofNat']
  omega

/-- The first byte counts most. -/
theorem le_fromBigEndian (byte : UInt8) (rest : List UInt8) :
    byte.toNat * 256 ^ rest.length ≤ fromBigEndian (byte :: rest) := by
  induction rest using List.reverseRecOn with
  | nil => simp [fromBigEndian]
  | append_singleton rest last ih =>
      have hsnoc : fromBigEndian (byte :: (rest ++ [last])) =
          fromBigEndian (byte :: rest) * 256 + last.toNat := by
        simp [fromBigEndian]
      rw [hsnoc, List.length_append, List.length_singleton, Nat.pow_succ,
        ← Nat.mul_assoc]
      omega

/-- The characters of a text, a byte for each. -/
def bytesOf (text : List Char) : List UInt8 :=
  text.map fun c => UInt8.ofNat c.toNat

/-- The text that stands in an array, up to the first NUL. -/
def textOf (bytes : List UInt8) : List Char :=
  (bytes.takeWhile (· ≠ 0)).map fun byte => Char.ofNat byte.toNat

/-- Characters of one byte each, and no NUL among them. -/
def IsText (text : List Char) : Prop :=
  ∀ c ∈ text, 0 < c.toNat ∧ c.toNat < 256

instance (text : List Char) : Decidable (IsText text) :=
  List.decidableBAll _ text

theorem toNat_of_isDigit {c : Char} (hc : c.isDigit = true) :
    48 ≤ c.toNat ∧ c.toNat ≤ 57 := by
  simp only [Char.isDigit, Bool.and_eq_true, decide_eq_true_eq] at hc
  have hlow : 48 ≤ c.toNat := hc.1
  have hhigh : c.toNat ≤ 57 := hc.2
  exact ⟨hlow, hhigh⟩

@[simp] theorem length_bytesOf (text : List Char) :
    (bytesOf text).length = text.length :=
  List.length_map _

/-- A message that is not empty and comes whole brings something. -/
theorem take_bytesOf_ne_nil {text : List Char} (htext : 0 < text.length) :
    (bytesOf text).take text.length ≠ [] := by
  rw [List.take_of_length_le (by rw [length_bytesOf]), ← List.length_pos_iff,
    length_bytesOf]
  exact htext

@[simp] theorem isText_append (first second : List Char) :
    IsText (first ++ second) ↔ IsText first ∧ IsText second :=
  List.forall_mem_append

theorem toNat_byte {c : Char} (hc : c.toNat < 256) :
    (UInt8.ofNat c.toNat).toNat = c.toNat := by
  rw [UInt8.toNat_ofNat', Nat.mod_eq_of_lt hc]

theorem byte_ne_zero {c : Char} (hc : 0 < c.toNat ∧ c.toNat < 256) :
    UInt8.ofNat c.toNat ≠ 0 := by
  intro hzero
  have hvalue := toNat_byte hc.2
  rw [hzero] at hvalue
  exact absurd hvalue (Nat.ne_of_lt hc.1)

theorem zero_notMem_bytesOf {text : List Char} (htext : IsText text) :
    (0 : UInt8) ∉ bytesOf text := by
  intro hzero
  obtain ⟨c, hc, hbyte⟩ := List.mem_map.mp hzero
  exact byte_ne_zero (htext c hc) hbyte

theorem textOf_bytesOf {text : List Char} (htext : IsText text)
    (rest : List UInt8) : textOf (bytesOf text ++ 0 :: rest) = text := by
  induction text with
  | nil => rfl
  | cons c text ih =>
      obtain ⟨hhead, htail⟩ := List.forall_mem_cons.mp htext
      have hvalue := toNat_byte hhead.2
      have hne := byte_ne_zero hhead
      have hrest := ih htail
      simp only [textOf, bytesOf, List.map_cons, List.cons_append] at hrest ⊢
      rw [List.takeWhile_cons_of_pos (by simpa using hne), List.map_cons, hrest,
        hvalue, Char.ofNat_toNat]

/-- A NUL put into an array ends the text there at the latest. -/
theorem textOf_set_zero {bytes : List UInt8} {i : Nat} (hi : i < bytes.length) :
    textOf (bytes.set i 0) = textOf (bytes.take i) := by
  induction bytes generalizing i with
  | nil => exact absurd hi (Nat.not_lt_zero i)
  | cons byte bytes ih =>
      cases i with
      | zero => rfl
      | succ i =>
          have hrest := ih (Nat.lt_of_succ_lt_succ hi)
          rw [List.set_cons_succ, List.take_succ_cons]
          by_cases hbyte : byte = 0
          · simp [textOf, hbyte]
          · simp only [textOf] at hrest ⊢
            rw [List.takeWhile_cons_of_pos (by simpa using hbyte),
              List.takeWhile_cons_of_pos (by simpa using hbyte), List.map_cons,
              List.map_cons, hrest]

theorem toNat_charOfNat {n : Nat} (hn : n < 256) : (Char.ofNat n).toNat = n := by
  rw [Char.ofNat, dif_pos (Or.inl (by omega))]
  rfl

theorem byte_eq_iff {c : Char} (hc : c.toNat < 256) (byte : UInt8) :
    Char.ofNat byte.toNat = c ↔ byte = .ofNat c.toNat := by
  constructor
  · rintro rfl
    rw [toNat_charOfNat byte.toNat_lt, UInt8.ofNat_toNat]
  · rintro rfl
    rw [toNat_byte hc, Char.ofNat_toNat]

theorem isText_textOf (bytes : List UInt8) : IsText (textOf bytes) := by
  intro c hc
  obtain ⟨byte, hbyte, rfl⟩ := List.mem_map.mp hc
  have hne : byte ≠ 0 := by simpa using List.mem_takeWhile_imp hbyte
  rw [toNat_charOfNat byte.toNat_lt]
  exact ⟨Nat.pos_of_ne_zero fun hzero => hne (UInt8.toNat_inj.mp hzero),
    byte.toNat_lt⟩

/-- The text in an array begins with a word exactly when its bytes do. -/
theorem take_textOf_iff {text : List Char} (htext : IsText text)
    (bytes : List UInt8) :
    (textOf bytes).take text.length = text ↔
      bytes.take text.length = bytesOf text := by
  induction text generalizing bytes with
  | nil => simp [bytesOf]
  | cons c text ih =>
      obtain ⟨hhead, htail⟩ := List.forall_mem_cons.mp htext
      have hbytes : bytesOf (c :: text) = .ofNat c.toNat :: bytesOf text := rfl
      cases bytes with
      | nil => simp [textOf, hbytes]
      | cons byte bytes =>
          by_cases hzero : byte = 0
          · have hne : (0 : UInt8) ≠ .ofNat c.toNat := (byte_ne_zero hhead).symm
            simp [textOf, hbytes, hzero, hne]
          · have hcons : textOf (byte :: bytes) =
                Char.ofNat byte.toNat :: textOf bytes := by
              simp [textOf, hzero]
            rw [hcons, hbytes, List.length_cons, List.take_succ_cons,
              List.take_succ_cons, List.cons.injEq, List.cons.injEq,
              byte_eq_iff hhead.2, ih htail]

def frame (text : List Char) : List UInt8 :=
  bigEndian text.length ++ bytesOf text

/-- The next message of a stream from which every read returns what it asks
for: its length, its bytes, and the rest of the stream. -/
def takeFrame (stream : List UInt8) :
    Option (Nat × List UInt8 × List UInt8) :=
  if stream.length < 4 then none
  else
    let length := fromBigEndian (stream.take 4)
    if (stream.drop 4).length < length then none
    else some (length, (stream.drop 4).take length, (stream.drop 4).drop length)

theorem takeFrame_frame {text : List Char} (hlength : text.length < 2 ^ 32)
    (rest : List UInt8) :
    takeFrame (frame text ++ rest) = some (text.length, bytesOf text, rest) := by
  have hhead : (frame text ++ rest).take 4 = bigEndian text.length := by
    rw [frame, List.append_assoc]
    exact List.take_left' (length_bigEndian _)
  have htail : (frame text ++ rest).drop 4 = bytesOf text ++ rest := by
    rw [frame, List.append_assoc]
    exact List.drop_left' (length_bigEndian _)
  have hbody : (bytesOf text ++ rest).take text.length = bytesOf text :=
    List.take_left' (length_bytesOf text)
  have hrest : (bytesOf text ++ rest).drop text.length = rest :=
    List.drop_left' (length_bytesOf text)
  rw [takeFrame, if_neg (by simp [frame])]
  simp only [hhead, htail, fromBigEndian_bigEndian hlength, hbody, hrest]
  rw [if_neg (by simp)]

theorem takeFrame_of_cut {text : List Char} (hlength : text.length < 2 ^ 32)
    {cut : List UInt8} (hbegins : cut <+: frame text) (hshort : cut ≠ frame text) :
    takeFrame cut = none := by
  obtain ⟨rest, hrest⟩ := hbegins
  by_cases hlong : cut.length < 4
  · exact if_pos hlong
  · have hsize := congrArg List.length hrest
    rw [List.length_append, frame, List.length_append, length_bigEndian,
      length_bytesOf] at hsize
    have hmissing : rest ≠ [] := by
      rintro rfl
      exact hshort (by rw [← hrest, List.append_nil])
    have hpos := List.length_pos_iff.mpr hmissing
    have hhead : cut.take 4 = bigEndian text.length := by
      rw [← List.take_append_of_le_length (Nat.not_lt.mp hlong), hrest, frame]
      exact List.take_left' (length_bigEndian _)
    rw [takeFrame, if_neg hlong]
    simp only [hhead, fromBigEndian_bigEndian hlength]
    rw [if_pos (by rw [List.length_drop]; omega)]

@[ext] structure Block (size : Nat) where
  bytes : List UInt8
  filled : bytes.length = size
deriving DecidableEq, Repr

def Block.zero (size : Nat) : Block size :=
  ⟨List.replicate size 0, List.length_replicate⟩

variable {size : Nat}

/-- What a read leaves in an array: the bytes received, and behind them what
was there before.  Bytes past the end of the array are not followed. -/
def Block.write (block : Block size) (received : List UInt8) : Block size :=
  ⟨received.take size ++ block.bytes.drop received.length, by
    have := block.filled
    simp only [List.length_append, List.length_take, List.length_drop]
    omega⟩

/-- The terminating NUL that is put behind a message. -/
def Block.terminate (block : Block size) (length : Nat) : Block size :=
  ⟨block.bytes.set length 0, (List.length_set).trans block.filled⟩

def Block.text (block : Block size) : List Char := textOf block.bytes

/-- What `snprintf` leaves in an array. -/
def Block.print (block : Block size) (text : List Char) : Block size :=
  block.write (bytesOf (text.take (size - 1)) ++ [0])

/-- An announced body, or as much of it as there is, is read and terminated. -/
def Block.readBody (block : Block size) (length : Nat) (body : List UInt8) :
    Block size :=
  (block.write (body.take length)).terminate length

/-- A read that fills the array leaves nothing of what was there. -/
theorem Block.write_full (block : Block size) {received : List UInt8}
    (hfull : received.length = size) : (block.write received).bytes = received := by
  have hdrop : block.bytes.drop received.length = [] :=
    List.drop_of_length_le (Nat.le_of_eq (block.filled.trans hfull.symm))
  show received.take size ++ block.bytes.drop received.length = received
  rw [hdrop, List.append_nil, List.take_of_length_le (Nat.le_of_eq hfull)]

/-- What is read, whatever has come: the bytes received, with what lay behind
them in the array up to the announced length. -/
theorem Block.text_readBody_eq (block : Block size) {length : Nat}
    (hlength : length < size) (body : List UInt8) :
    (block.readBody length body).text =
      textOf ((body ++ block.bytes.drop body.length).take length) := by
  have hfilled := (block.write (body.take length)).filled
  have hreceived : (body.take length).take size = body.take length :=
    List.take_of_length_le ((List.length_take_le _ _).trans hlength.le)
  rw [Block.text, Block.readBody, Block.terminate, textOf_set_zero (by omega)]
  simp only [Block.write, hreceived]
  congr 1
  rcases Nat.le_total body.length length with hshort | hlong
  · rw [List.take_of_length_le hshort]
  · have hreceivedLength : length ≤ (body.take length).length := by
      rw [List.length_take]
      omega
    rw [List.take_append_of_le_length hreceivedLength, List.take_take, Nat.min_self,
      List.take_append_of_le_length hlong]

/-- Only the bytes up to the announced length are read. -/
theorem Block.readBody_take (block : Block size) (length : Nat)
    (body : List UInt8) :
    block.readBody length (body.take length) = block.readBody length body := by
  rw [Block.readBody, List.take_take, Nat.min_self, Block.readBody]

/-- A message that fits is what was sent, whatever was in the array before. -/
theorem Block.text_readBody (block : Block size) {text : List Char}
    (htext : IsText text) (hfits : text.length < size) :
    (block.readBody text.length (bytesOf text)).text = text := by
  have hdrop : (block.bytes.drop text.length).length = size - text.length := by
    rw [List.length_drop, block.filled]
  obtain ⟨byte, rest, hrest⟩ : ∃ byte rest,
      block.bytes.drop text.length = byte :: rest :=
    List.exists_cons_of_length_pos (by omega)
  have hbody : (bytesOf text).take text.length = bytesOf text :=
    List.take_of_length_le (by rw [length_bytesOf])
  have hbytes : (block.readBody text.length (bytesOf text)).bytes =
      bytesOf text ++ 0 :: rest := by
    simp only [Block.readBody, Block.write, Block.terminate, hbody,
      length_bytesOf, hrest]
    rw [List.take_of_length_le (by rw [length_bytesOf]; omega),
      List.set_append_right _ _ (by simp), length_bytesOf, Nat.sub_self]
    rfl
  rw [Block.text, hbytes, textOf_bytesOf htext]

theorem length_textOf_le {bytes : List UInt8} {i : Nat}
    (hzero : bytes[i]? = some 0) : (textOf bytes).length ≤ i := by
  rw [textOf, List.length_map]
  induction bytes generalizing i with
  | nil => simp at hzero
  | cons byte bytes ih =>
      by_cases hbyte : byte = 0
      · simp [hbyte]
      · cases i with
        | zero => exact absurd (by simpa using hzero) hbyte
        | succ i =>
            have hrest := ih (by simpa using hzero)
            simp only [ne_eq, decide_not] at hrest
            simp [hbyte, hrest]

/-- The text read ends at the announced length at the latest. -/
theorem Block.length_text_readBody (block : Block size) {length : Nat}
    (hlength : length < size) (body : List UInt8) :
    (block.readBody length body).text.length ≤ length := by
  apply length_textOf_le
  have hfilled := (block.write (body.take length)).filled
  rw [Block.readBody, Block.terminate, List.getElem?_set_self (by omega)]

/-- The text read begins with the first byte received, if that is not NUL. -/
theorem Block.head_text_readBody (block : Block size) {length : Nat}
    (hlength : 0 < length) (hsize : 0 < size) (byte : UInt8)
    (rest : List UInt8) :
    (block.readBody length (byte :: rest)).text.head? =
      if byte = 0 then none else some (Char.ofNat byte.toNat) := by
  obtain ⟨length, rfl⟩ := Nat.exists_eq_succ_of_ne_zero (Nat.ne_of_gt hlength)
  obtain ⟨size, rfl⟩ := Nat.exists_eq_succ_of_ne_zero (Nat.ne_of_gt hsize)
  by_cases hzero : byte = 0
  · simp [Block.text, Block.readBody, Block.write, Block.terminate, textOf, hzero]
  · simp [Block.text, Block.readBody, Block.write, Block.terminate, textOf, hzero]

end Framing
