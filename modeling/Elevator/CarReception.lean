/-
The car's end of the stream of orders.  Its socket does not block, so a read
brings what has arrived; the car takes what it gets for the whole prefix, and
then for the whole body.
-/
import Elevator.Controller
import Elevator.Framing

namespace Elevator

open CText Framing Transition

/-- A connection from the controller to a car: the bytes under way, the bytes
that have arrived, and the texts the car has read. -/
structure OrderStream where
  flight : List UInt8
  pending : List UInt8
  decoded : List (List Char)
  isOpen : Bool
deriving DecidableEq, Repr

/-- More bytes arrive, or the car's thread comes to its two reads.  The prefix
is read into a local variable that holds whatever it held, between the two reads
some more bytes arrive, and the body is read into the buffer, which holds the
message that the thread has just sent, or any other. -/
inductive StreamAction where
  | arrive (n : Nat)
  | poll (fullLength : Block 4) (between : Nat) (buffer : Block 1024)
deriving DecidableEq, Repr

/-- The second read.  A socket with nothing to read is an error here. -/
def pollBody (state : OrderStream) (length between : Nat) (buffer : Block 1024) :
    OrderStream :=
  let available := state.pending ++ state.flight.take between
  let arrived := { state with
    flight := state.flight.drop between
    pending := available.drop length }
  if available.take length = [] then { arrived with isOpen := false }
  else
    { arrived with
      decoded := state.decoded ++ [(buffer.readBody length available).text] }

/-- The first read, which may find nothing, and the second. -/
def recvStep (state : OrderStream) (fullLength : Block 4) (between : Nat)
    (buffer : Block 1024) : OrderStream :=
  if state.isOpen = false ∨ state.pending = [] then state
  else
    let responseLength :=
      fromBigEndian (fullLength.write (state.pending.take 4)).bytes
    let rest := { state with pending := state.pending.drop 4 }
    if responseLength = 0 ∨ 1024 < responseLength then
      { rest with isOpen := false }
    else pollBody rest responseLength between buffer

def streamStep (state : OrderStream) : StreamAction → OrderStream
  | .arrive n =>
      { state with
        flight := state.flight.drop n
        pending := state.pending ++ state.flight.take n }
  | .poll fullLength between buffer => recvStep state fullLength between buffer

def floorMessage (floor : Int) : List Char :=
  (ControllerMessage.floor (floorToString floor)).text

/-- The controller has sent these messages, and nothing has arrived yet. -/
def sendOrders (messages : List (List Char)) : OrderStream where
  flight := messages.flatMap frame
  pending := []
  decoded := []
  isOpen := true

/-- Everything has arrived and been read, or the car has closed the
connection. -/
def Delivered (state : OrderStream) : Prop :=
  state.isOpen = true → state.flight = [] ∧ state.pending = []

instance (state : OrderStream) : Decidable (Delivered state) :=
  inferInstanceAs (Decidable (_ → _ ∧ _))

/-- A poll finds nothing at all, or a whole prefix and, when it comes to the
body, the whole body. -/
def WholeFrame (state : OrderStream) : StreamAction → Prop
  | .arrive _ => True
  | .poll _ between _ =>
      state.pending = [] ∨ 4 ≤ state.pending.length ∧
        fromBigEndian (state.pending.take 4) ≤
          (state.pending.drop 4 ++ state.flight.take between).length

instance wholeFrameDecidable (state : OrderStream) :
    (action : StreamAction) → Decidable (WholeFrame state action)
  | .arrive _ => isTrue trivial
  | .poll _ _ _ => inferInstanceAs (Decidable (_ ∨ _ ∧ _))

/-- What is used of the controller's orders: they are short, they begin with an
`F`, and their characters are printable. -/
structure IsOrder (text : List Char) : Prop where
  head : text.head? = some 'F'
  short : text.length < 32
  printable : ∀ c ∈ text, 32 ≤ c.toNat ∧ c.toNat < 256

theorem floorToString_printable (floor : Int) :
    ∀ c ∈ (floorToString floor).chars, c = 'B' ∨ c.isDigit = true := by
  intro c hc
  unfold floorToString at hc
  split_ifs at hc
  · rcases List.mem_cons.mp (List.mem_of_mem_take hc) with h | h
    · exact Or.inl h
    · exact Or.inr (isDigit_of_mem_printInt (by omega) h)
  · exact Or.inr (isDigit_of_mem_printInt (by omega) (List.mem_of_mem_take hc))
  · exact Or.inr (isDigit_of_mem_printInt (by omega) (List.mem_of_mem_take hc))

theorem floorMessage_eq (floor : Int) :
    floorMessage floor = "FLOOR ".toList ++ (floorToString floor).chars := rfl

theorem isOrder_floorMessage (floor : Int) : IsOrder (floorMessage floor) := by
  have hlabel := (floorToString floor).fits
  rw [floorMessage_eq]
  refine ⟨by simp, ?_, ?_⟩
  · have hsix : "FLOOR ".toList.length = 6 := rfl
    rw [List.length_append, hsix]
    omega
  · intro c hc
    rcases List.mem_append.mp hc with h | h
    · have hall : "FLOOR ".toList.all (fun c => 32 ≤ c.toNat ∧ c.toNat < 256) =
          true := rfl
      simpa using List.all_eq_true.mp hall c h
    · rcases floorToString_printable floor c h with rfl | hdigit
      · decide
      · have hrange := toNat_of_isDigit hdigit
        omega

namespace IsOrder

variable {text : List Char}

theorem isText (horder : IsOrder text) : IsText text := by
  intro c hc
  have hrange := horder.printable c hc
  omega

theorem length_pos (horder : IsOrder text) : 0 < text.length := by
  cases text with
  | nil => exact absurd horder.head (by simp)
  | cons c rest => exact Nat.zero_lt_succ _

theorem frame_eq (horder : IsOrder text) :
    frame text = 0 :: 0 :: 0 :: .ofNat text.length :: bytesOf text := by
  have hzero {k : Nat} (hk : 256 ≤ k) : text.length / k = 0 :=
    Nat.div_eq_of_lt (Nat.lt_of_lt_of_le horder.short (by omega))
  rw [frame, bigEndian, hzero (by decide), hzero (by decide), hzero (by decide)]
  rfl

theorem bytes_printable (horder : IsOrder text) :
    ∀ byte ∈ bytesOf text, 32 ≤ byte.toNat := by
  intro byte hbyte
  obtain ⟨c, hc, rfl⟩ := List.mem_map.mp hbyte
  obtain ⟨hlow, hhigh⟩ := horder.printable c hc
  rw [UInt8.toNat_ofNat', Nat.mod_eq_of_lt hhigh]
  exact hlow

end IsOrder

/-- The invariant of a run without a partial read: the messages decoded are the
first of those sent, and the bytes to come are the rest. -/
def InStep (messages : List (List Char)) (state : OrderStream) : Prop :=
  state.isOpen = true ∧ ∃ todo, messages = state.decoded ++ todo ∧
    state.pending ++ state.flight = todo.flatMap frame

/-- After a partial read: the connection is closed, something else has been
decoded than was sent, or a printable character comes where a prefix should. -/
def Derailed (messages : List (List Char)) (state : OrderStream) : Prop :=
  state.isOpen = false ∨ ¬ state.decoded <+: messages ∨
    ∃ byte rest, state.pending ++ state.flight = byte :: rest ∧ 32 ≤ byte.toNat

theorem streamStep_arrive_bytes (state : OrderStream) (n : Nat) :
    (streamStep state (.arrive n)).pending ++ (streamStep state (.arrive n)).flight =
      state.pending ++ state.flight := by
  simp [streamStep]

section Poll

variable {messages : List (List Char)} {state : OrderStream}
  {fullLength : Block 4} {between : Nat} {buffer : Block 1024}

/-- The bytes of the stream from the body on: what the second read can find,
and what arrives later. -/
theorem available_append (state : OrderStream) (between : Nat) :
    (state.pending.drop 4 ++ state.flight.take between) ++
        state.flight.drop between = state.pending.drop 4 ++ state.flight := by
  rw [List.append_assoc, List.take_append_drop]

/-- What a poll finds that gets the whole prefix of an order. -/
theorem recvStep_prefix {text : List Char} {rest : List UInt8}
    (horder : IsOrder text) (hopen : state.isOpen = true)
    (hbytes : state.pending ++ state.flight = frame text ++ rest)
    (hwhole : 4 ≤ state.pending.length) :
    recvStep state fullLength between buffer =
        pollBody { state with pending := state.pending.drop 4 } text.length
          between buffer ∧
      fromBigEndian (state.pending.take 4) = text.length ∧
      state.pending.drop 4 ++ state.flight = bytesOf text ++ rest := by
  have htake : state.pending.take 4 = bigEndian text.length := by
    rw [← List.take_append_of_le_length hwhole, hbytes, frame, List.append_assoc]
    exact List.take_left' (length_bigEndian _)
  have hdrop : state.pending.drop 4 ++ state.flight = bytesOf text ++ rest := by
    rw [← List.drop_append_of_le_length hwhole, hbytes, frame, List.append_assoc]
    exact List.drop_left' (length_bigEndian _)
  have hshort := horder.short
  have hpos := horder.length_pos
  have hvalue := fromBigEndian_bigEndian (show text.length < 2 ^ 32 by omega)
  refine ⟨?_, by rw [htake, hvalue], hdrop⟩
  have hnonempty : state.pending ≠ [] := by
    intro hnil
    simp [hnil] at hwhole
  have hread := fullLength.write_full (length_bigEndian text.length)
  rw [recvStep, if_neg (by simp [hopen, hnonempty])]
  simp only [htake, hread, hvalue]
  rw [if_neg (by omega)]

theorem InStep.wholeFrame (horders : ∀ text ∈ messages, IsOrder text)
    (hinv : InStep messages state)
    (hguard : WholeFrame state (.poll fullLength between buffer)) :
    InStep messages (recvStep state fullLength between buffer) := by
  obtain ⟨hopen, todo, hmessages, hbytes⟩ := hinv
  rcases hguard with hnil | ⟨hwhole, hbody⟩
  · rw [recvStep, if_pos (Or.inr hnil)]
    exact ⟨hopen, todo, hmessages, hbytes⟩
  · cases todo with
    | nil =>
        have hnil : state.pending = [] := (List.append_eq_nil_iff.mp hbytes).1
        simp [hnil] at hwhole
    | cons text rest =>
        have horder : IsOrder text := horders text (by simp [hmessages])
        rw [List.flatMap_cons] at hbytes
        obtain ⟨hpoll, hlength, hrest⟩ := recvStep_prefix horder hopen hbytes hwhole
        rw [hlength] at hbody
        rw [← available_append state between] at hrest
        have htake := congrArg (List.take text.length) hrest
        have hdrop := congrArg (List.drop text.length) hrest
        rw [List.take_append_of_le_length hbody,
          List.take_left' (length_bytesOf text)] at htake
        rw [List.drop_append_of_le_length hbody,
          List.drop_left' (length_bytesOf text)] at hdrop
        have hne : bytesOf text ≠ [] := by
          rw [← List.length_pos_iff, length_bytesOf]
          exact horder.length_pos
        have hfits : text.length < 1024 := by
          have := horder.short
          omega
        rw [hpoll, pollBody]
        simp only [htake, if_neg hne]
        refine ⟨hopen, rest, ?_, hdrop⟩
        rw [← Block.readBody_take, htake, Block.text_readBody _ horder.isText hfits]
        simp [hmessages]

/-- A text that does not begin like an order is none of those sent. -/
theorem not_prefix_of_head {decoded todo : List (List Char)}
    {text : List Char} (htext : text.head? ≠ some 'F')
    (horders : ∀ text ∈ todo, IsOrder text) :
    ¬ decoded ++ [text] <+: decoded ++ todo := by
  rw [List.prefix_append_right_inj]
  rintro ⟨rest, hrest⟩
  have hmem : text ∈ todo := by rw [← hrest]; simp
  exact htext (horders text hmem).head

/-- After a part of the prefix the next byte is zero or the length, and no
order begins with either. -/
theorem head_after_partial_prefix {text : List Char} {first second : List UInt8}
    {rest : List UInt8} (horder : IsOrder text)
    (hbytes : first ++ second = frame text ++ rest) (hpos : first ≠ [])
    (hshort : first.length < 4) :
    ∃ byte later, second = byte :: later ∧ byte.toNat < 32 := by
  have hlength : (UInt8.ofNat text.length).toNat < 32 := by
    have hlt := horder.short
    rw [UInt8.toNat_ofNat', Nat.mod_eq_of_lt (by omega)]
    exact hlt
  rw [horder.frame_eq] at hbytes
  match first, hpos, hshort with
  | [a], _, _ =>
      exact ⟨_, _, (List.cons.inj hbytes).2, by decide⟩
  | [a, b], _, _ =>
      exact ⟨_, _, (List.cons.inj (List.cons.inj hbytes).2).2, by decide⟩
  | [a, b, c], _, _ =>
      exact ⟨_, _, (List.cons.inj (List.cons.inj (List.cons.inj hbytes).2).2).2,
        hlength⟩

theorem InStep.partialPrefix (horders : ∀ text ∈ messages, IsOrder text)
    (hinv : InStep messages state) (hpos : state.pending ≠ [])
    (hshort : state.pending.length < 4) :
    Derailed messages (recvStep state fullLength between buffer) := by
  obtain ⟨hopen, todo, rfl, hbytes⟩ := hinv
  cases todo with
  | nil => exact absurd (List.append_eq_nil_iff.mp hbytes).1 hpos
  | cons text rest =>
      have horder : IsOrder text := horders text (by simp)
      rw [List.flatMap_cons] at hbytes
      obtain ⟨byte, later, hflight, hbyte⟩ :=
        head_after_partial_prefix horder hbytes hpos hshort
      rw [recvStep, if_neg (by simp [hopen, hpos])]
      simp only [List.drop_of_length_le (Nat.le_of_lt hshort)]
      split
      · exact Or.inl rfl
      · next hlength =>
          rw [pollBody]
          simp only [List.nil_append, hflight]
          split
          · exact Or.inl rfl
          · next hne =>
              refine Or.inr (Or.inl (not_prefix_of_head ?_ fun text htext =>
                horders text (List.mem_append_right _ htext)))
              cases between with
              | zero => exact absurd List.take_nil hne
              | succ between =>
                  rw [List.take_succ_cons, Block.head_text_readBody _
                    (Nat.pos_of_ne_zero fun h => hlength (Or.inl h)) (by decide)]
                  split
                  · simp
                  · intro hhead
                    have hcontrol : ∀ n < 32, Char.ofNat n ≠ 'F' := by decide
                    exact hcontrol _ hbyte (Option.some.inj hhead)

/-- A poll that gets the whole prefix and a part of the body only. -/
theorem InStep.partialBody (horders : ∀ text ∈ messages, IsOrder text)
    (hinv : InStep messages state) (hwhole : 4 ≤ state.pending.length)
    (hbody : (state.pending.drop 4 ++ state.flight.take between).length <
      fromBigEndian (state.pending.take 4)) :
    Derailed messages (recvStep state fullLength between buffer) := by
  obtain ⟨hopen, todo, rfl, hbytes⟩ := hinv
  cases todo with
  | nil =>
      have hnil : state.pending = [] := (List.append_eq_nil_iff.mp hbytes).1
      simp [hnil] at hwhole
  | cons text rest =>
      have horder : IsOrder text := horders text (by simp)
      rw [List.flatMap_cons] at hbytes
      obtain ⟨hpoll, hlength, hrest⟩ := recvStep_prefix horder hopen hbytes hwhole
      rw [hlength] at hbody
      rw [← available_append state between] at hrest
      rw [hpoll, pollBody]
      simp only
      split
      · exact Or.inl rfl
      · have hlater := congrArg (List.drop (state.pending.drop 4 ++
          state.flight.take between).length) hrest
        rw [List.drop_left, List.drop_append_of_le_length
          (by rw [length_bytesOf]; omega)] at hlater
        obtain ⟨byte, more, hmore⟩ : ∃ byte more, (bytesOf text).drop
            (state.pending.drop 4 ++ state.flight.take between).length =
              byte :: more :=
          List.exists_cons_of_length_pos (by
            rw [List.length_drop, length_bytesOf]
            omega)
        rw [hmore] at hlater
        refine Or.inr (Or.inr ⟨byte, more ++ rest.flatMap frame, ?_, ?_⟩)
        · rw [List.drop_of_length_le (Nat.le_of_lt hbody)]
          exact hlater
        · apply horder.bytes_printable
          exact List.mem_of_mem_drop (hmore ▸ List.mem_cons_self)

theorem InStep.derails (horders : ∀ text ∈ messages, IsOrder text)
    (hinv : InStep messages state)
    (hbroken : ¬ WholeFrame state (.poll fullLength between buffer)) :
    Derailed messages (recvStep state fullLength between buffer) := by
  obtain ⟨hpos, hbody⟩ := not_or.mp hbroken
  by_cases hwhole : 4 ≤ state.pending.length
  · exact hinv.partialBody horders hwhole
      (Nat.lt_of_not_le fun hle => hbody ⟨hwhole, hle⟩)
  · exact hinv.partialPrefix horders hpos (Nat.lt_of_not_le hwhole)

theorem recvStep_decoded (state : OrderStream) (fullLength : Block 4)
    (between : Nat) (buffer : Block 1024) :
    ∃ more, (recvStep state fullLength between buffer).decoded =
      state.decoded ++ more := by
  unfold recvStep
  split
  · exact ⟨[], (List.append_nil _).symm⟩
  · simp only
    split
    · exact ⟨[], (List.append_nil _).symm⟩
    · unfold pollBody
      simp only
      split
      · exact ⟨[], (List.append_nil _).symm⟩
      · exact ⟨_, rfl⟩

/-- A prefix that begins with a printable character is too large. -/
theorem recvStep_printable {byte : UInt8} {rest : List UInt8}
    (hbyte : 32 ≤ byte.toNat) (hopen : state.isOpen = true)
    (hpending : state.pending = byte :: rest) :
    (recvStep state fullLength between buffer).isOpen = false := by
  have hlarge : 1024 <
      fromBigEndian (fullLength.write (state.pending.take 4)).bytes := by
    obtain ⟨tail, hbytes⟩ : ∃ tail, (fullLength.write
        (state.pending.take 4)).bytes = byte :: tail := by
      simp [Block.write, hpending]
    have hfilled := (fullLength.write (state.pending.take 4)).filled
    have hvalue := le_fromBigEndian byte tail
    rw [hbytes, List.length_cons] at hfilled
    rw [show tail.length = 3 by omega] at hvalue
    rw [hbytes]
    omega
  rw [recvStep, if_neg (by simp [hopen, hpending])]
  simp only
  rw [if_pos (Or.inr hlarge)]

/-- There is no way back from a partial read. -/
theorem Derailed.poll (hderailed : Derailed messages state) :
    Derailed messages (recvStep state fullLength between buffer) := by
  rcases hderailed with hclosed | hdecoded | ⟨byte, rest, hbytes, hbyte⟩
  · rw [recvStep, if_pos (Or.inl hclosed)]
    exact Or.inl hclosed
  · obtain ⟨more, hmore⟩ := recvStep_decoded state fullLength between buffer
    refine Or.inr (Or.inl fun hprefix => hdecoded ?_)
    rw [hmore] at hprefix
    exact (List.prefix_append _ _).trans hprefix
  · by_cases hnone : state.isOpen = false ∨ state.pending = []
    · rw [recvStep, if_pos hnone]
      exact Or.inr (Or.inr ⟨byte, rest, hbytes, hbyte⟩)
    · obtain ⟨hopen, hnonempty⟩ := not_or.mp hnone
      obtain ⟨first, later, hpending⟩ := List.exists_cons_of_ne_nil hnonempty
      have hfirst : first = byte := by
        rw [hpending] at hbytes
        exact (List.cons.inj hbytes).1
      rw [← hfirst] at hbyte
      exact Or.inl (recvStep_printable hbyte (by simpa using hopen) hpending)

theorem InStep.step (horders : ∀ text ∈ messages, IsOrder text)
    (state : OrderStream) (action : StreamAction) (hinv : InStep messages state)
    (hguard : WholeFrame state action) :
    InStep messages (streamStep state action) := by
  cases action with
  | arrive n =>
      obtain ⟨hopen, todo, hmessages, hbytes⟩ := hinv
      exact ⟨hopen, todo, hmessages,
        (streamStep_arrive_bytes state n).trans hbytes⟩
  | poll fullLength between buffer => exact hinv.wholeFrame horders hguard

theorem Derailed.step (state : OrderStream) (action : StreamAction)
    (hderailed : Derailed messages state) :
    Derailed messages (streamStep state action) := by
  cases action with
  | arrive n =>
      unfold Derailed
      rw [streamStep_arrive_bytes]
      exact hderailed
  | poll fullLength between buffer => exact hderailed.poll

/-- In step at the end means that everything has been decoded. -/
theorem InStep.delivered (hinv : InStep messages state)
    (hdelivered : Delivered state) :
    state.isOpen = true ∧ state.decoded = messages := by
  obtain ⟨hopen, todo, hmessages, hbytes⟩ := hinv
  obtain ⟨hflight, hpending⟩ := hdelivered hopen
  refine ⟨hopen, ?_⟩
  cases todo with
  | nil => rw [hmessages, List.append_nil]
  | cons text rest =>
      rw [hflight, hpending, List.flatMap_cons, frame] at hbytes
      exact absurd (congrArg List.length hbytes) (by simp; omega)

theorem Derailed.delivered (hderailed : Derailed messages state)
    (hdelivered : Delivered state) :
    ¬ (state.isOpen = true ∧ state.decoded = messages) := by
  rintro ⟨hopen, rfl⟩
  rcases hderailed with hclosed | hdecoded | ⟨byte, rest, hbytes, -⟩
  · rw [hopen] at hclosed
    exact Bool.noConfusion hclosed
  · exact hdecoded (List.prefix_refl _)
  · obtain ⟨hflight, hpending⟩ := hdelivered hopen
    rw [hflight, hpending] at hbytes
    exact absurd hbytes (by simp)

end Poll

/-- The orders a controller sends are decoded exactly, and the connection is
kept, if and only if no poll of the car's comes while a part of a frame only
can be read, whatever the buffer holds.  The socket does not wait for the rest. -/
theorem decoded_iff_wholeFrame (floors : List Int) (actions : List StreamAction)
    (hdelivered : Delivered (run streamStep
      (sendOrders (floors.map floorMessage)) actions)) :
    ((run streamStep (sendOrders (floors.map floorMessage))
          actions).isOpen = true ∧
        (run streamStep (sendOrders (floors.map floorMessage))
          actions).decoded = floors.map floorMessage) ↔
      Along streamStep WholeFrame
        (sendOrders (floors.map floorMessage)) actions := by
  have horders : ∀ text ∈ floors.map floorMessage, IsOrder text := by
    intro text htext
    obtain ⟨floor, -, rfl⟩ := List.mem_map.mp htext
    exact isOrder_floorMessage floor
  generalize floors.map floorMessage = messages at horders hdelivered ⊢
  have hstart : InStep messages (sendOrders messages) :=
    ⟨rfl, messages, rfl, rfl⟩
  have hfail : ∀ state action, InStep messages state →
      ¬ WholeFrame state action → Derailed messages (streamStep state action) := by
    intro state action hinv hbroken
    cases action with
    | arrive n => exact absurd trivial hbroken
    | poll fullLength between buffer => exact hinv.derails horders hbroken
  constructor
  · intro hexact
    rcases along_or_spoilt (InStep.step horders) hfail Derailed.step hstart
        actions with ⟨halong, -⟩ | hderailed
    · exact halong
    · exact absurd hexact (hderailed.delivered hdelivered)
  · intro halong
    have hinv := (always_of_invariant (InStep.step horders) (fun _ hinv => hinv)
      hstart halong).final
    exact hinv.delivered hdelivered

/-- The car finds a report of its own in the buffer when it comes to its reads. -/
def pollsForOrder : StreamAction :=
  .poll (.zero 4) 0 ((Block.zero 1024).print "STATUS Closed 1 1 \n".toList)

/-- Two orders, in two pieces that end with a frame each. -/
def wholeFrames : List StreamAction :=
  [.arrive 11, pollsForOrder, pollsForOrder, .arrive 12, pollsForOrder]

theorem decoded_whole_frames :
    (run streamStep (sendOrders ([3, -1].map floorMessage)) wholeFrames).isOpen =
        true ∧
      (run streamStep (sendOrders ([3, -1].map floorMessage)) wholeFrames).decoded =
        [3, -1].map floorMessage :=
  (decoded_iff_wholeFrame [3, -1] wholeFrames (by decide)).mpr (by decide)

/-- The prefix alone has arrived when the car polls. -/
def prefixAlone : List StreamAction := [.arrive 4, pollsForOrder, .arrive 7]

/-- It closes the connection. -/
theorem closed_after_prefix :
    Delivered (run streamStep (sendOrders ([3].map floorMessage)) prefixAlone) ∧
      ¬ ((run streamStep (sendOrders ([3].map floorMessage)) prefixAlone).isOpen =
          true ∧
        (run streamStep (sendOrders ([3].map floorMessage)) prefixAlone).decoded =
          [3].map floorMessage) :=
  ⟨by decide, by decide⟩

/-- Four bytes of the body are read over those of the report. -/
example : (run streamStep (sendOrders ([3].map floorMessage))
    [.arrive 8, pollsForOrder]).decoded = ["FLOOUS ".toList] := by
  decide

end Elevator
