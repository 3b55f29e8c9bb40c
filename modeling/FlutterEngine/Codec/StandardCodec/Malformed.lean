import FlutterEngine.Codec.StandardCodec
import FlutterEngine.Lib.ParserRules

/-!
# Decoding malformed messages

The reader reports a read past the end of a message and goes on, so `DecodeMessage` returns a value
for every byte string. `ReadSize` however leaves its result uninitialised when the bytes of a size
are missing, and what is decoded then depends on what the local held before.

* `readValue_total`: decoding returns, and never indexes outside the message.
* `decodeMessage_deterministic`: the decoded value is a function of the bytes as long as no size is
  cut off by the end of the message, and only then, unless a map might have dropped the difference.
-/

namespace Flutter

open Lib ByteBufferStreamReader Parser List Endian Nat Guides

namespace StandardCodecSerializer

variable {e : Endian} {memory : Memory} {bytes : List UInt8} {start location : ℕ}

/-! ## Decoding returns -/

/-- A byte within the message. -/
lemma byteAt_of_lt (h : location < bytes.length) : byteAt bytes location = .ok bytes[location] := by
  rw [byteAt, getElem?_eq_getElem h]

/-- A copy within the message. -/
lemma copy_of_le {length : ℕ} (h : location + length ≤ bytes.length) :
    ∃ data, copy bytes location length = .ok data ∧ data.length = length := by
  induction length generalizing location with
  | zero => exact ⟨[], rfl, rfl⟩
  | succ length ih =>
    obtain ⟨data, hdata, hlength⟩ := ih (show location + 1 + length ≤ bytes.length by omega)
    refine ⟨bytes[location] :: data, ?_, by rw [length_cons, hlength]⟩
    rw [copy, byteAt_of_lt, hdata]
    rfl

/-- At the end of the message, zero is read and the position stays. -/
lemma readByte_of_ge (h : bytes.length ≤ location) :
    readByte.parse bytes location = .ok (0, location) :=
  if_pos h

/-- A byte within the message is read. -/
lemma readByte_of_lt (h : location < bytes.length) :
    readByte.parse bytes location = .ok (bytes[location], location + 1) := by
  simp only [readByte, byteAt_of_lt h]
  exact if_neg (by omega)

/-- Reading a byte never fails. -/
lemma readByte_total : Parser.Total readByte bytes start := by
  intro location _
  rcases lt_or_ge location bytes.length with h | h
  · exact ⟨_, _, readByte_of_lt h, le_succ location⟩
  · exact ⟨_, _, readByte_of_ge h, le_rfl⟩

/-- Past the end of the message, the buffer stays as it was. -/
lemma readBytes_of_gt {buffer : List UInt8} {length : ℕ} (h : bytes.length < location + length) :
    (readBytes buffer length).parse bytes location = .ok (buffer, location) :=
  if_pos h

/-- Bytes within the message are read into the buffer. -/
lemma readBytes_of_le (buffer : List UInt8) {length : ℕ} (h : location + length ≤ bytes.length) :
    ∃ data, copy bytes location length = .ok data ∧ data.length = length ∧
      (readBytes buffer length).parse bytes location =
        .ok (data ++ buffer.drop length, location + length) := by
  obtain ⟨data, hdata, hlength⟩ := copy_of_le h
  refine ⟨data, hdata, hlength, ?_⟩
  simp only [readBytes, hdata]
  exact if_neg (by omega)

/-- Reading bytes never fails. -/
lemma readBytes_total {buffer : List UInt8} {length : ℕ} :
    Parser.Total (readBytes buffer length) bytes start := by
  intro location _
  rcases lt_or_ge bytes.length (location + length) with h | h
  · exact ⟨_, _, readBytes_of_gt h, le_rfl⟩
  · obtain ⟨data, -, -, hread⟩ := readBytes_of_le buffer h
    exact ⟨_, _, hread, le_add_right _ _⟩

/-- Skipping the padding never fails. -/
lemma readAlignment_total {alignment : ℕ} : Parser.Total (readAlignment alignment) bytes start := by
  intro location _
  simp only [readAlignment]
  split
  · exact ⟨_, _, rfl, le_add_right _ _⟩
  · exact ⟨_, _, rfl, le_rfl⟩

/-- Reading a size never fails. -/
lemma readSize_total : Parser.Total (readSize e memory) bytes start := by
  refine Total.position.bind fun location => readByte_total.bind fun byte => ?_
  split
  · exact Total.pure
  · split <;> exact readBytes_total.bind fun _ => Total.pure

/-- Reading a vector never fails. -/
lemma readVector_total {w n : ℕ} : Parser.Total (readVector e memory w n) bytes start := by
  refine readSize_total.bind fun count => Total.bind ?_ fun _ =>
    readBytes_total.bind fun _ => Total.pure
  split
  · exact readAlignment_total
  · exact Total.pure

/-- Reading what a type byte calls for never fails. -/
lemma readTyped_total {read : StreamReader EncodableValue} (hread : Parser.Total read bytes start)
    (type : UInt8) : Parser.Total (readTyped e memory read type) bytes start := by
  unfold readTyped
  split
  case h_4 | h_5 => exact readBytes_total.bind fun _ => Total.pure
  case h_6 => exact readAlignment_total.bind fun _ => readBytes_total.bind fun _ => Total.pure
  case h_7 | h_8 => exact readSize_total.bind fun _ => readBytes_total.bind fun _ => Total.pure
  case h_9 | h_10 | h_11 | h_12 => exact readVector_total.bind fun _ => Total.pure
  case h_13 => exact readSize_total.bind fun n => (hread.times n).bind fun _ => Total.pure
  case h_14 =>
    have hentry : Parser.Total (do return (← read, ← read)) bytes start :=
      hread.bind fun _ => hread.bind fun _ => Total.pure
    exact Total.position.bind fun _ => readSize_total.bind fun n =>
      (hentry.times n).bind fun _ => Total.pure
  all_goals exact Total.pure

/-- A nested value is read only behind a type byte, so the length of the message bounds the
nesting. -/
theorem readValue_total {fuel : ℕ} (hfuel : bytes.length ≤ start + fuel) :
    Parser.Total (readValue e memory (fuel + 1)) bytes start := by
  induction fuel generalizing start with
  | zero =>
    intro location hlocation
    have hend : bytes.length ≤ location := hfuel.trans hlocation
    exact ⟨_, _, bind_parse (readByte_of_ge hend), le_rfl⟩
  | succ fuel ih =>
    intro location hlocation
    rcases lt_or_ge location bytes.length with h | h
    · have hread : Parser.Total (readTyped e memory (readValue e memory (fuel + 1)) bytes[location])
          bytes (location + 1) :=
        readTyped_total (ih (by omega)) _
      obtain ⟨v, next, hv, hnext⟩ := hread (location + 1) le_rfl
      exact ⟨v, next, (bind_parse (readByte_of_lt h)).trans hv, by omega⟩
    · exact ⟨_, _, bind_parse (readByte_of_ge h), le_rfl⟩

/-! ## Sizes that are cut off -/

variable (e) in
/-- Read a size, or fail if its bytes are not all there. -/
def skipSize : StreamReader ℕ := do
  let byte ← readByte
  if byte < 254 then
    return byte.toNat
  else if byte = 254 then
    let value ← takeBytes 2
    return (e.word 16 value).toNat
  else
    let value ← takeBytes 4
    return (e.word 32 value).toNat
where
  takeBytes (length : ℕ) : StreamReader (List UInt8) := ⟨fun bytes location =>
    if location + length > bytes.length then .error .outOfBounds
    else do
      let data ← copy bytes location length
      return (data, location + length)⟩

/-- Move behind the given number of bytes, if they are there. -/
def skipBytes (length : ℕ) : StreamReader Unit := do
  let _ ← readBytes [] length

variable (e) in
/-- Move behind a size and as many elements of `n` bytes. -/
def skipVector (n : ℕ) : StreamReader Unit := do
  let count ← skipSize e
  let _ ← (if n > 1 then readAlignment n else pure () : StreamReader Unit)
  skipBytes (count * n)

variable (e) in
/-- Move behind the part of a value that follows its type byte, without looking at more than the
sizes in it. -/
def skipTyped (skip : StreamReader Unit) (type : UInt8) : StreamReader Unit :=
  match type.toNat with
  | 3 => skipBytes 4
  | 4 => skipBytes 8
  | 6 => do
    readAlignment 8
    skipBytes 8
  | 5 | 7 => do
    let size ← skipSize e
    skipBytes size
  | 8 => skipVector e 1
  | 9 => skipVector e 4
  | 10 | 11 => skipVector e 8
  | 12 => do
    let length ← skipSize e
    let _ ← skip.times length
  | 13 => do
    let length ← skipSize e
    let _ ← Parser.times (do skip; skip) length
  | _ => return ()

variable (e) in
/-- Move behind a value. -/
def skipValue : ℕ → StreamReader Unit
  | 0 => Parser.fail .outOfFuel
  | fuel + 1 => do
    let type ← readByte
    skipTyped e (skipValue fuel) type

variable (e) in
/-- No size that is reached while decoding the message is cut off by its end. -/
def SizesComplete (message : List UInt8) : Prop :=
  ((skipValue e (message.length + 1)).parse message 0).isOk

instance (message : List UInt8) : Decidable (SizesComplete e message) :=
  inferInstanceAs (Decidable (_ = true))

/-! ## Complete sizes make decoding deterministic -/

/-- The memories that allocate map keys at given addresses. -/
abbrev MemoryAt (address : ℕ → ℕ → ℕ) := {memory : Memory // memory.keyAddress = address}

variable {address : ℕ → ℕ → ℕ}
variable {length n w next : ℕ} {buffer : List UInt8} {fault : Fault} {skip : StreamReader Unit}

/-- Bytes that are there are read alike from all memories. -/
lemma takeBytes_guides {ι : Type} {buffer : ι → List UInt8}
    (hbuffer : ∀ i, (buffer i).length = length) :
    Parser.Guides (skipSize.takeBytes length) (fun i => readBytes (buffer i) length) bytes Eq := by
  intro location data next h
  simp only [skipSize.takeBytes] at h
  split at h
  · cases h
  · next hle =>
    have hread := fun i => readBytes_of_le (buffer i) (le_of_not_gt hle)
    refine ⟨data, rfl, fun i => ?_⟩
    obtain ⟨data', hcopy, -, hread⟩ := hread i
    rw [hcopy] at h
    rw [hread, ← h, drop_eq_nil_of_le (hbuffer i).le, append_nil]
    rfl

/-- A size that is there is read alike from all memories. -/
lemma skipSize_guides :
    Parser.Guides (skipSize e) (fun memory : MemoryAt address => readSize e memory.1) bytes Eq := by
  refine position_bind fun location => ?_
  refine (Guides.self readByte).bind ?_
  rintro byte _ rfl
  split
  · exact Guides.pure rfl
  · split
    · refine (takeBytes_guides fun _ => length_bytes _ _ _).bind ?_
      rintro value _ rfl
      exact Guides.pure rfl
    · refine (takeBytes_guides fun _ => length_bytes _ _ _).bind ?_
      rintro value _ rfl
      exact Guides.pure rfl

/-- Bytes that are skipped are read from all memories. -/
lemma skipBytes_guides {ι γ : Type} {f : List UInt8 → γ} :
    Parser.Guides (skipBytes length) (fun _ : ι => do return f (← readBytes buffer length)) bytes
      fun _ _ => True := by
  refine Guides.bind (R := fun _ _ => True) ?_ fun _ _ _ => Guides.pure trivial
  intro location data next h
  rcases lt_or_ge bytes.length (location + length) with hlt | hle
  · rw [readBytes_of_gt hlt] at h
    cases h
    exact ⟨_, trivial, fun _ => readBytes_of_gt hlt⟩
  · obtain ⟨data', hcopy, -, hread⟩ := readBytes_of_le [] hle
    obtain ⟨data'', -, -, hread'⟩ := readBytes_of_le buffer hle
    rw [hread] at h
    cases h
    exact ⟨_, trivial, fun _ => hread'⟩

/-- A vector that is skipped is read from all memories. -/
lemma skipVector_guides :
    Parser.Guides (skipVector e n) (fun memory : MemoryAt address => readVector e memory.1 w n)
      bytes fun _ _ => True := by
  refine skipSize_guides.bind ?_
  rintro count _ rfl
  exact (self _).bind fun _ _ _ => skipBytes_guides

/-- What a type byte calls for is skipped and read alike. -/
lemma skipTyped_guides {read : MemoryAt address → StreamReader EncodableValue}
    (hread : Parser.Guides skip read bytes fun _ _ => True) (type : UInt8) :
    Parser.Guides (skipTyped e skip type)
      (fun memory : MemoryAt address => readTyped e memory.1 (read memory) type) bytes
      fun _ _ => True := by
  unfold skipTyped readTyped
  generalize type.toNat = n
  match n with
  | 0 | 1 | 2 | n + 14 => exact Guides.pure trivial
  | 3 | 4 => exact skipBytes_guides
  | 5 | 7 =>
    refine skipSize_guides.bind ?_
    rintro size _ rfl
    exact skipBytes_guides
  | 6 => exact (self _).bind fun _ _ _ => skipBytes_guides
  | 8 | 9 | 10 | 11 => exact skipVector_guides.right_pure fun _ _ _ => trivial
  | 12 =>
    refine skipSize_guides.bind ?_
    rintro length _ rfl
    exact (hread.times length).bind fun _ _ _ => Guides.pure trivial
  | 13 =>
    -- The entries are the same in all runs, and emplaced at the same addresses.
    have haddress : ∀ memory : MemoryAt address, memory.1.keyAddress = address := Subtype.property
    simp only [haddress]
    refine position_bind fun location => skipSize_guides.bind ?_
    rintro length _ rfl
    have hentry : Parser.Guides (do skip; skip)
        (fun memory => do return (← read memory, ← read memory)) bytes fun _ _ => True :=
      hread.bind fun _ _ _ => hread.right_pure fun _ _ _ => trivial
    exact (hentry.times length).bind fun _ _ _ => Guides.pure trivial

/-- A value that is skipped is read from all memories. -/
lemma skipValue_guides (fuel : ℕ) : Parser.Guides (skipValue e fuel)
      (fun memory : MemoryAt address => readValue e memory.1 fuel) bytes fun _ _ => True := by
  induction fuel with
  | zero => exact nofun
  | succ fuel ih =>
    refine (self readByte).bind ?_
    rintro type _ rfl
    exact skipTyped_guides ih type

/-! ## A size that is cut off shows in the result -/

/-- As many bytes are returned as the buffer has. -/
lemma length_of_readBytes_ok {data : List UInt8} (hbuffer : buffer.length = length)
    (h : (readBytes buffer length).parse bytes location = .ok (data, next)) :
    data.length = length := by
  rcases lt_or_ge bytes.length (location + length) with hlt | hle
  · rw [readBytes_of_gt hlt] at h
    cases h
    exact hbuffer
  · obtain ⟨data', -, hlength, hread⟩ := readBytes_of_le buffer hle
    rw [hread] at h
    cases h
    rw [length_append, hlength, drop_eq_nil_of_le hbuffer.le]
    rfl

/-- As many elements are returned as the size says. -/
lemma length_of_readVector_ok {k mid : ℕ} {l : List (BitVec w)}
    (hsize : (readSize e memory).parse bytes location = .ok (n, mid))
    (hl : (readVector e memory w k).parse bytes location = .ok (l, next)) : l.length = n := by
  simp only [readVector, bind_ok] at hl
  obtain ⟨n', mid', hsize', _, _, -, data, _, -, hwords⟩ := hl
  rw [hsize] at hsize'
  cases hsize'
  cases hwords
  exact length_words _ _ _ _ _

variable {type : UInt8} {read : ℕ → StreamReader EncodableValue} {next₀ next₁ : ℕ}

/-- A string, a typed list or a list has the size that was read in front of it. -/
theorem size_of_readTyped_ok {read : StreamReader EncodableValue} {mid : ℕ} {v : EncodableValue}
    (htype : (type.toNat = 5 ∨ type.toNat = 7) ∨
      (type.toNat = 8 ∨ type.toNat = 9 ∨ type.toNat = 10 ∨ type.toNat = 11) ∨ type.toNat = 12)
    (hsize : (readSize e memory).parse bytes location = .ok (n, mid))
    (hv : (readTyped e memory read type).parse bytes location = .ok (v, next)) : v.size = n := by
  unfold readTyped at hv
  rcases htype with h | h | h
  · rcases h with h | h <;>
    · simp only [h, bind_ok] at hv
      obtain ⟨n', _, hsize', data, _, hdata, hpure⟩ := hv
      rw [hsize] at hsize'
      cases hsize'
      cases hpure
      exact length_of_readBytes_ok (by simp) hdata
  · rcases h with h | h | h | h <;>
    · simp only [h, bind_ok] at hv
      obtain ⟨l, _, hl, hpure⟩ := hv
      cases hpure
      exact length_of_readVector_ok hsize hl
  · simp only [h, bind_ok] at hv
    obtain ⟨n', _, hsize', l, _, hl, hpure⟩ := hv
    rw [hsize] at hsize'
    cases hsize'
    cases hpure
    exact length_of_times_ok hl

/-- A memory whose uninitialised locals all hold `n`. -/
def filled (n : ℕ) : Memory where
  size16 _ := BitVec.ofNat 16 n
  size32 _ := BitVec.ofNat 32 n
  keyAddress _ i := i
  keyAddress_injective _ := Function.injective_id

/-- Bytes are missing only past the end. -/
lemma lt_of_takeBytes_error (h : (skipSize.takeBytes length).parse bytes location = .error fault) :
    bytes.length < location + length := by
  by_contra hle
  obtain ⟨data, hcopy, -⟩ := copy_of_le (le_of_not_gt hle)
  simp only [skipSize.takeBytes, hcopy, if_neg hle] at h
  cases h

/-- Where a size is cut off, `ReadSize` returns what the local held. -/
theorem readSize_filled (hn : n < 2 ^ 16) (h : (skipSize e).parse bytes location = .error fault) :
    ∃ next, (readSize e (filled n)).parse bytes location = .ok (n, next) := by
  have htotal : Parser.Total readByte bytes location := readByte_total
  obtain ⟨byte, mid, hbyte, -⟩ := htotal location le_rfl
  rw [skipSize, bind_error, hbyte] at h
  rcases h with h | ⟨_, _, hbyte', h⟩
  · cases h
  cases hbyte'
  refine ⟨mid, ?_⟩
  rw [readSize, bind_parse position_parse, bind_parse hbyte]
  split at h
  · cases h
  · split at h
    · rcases bind_error.mp h with h | ⟨_, _, -, h⟩
      · rw [if_neg ‹_›, if_pos ‹_›, bind_parse (readBytes_of_gt (lt_of_takeBytes_error h)),
          word_bytes (n := 2) e rfl, filled, BitVec.toNat_ofNat, mod_eq_of_lt hn]
        rfl
      · cases h
    · rcases bind_error.mp h with h | ⟨_, _, -, h⟩
      · rw [if_neg ‹_›, if_neg ‹_›, bind_parse (readBytes_of_gt (lt_of_takeBytes_error h)),
          word_bytes (n := 4) e rfl, filled, BitVec.toNat_ofNat,
          mod_eq_of_lt (by omega)]
        rfl
      · cases h

/-- No map occurs in a value. -/
abbrev NoMap (v : EncodableValue) : Prop := v.All fun v => EncodableValue.type v ≠ .kMap

/-- Where `skip` fails, the readers for different contents of the uninitialised locals return
different values, as long as no map is among them. -/
def Splits (skip : StreamReader Unit) (read : ℕ → StreamReader EncodableValue)
    (bytes : List UInt8) (start : ℕ) : Prop :=
  ∀ location, start ≤ location → ∀ fault, skip.parse bytes location = .error fault →
    ∀ v₀ v₁ next₀ next₁, (read 0).parse bytes location = .ok (v₀, next₀) →
      (read 1).parse bytes location = .ok (v₁, next₁) → NoMap v₀ → v₀ ≠ v₁

/-- Lists differ where one of their elements does. -/
lemma times_ne_of_splits (hguides : Parser.Guides skip read bytes fun _ _ => True)
    (htotal : Parser.Total (read 0) bytes start) (hsplits : Splits skip read bytes start)
    (hlocation : start ≤ location) (hskip : (skip.times n).parse bytes location = .error fault)
    {l₀ l₁ : List EncodableValue} (h₀ : ((read 0).times n).parse bytes location = .ok (l₀, next₀))
    (h₁ : ((read 1).times n).parse bytes location = .ok (l₁, next₁)) (hmap : ∀ v ∈ l₀, NoMap v) :
    l₀ ≠ l₁ := by
  induction n generalizing location l₀ l₁ with
  | zero => cases hskip
  | succ n ih =>
    obtain ⟨v₀, l₀, mid₀, hv₀, hl₀, rfl⟩ := times_succ_ok.mp h₀
    obtain ⟨v₁, l₁, mid₁, hv₁, hl₁, rfl⟩ := times_succ_ok.mp h₁
    obtain ⟨hmap₀, hmap⟩ := forall_mem_cons.mp hmap
    rcases times_succ_error.mp hskip with hskip | ⟨_, mid, hskip, hskips⟩
    · intro heq
      exact hsplits location hlocation fault hskip v₀ v₁ mid₀ mid₁ hv₀ hv₁ hmap₀ (cons.inj heq).1
    · -- Both readers are where `skip` is, behind the same value.
      obtain ⟨v, -, hv⟩ := hguides location _ mid hskip
      obtain ⟨_, _, hnext, hle⟩ := htotal location hlocation
      rw [hv 0] at hv₀ hnext
      rw [hv 1] at hv₁
      cases hv₀
      cases hv₁
      cases hnext
      intro heq
      exact ih (hlocation.trans hle) hskips hl₀ hl₁ hmap (cons.inj heq).2

lemma not_error_of_total {β : Type} {p : StreamReader β} (hp : Parser.Total p bytes location) :
    p.parse bytes location ≠ .error fault := by
  obtain ⟨_, _, h, -⟩ := hp location le_rfl
  rw [h]
  exact nofun

/-- Skipping bytes never fails. -/
lemma skipBytes_total : Parser.Total (skipBytes length) bytes start :=
  readBytes_total.bind fun _ => Total.pure

/-- The only part of `skipVector` that can fail is the size. -/
theorem skipSize_error_of_skipVector (h : (skipVector e n).parse bytes location = .error fault) :
    (skipSize e).parse bytes location = .error fault := by
  rcases bind_error.mp h with h | ⟨count, mid, -, h⟩
  · exact h
  · refine (not_error_of_total (Total.bind ?_ fun _ => skipBytes_total) h).elim
    split
    · exact readAlignment_total
    · exact Total.pure

/-- Where something is missing, the two memories give different values. -/
lemma readTyped_ne (hguides : Parser.Guides skip read bytes fun _ _ => True)
    (htotal : Parser.Total (read 0) bytes start) (hsplits : Splits skip read bytes start)
    (hlocation : start ≤ location)
    (hskip : (skipTyped e skip type).parse bytes location = .error fault) {v₀ v₁ : EncodableValue}
    (h₀ : (readTyped e (filled 0) (read 0) type).parse bytes location = .ok (v₀, next₀))
    (h₁ : (readTyped e (filled 1) (read 1) type).parse bytes location = .ok (v₁, next₁))
    (hmap : NoMap v₀) : v₀ ≠ v₁ := by
  -- Where the size in front of the data is cut off, the sizes of the results differ.
  have hsized : ∀ fault, (skipSize e).parse bytes location = .error fault →
      ((type.toNat = 5 ∨ type.toNat = 7) ∨
        (type.toNat = 8 ∨ type.toNat = 9 ∨ type.toNat = 10 ∨ type.toNat = 11) ∨ type.toNat = 12) →
      v₀ ≠ v₁ := by
    intro fault hsize htype heq
    obtain ⟨_, hsize₀⟩ := readSize_filled (n := 0) (by decide) hsize
    obtain ⟨_, hsize₁⟩ := readSize_filled (n := 1) (by decide) hsize
    have := size_of_readTyped_ok htype hsize₀ h₀
    have := size_of_readTyped_ok htype hsize₁ h₁
    rw [heq] at *
    omega
  unfold skipTyped at hskip
  unfold readTyped at h₀ h₁
  generalize type.toNat = n at *
  match n with
  | 0 | 1 | 2 | n + 14 => cases hskip
  | 3 | 4 => exact (not_error_of_total skipBytes_total hskip).elim
  | 6 => exact (not_error_of_total (readAlignment_total.bind fun _ => skipBytes_total) hskip).elim
  | 5 | 7 =>
    rcases bind_error.mp hskip with h | ⟨_, mid, -, h⟩
    · exact hsized fault h (by decide)
    · exact (not_error_of_total skipBytes_total h).elim
  | 8 | 9 | 10 | 11 => exact hsized fault (skipSize_error_of_skipVector hskip) (by decide)
  | 12 =>
    rcases bind_error.mp hskip with h | ⟨n, mid, hn, h⟩
    · exact hsized fault h (by decide)
    · have hsize : ∀ k, (readSize e (filled k)).parse bytes location = .ok (n, mid) := by
        obtain ⟨_, rfl, hsize⟩ := skipSize_guides location n mid hn
        exact fun k => hsize ⟨filled k, rfl⟩
      obtain ⟨_, _, hmid, hle⟩ := readSize_total location hlocation
      rw [hsize 0] at hmid
      cases hmid
      simp only [bind_ok, hsize] at h₀ h₁
      obtain ⟨_, _, hn₀, l₀, mid₀, hl₀, hpure₀⟩ := h₀
      obtain ⟨_, _, hn₁, l₁, mid₁, hl₁, hpure₁⟩ := h₁
      cases hn₀
      cases hn₁
      cases hpure₀
      cases hpure₁
      rcases bind_error.mp h with h | ⟨_, _, -, h⟩
      · intro heq
        exact times_ne_of_splits hguides htotal hsplits (hlocation.trans hle) h hl₀ hl₁
          (Value.all_list.mp hmap).2 (Value.list.inj heq)
      · cases h
  | 13 =>
    obtain ⟨_, _, -, h₀⟩ := bind_ok.mp h₀
    obtain ⟨_, _, -, h₀⟩ := bind_ok.mp h₀
    obtain ⟨_, _, -, h₀⟩ := bind_ok.mp h₀
    cases h₀
    exact ((Value.all_map.mp hmap).1 rfl).elim

/-- A value with missing bytes depends on the memory. -/
lemma skipValue_splits {fuel : ℕ} (hfuel : bytes.length ≤ start + fuel) :
    Splits (skipValue e (fuel + 1)) (fun n => readValue e (filled n) (fuel + 1)) bytes start := by
  induction fuel generalizing start with
  | zero =>
    intro location hlocation fault hskip
    have hend : bytes.length ≤ location := hfuel.trans hlocation
    rw [skipValue, bind_parse (readByte_of_ge hend)] at hskip
    cases hskip
  | succ fuel ih =>
    intro location hlocation fault hskip v₀ v₁ next₀ next₁ h₀ h₁ hmap
    rcases lt_or_ge location bytes.length with h | h
    · change (readValue e (filled 0) (fuel + 1 + 1)).parse bytes location = _ at h₀
      change (readValue e (filled 1) (fuel + 1 + 1)).parse bytes location = _ at h₁
      rw [skipValue, bind_parse (readByte_of_lt h)] at hskip
      rw [readValue, bind_parse (readByte_of_lt h)] at h₀ h₁
      have hguides : Parser.Guides (skipValue e (fuel + 1))
          (fun n => readValue e (filled n) (fuel + 1)) bytes fun _ _ => True := by
        intro location _ next hnext
        obtain ⟨v, -, hv⟩ := skipValue_guides (fuel + 1) location _ next hnext
        exact ⟨v, trivial, fun n => hv ⟨filled n, rfl⟩⟩
      have hfuel' : bytes.length ≤ location + 1 + fuel := by omega
      exact readTyped_ne hguides (readValue_total hfuel') (ih hfuel') le_rfl hskip h₀ h₁ hmap
    · rw [skipValue, bind_parse (readByte_of_ge h)] at hskip
      cases hskip

end StandardCodecSerializer

namespace StandardMessageCodec

open StandardCodecSerializer

/-- Decoding returns for every byte string and never indexes outside it. The decoded value is a
function of the bytes if no size is cut off by the end of the message, and only if, unless a map is
decoded: the entry with the cut off size may then be one that is dropped for its key. -/
theorem decodeMessage_deterministic (e : Endian) (bytes : List UInt8) :
    (∀ memory, ∃ v location, decodeMessage e memory bytes = .ok (v, location)) ∧
    (SizesComplete e bytes →
      ∀ memory memory' : Memory, memory.keyAddress = memory'.keyAddress →
        decodeMessage e memory bytes = decodeMessage e memory' bytes) ∧
    ((∀ memory memory' : Memory, memory.keyAddress = memory'.keyAddress →
        decodeMessage e memory bytes = decodeMessage e memory' bytes) →
      (∀ memory v location, decodeMessage e memory bytes = .ok (v, location) → NoMap v) →
        SizesComplete e bytes) := by
  have hfuel : bytes.length ≤ 0 + bytes.length := by omega
  have htotal : ∀ memory, ∃ v location, decodeMessage e memory bytes = .ok (v, location) := by
    intro memory
    obtain ⟨v, location, h, -⟩ := readValue_total hfuel 0 le_rfl
    exact ⟨v, location, h⟩
  refine ⟨htotal, ?_, ?_⟩
  · intro hsizes memory memory' haddress
    cases hskip : (skipValue e (bytes.length + 1)).parse bytes 0 with
    | error fault =>
      rw [SizesComplete, hskip] at hsizes
      cases hsizes
    | ok r =>
      obtain ⟨v, -, hv⟩ := skipValue_guides (bytes.length + 1) 0 _ _ hskip
      exact (hv ⟨memory, rfl⟩).trans (hv ⟨memory', haddress.symm⟩).symm
  · intro hdeterministic hmap
    by_contra hsizes
    obtain ⟨v₀, location₀, h₀⟩ := htotal (filled 0)
    obtain ⟨v₁, location₁, h₁⟩ := htotal (filled 1)
    have heq := hdeterministic (filled 0) (filled 1) rfl
    rw [h₀, h₁] at heq
    cases heq
    cases hskip : (skipValue e (bytes.length + 1)).parse bytes 0 with
    | ok r =>
      rw [SizesComplete, hskip] at hsizes
      exact hsizes rfl
    | error fault =>
      exact skipValue_splits hfuel 0 le_rfl fault hskip v₀ v₀ location₀ location₀ h₀ h₁
        (hmap _ _ _ h₀) rfl

/-- A string whose size is there decodes to the same value in all memories. -/
theorem decodeMessage_deterministic_string :
    decodeMessage .little (filled 0) [7, 1, 65] = decodeMessage .little (filled 1) [7, 1, 65] :=
  (decodeMessage_deterministic .little [7, 1, 65]).2.1 (by decide) _ _ rfl

/-- A string whose size is cut off: the message depends on what the local held. -/
theorem decodeMessage_cutOff_size :
    decodeMessage .little (filled 0) [7, 254] = .ok (.leaf (.string []), 2) ∧
    decodeMessage .little (filled 1) [7, 254] = .ok (.leaf (.string [0]), 2) :=
  ⟨rfl, rfl⟩

end StandardMessageCodec

end Flutter
