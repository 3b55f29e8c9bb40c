import FlutterEngine.Codec.JavaCodec.Weight

/-!
# The Java method codec

`StandardMethodCodec` of the Android embedding, on top of `StandardMessageCodec`. The result of a
method call comes in an envelope: a byte `0` and the result, or a byte `1` and the code, the message
and the details of an error.

`decodeEnvelope` tells all envelopes apart but for one kind. A success envelope with something
behind the result falls through into the case of an error envelope, which goes on to read where the
result ends. If an error is found there, it is thrown (`decodeEnvelope_eq_ok`).
-/

namespace Flutter.Java

open Lib ByteBuffer Parser

/-- A call of a method. -/
structure MethodCall where
  method : List UInt16
  arguments : JavaValue

/-- How `decodeEnvelope` ends if no other exception is thrown. -/
inductive Envelope
  /-- It returns the result. -/
  | success (result : JavaValue)
  /-- It throws a `FlutterException`. -/
  | error (code : List UInt16) (message : Option (List UInt16)) (details : JavaValue)

/-- A `String`, as the operator `instanceof` finds out. -/
def JavaValue.asString : JavaValue → Option (List UInt16)
  | .leaf (.string s) => some s
  | _ => none

/-- A `String` or null. -/
def JavaValue.asNullableString : JavaValue → Option (Option (List UInt16))
  | .leaf .null => some none
  | .leaf (.string s) => some (some s)
  | _ => none

namespace StandardMethodCodec

open StandardMessageCodec (writeValue readValue)

variable (e : Endian)

/-! ## Writing -/

/-- `encodeMethodCall` -/
def encodeMethodCall (methodCall : MethodCall) : List UInt8 :=
  writeValue e methodCall.arguments (writeValue e (.leaf (.string methodCall.method)) [])

/-- `encodeSuccessEnvelope` -/
def encodeSuccessEnvelope (result : JavaValue) : List UInt8 := writeValue e result [0]

/-- The value that a `String` or null is. -/
def nullableString : Option (List UInt16) → JavaValue
  | none => .leaf .null
  | some s => .leaf (.string s)

/-- `encodeErrorEnvelope` -/
def encodeErrorEnvelope (errorCode : List UInt16) (errorMessage : Option (List UInt16))
    (errorDetails : JavaValue) : List UInt8 :=
  writeValue e errorDetails
    (writeValue e (nullableString errorMessage) (writeValue e (.leaf (.string errorCode)) [1]))

/-! ## Reading -/

section Reading

variable (read : BufferReader JavaValue)

/-- The body of `decodeMethodCall`, with `read` for `readValue`. -/
def readMethodCall : BufferReader MethodCall := do
  let method ← read
  let arguments ← read
  let remaining ← hasRemaining
  match method.asString, remaining with
  | some method, false => return ⟨method, arguments⟩
  | _, _ => fail (.illegalArgument "Method call corrupted")

/-- The case of an error envelope in `decodeEnvelope`. -/
def readError : BufferReader Envelope := do
  let code ← read
  let message ← read
  let details ← read
  let remaining ← hasRemaining
  match code.asString, message.asNullableString, remaining with
  | some code, some message, false => return .error code message details
  | _, _, _ => fail (.illegalArgument "Envelope corrupted")

/-- The body of `decodeEnvelope`, with `read` for `readValue`. -/
def readEnvelope : BufferReader Envelope := do
  let flag ← get
  match flag.toNat with
  | 0 => do
    let result ← read
    let remaining ← hasRemaining
    if remaining = false then return .success result
    -- Falls through intentionally.
    else readError read
  | 1 => readError read
  | _ => fail (.illegalArgument "Envelope corrupted")

end Reading

variable (runtime : Runtime)

/-- `decodeMethodCall` -/
def decodeMethodCall (methodCall : List UInt8) : Except JavaException MethodCall := do
  let (call, _) ← (readMethodCall (readValue e runtime (methodCall.length + 1))).parse methodCall 0
  return call

/-- `decodeEnvelope` -/
def decodeEnvelope (envelope : List UInt8) : Except JavaException Envelope := do
  let (result, _) ← (readEnvelope (readValue e runtime (envelope.length + 1))).parse envelope 0
  return result

end StandardMethodCodec

/-! ## Reading ends -/

namespace StandardMessageCodec

variable {e : Endian} {runtime : Runtime} {bytes : List UInt8} {start : ℕ}

lemma getArray_avoids {length : ℕ} : (getArray length).Avoids .outOfFuel bytes start := by
  refine Avoids.take ?_ length
  exact nofun

lemma getWord_avoids {w n : ℕ} : (getWord e w n).Avoids .outOfFuel bytes start :=
  getArray_avoids.bind fun _ => Avoids.pure

lemma readSize_avoids : (readSize e).Avoids .outOfFuel bytes start := by
  refine Avoids.remaining.bind fun remaining => ?_
  split
  · exact Avoids.fail nofun
  · refine Avoids.next_bind nofun fun value => ?_
    split
    · exact Avoids.pure
    · split
      · exact getWord_avoids.bind fun _ => Avoids.pure
      · exact getWord_avoids.bind fun _ => Avoids.pure

lemma readBytes_avoids : (readBytes e).Avoids .outOfFuel bytes start := by
  refine readSize_avoids.bind fun length => ?_
  split
  · exact Avoids.fail nofun
  · exact getArray_avoids

lemma readAlignment_avoids {alignment : ℕ} (halignment : 0 < alignment) :
    (readAlignment alignment).Avoids .outOfFuel bytes start := by
  intro pos _
  have hlt := Nat.mod_lt pos halignment
  rw [readAlignment, bind_parse position_parse]
  split
  · dsimp only [setPosition]
    split
    · simp
    · refine ⟨by simp, fun _ next h => ?_⟩
      cases h
      omega
  · refine ⟨by simp, fun _ next h => ?_⟩
    cases h
    omega

lemma readArray_avoids {w n : ℕ} (hn : 0 < n) :
    (readArray e w n).Avoids .outOfFuel bytes start := by
  refine readSize_avoids.bind fun length => ?_
  split
  · exact Avoids.fail nofun
  · exact (readAlignment_avoids hn).bind fun _ => getArray_avoids.bind fun _ => Avoids.pure

/-- A value is read with as much fuel as its members. -/
lemma readValueOfType_avoids {read : BufferReader JavaValue}
    (hread : read.Avoids .outOfFuel bytes start) (type : UInt8) :
    (readValueOfType e runtime read type).Avoids .outOfFuel bytes start := by
  unfold readValueOfType
  generalize type.toNat = t
  match t with
  | 0 | 1 | 2 => exact Avoids.pure
  | n + 14 => exact Avoids.fail nofun
  | 3 | 4 => exact getWord_avoids.bind fun _ => Avoids.pure
  | 5 =>
    refine readBytes_avoids.bind fun hex => ?_
    split
    · exact Avoids.pure
    · exact Avoids.fail nofun
  | 6 =>
    exact (readAlignment_avoids (by decide)).bind fun _ => getWord_avoids.bind fun _ => Avoids.pure
  | 7 | 8 => exact readBytes_avoids.bind fun _ => Avoids.pure
  | 9 | 10 | 11 => exact (readArray_avoids (by decide)).bind fun _ => Avoids.pure
  | 12 =>
    refine readSize_avoids.bind fun size => ?_
    split
    · exact Avoids.fail nofun
    · exact (hread.times _).bind fun _ => Avoids.pure
  | 13 =>
    have hentry : Parser.Avoids (do return (← read, ← read)) .outOfFuel bytes start :=
      hread.bind fun _ => hread.bind fun _ => Avoids.pure
    exact readSize_avoids.bind fun _ => (hentry.times _).bind fun _ => Avoids.pure

/-- Every recursive call has read a byte before, so that there is enough fuel for all bytes. -/
theorem readValue_avoids {fuel : ℕ} (hfuel : bytes.length ≤ start + fuel) :
    (readValue e runtime (fuel + 1)).Avoids .outOfFuel bytes start := by
  induction fuel generalizing start with
  | zero =>
    intro pos hpos
    have hempty : ¬pos < bytes.length := by omega
    have hremaining : hasRemaining.parse bytes pos = .ok (false, pos) := by
      simp [hasRemaining, remaining, hempty]
    rw [readValue, bind_parse hremaining]
    exact Avoids.fail (by simp) pos hpos
  | succ fuel ih =>
    refine Avoids.remaining.bind fun remaining => ?_
    split
    · exact Avoids.fail (by simp)
    · exact Avoids.next_bind (by simp) fun type => readValueOfType_avoids (ih (by omega)) type

end StandardMessageCodec

namespace StandardMethodCodec

open StandardMessageCodec (readValue readValue_avoids)

variable {e : Endian} {runtime : Runtime} {envelope : List UInt8}

/-- An error is read with as much fuel as its values. -/
lemma readError_avoids {read : BufferReader JavaValue} {start : ℕ}
    (hread : read.Avoids .outOfFuel envelope start) :
    (readError read).Avoids .outOfFuel envelope start := by
  refine hread.bind fun code => hread.bind fun message => hread.bind fun details => ?_
  refine Avoids.remaining.bind fun remaining => ?_
  split
  · exact Avoids.pure
  · exact Avoids.fail nofun

variable {result : Envelope} {v : JavaValue} {position next : ℕ}

/-- When an envelope is decoded. -/
lemma decodeEnvelope_ok : decodeEnvelope e runtime envelope = .ok result ↔
      ∃ next, (readEnvelope (readValue e runtime (envelope.length + 1))).parse envelope 0 =
        .ok (result, next) := by
  rw [decodeEnvelope]
  cases (readEnvelope (readValue e runtime (envelope.length + 1))).parse envelope 0 with
  | error error => exact ⟨nofun, nofun⟩
  | ok r =>
    constructor
    · intro h
      cases h
      exact ⟨r.2, rfl⟩
    · rintro ⟨next, h⟩
      cases h
      rfl

/-- `decodeEnvelope` ends. -/
theorem decodeEnvelope_ne_outOfFuel : decodeEnvelope e runtime envelope ≠ .error .outOfFuel := by
  have hread : (readValue e runtime (envelope.length + 1)).Avoids .outOfFuel envelope 1 :=
    readValue_avoids (by omega)
  have hall : (readEnvelope (readValue e runtime (envelope.length + 1))).Avoids .outOfFuel
      envelope 0 := by
    refine Avoids.next_bind nofun fun flag => ?_
    split
    · refine hread.bind fun result => Avoids.remaining.bind fun remaining => ?_
      split
      · exact Avoids.pure
      · exact readError_avoids hread
    · exact readError_avoids hread
    · exact Avoids.fail nofun
  have hne := (hall 0 (le_refl 0)).1
  rw [decodeEnvelope]
  cases hparse : (readEnvelope (readValue e runtime (envelope.length + 1))).parse envelope 0 with
  | error error =>
    rintro ⟨⟩
    exact hne hparse
  | ok r => exact nofun

/-! ## What an envelope holds -/

variable (e runtime envelope)

/-- From `position` to `next` there is an encoding that is decoded to `v`. -/
def EncodesAt (position : ℕ) (v : JavaValue) (next : ℕ) : Prop :=
  (readValue e runtime (envelope.length + 1)).parse envelope position = .ok (v, next)

/-- From `position` to the end there are the encodings of a string, of a string or null, and of the
details. -/
def HoldsError (position : ℕ) (code : List UInt16) (message : Option (List UInt16))
    (details : JavaValue) : Prop :=
  ∃ p q, EncodesAt e runtime envelope position (.leaf (.string code)) p ∧
    EncodesAt e runtime envelope p (nullableString message) q ∧
    EncodesAt e runtime envelope q details envelope.length

/-- A byte `0` and the encoding of the result. -/
def IsSuccess (result : JavaValue) : Prop :=
  SliceAt envelope 0 [0] ∧ EncodesAt e runtime envelope 1 result envelope.length

/-- A byte `1` and the encodings of the code, the message and the details. -/
def IsError (code : List UInt16) (message : Option (List UInt16)) (details : JavaValue) : Prop :=
  SliceAt envelope 0 [1] ∧ HoldsError e runtime envelope 1 code message details

/-- A byte `0`, the encoding of some value, and the encodings of the code, the message and the
details. -/
def FallsThrough (code : List UInt16) (message : Option (List UInt16)) (details : JavaValue) :
    Prop :=
  SliceAt envelope 0 [0] ∧ ∃ result position, EncodesAt e runtime envelope 1 result position ∧
    HoldsError e runtime envelope position code message details

variable {e runtime envelope}

/-- Which values are strings. -/
lemma asString_eq_some {s : List UInt16} : v.asString = some s ↔ v = .leaf (.string s) := by
  constructor
  · intro h
    unfold JavaValue.asString at h
    split at h
    · cases h
      rfl
    · cases h
  · rintro rfl
    rfl

/-- Which values are strings or null. -/
lemma asNullableString_eq_some {s : Option (List UInt16)} :
    v.asNullableString = some s ↔ v = nullableString s := by
  constructor
  · intro h
    unfold JavaValue.asNullableString at h
    split at h
    · cases h
      rfl
    · cases h
      rfl
    · cases h
  · rintro rfl
    cases s <;> rfl

lemma remaining_ok {b : Bool} : hasRemaining.parse envelope position = .ok (b, next) ↔
      b = decide (position < envelope.length) ∧ next = position := by
  rw [hasRemaining, remaining, Except.ok.injEq, Prod.mk.injEq, eq_comm, @eq_comm _ next]

/-- A value ends within the envelope. -/
lemma EncodesAt.next_le (hposition : 1 ≤ position)
    (h : EncodesAt e runtime envelope position v next) :
    position ≤ next ∧ next ≤ max position envelope.length :=
  (readValue_avoids (show envelope.length ≤ 1 + envelope.length by omega) position hposition).2
    v next h

/-- Nothing is encoded in no bytes. -/
theorem EncodesAt.lt (h : EncodesAt e runtime envelope position v next) :
    position < envelope.length := by
  obtain ⟨byte, hslice, -⟩ := StandardMessageCodec.readValue_ok h
  exact hslice.length_le

/-- When an error is read. -/
lemma readError_ok (hposition : 1 ≤ position) :
    (readError (readValue e runtime (envelope.length + 1))).parse envelope position =
        .ok (result, next) ↔
      next = envelope.length ∧ ∃ code message details, result = .error code message details ∧
        HoldsError e runtime envelope position code message details := by
  simp only [readError, bind_ok, remaining_ok]
  constructor
  · rintro ⟨v, p, hv, v', q, hv', details, _, hdetails, _, _, ⟨rfl, rfl⟩, h⟩
    have hp := EncodesAt.next_le hposition hv
    have hq := EncodesAt.next_le (by omega) hv'
    have hr := EncodesAt.next_le (by omega) hdetails
    have hlt := EncodesAt.lt hdetails
    split at h
    · next code message hcode hmessage hremaining =>
      cases h
      rw [asString_eq_some] at hcode
      rw [asNullableString_eq_some] at hmessage
      rw [decide_eq_false_iff_not] at hremaining
      have hend : next = envelope.length := by omega
      subst hcode hmessage hend
      exact ⟨rfl, code, message, details, rfl, p, q, hv, hv', hdetails⟩
    · cases h
  · rintro ⟨rfl, code, message, details, rfl, p, q, hcode, hmessage, hdetails⟩
    refine ⟨_, p, hcode, _, q, hmessage, details, _, hdetails, _, _, ⟨rfl, rfl⟩, ?_⟩
    rw [asNullableString_eq_some.mpr rfl, decide_eq_false (lt_irrefl _)]
    rfl

/-- What an envelope is decoded to. -/
lemma decodeEnvelope_eq_ok : decodeEnvelope e runtime envelope = .ok result ↔
      (∃ v, result = .success v ∧ IsSuccess e runtime envelope v) ∨
      ∃ code message details, result = .error code message details ∧
        (IsError e runtime envelope code message details ∨
          FallsThrough e runtime envelope code message details) := by
  rw [decodeEnvelope_ok]
  constructor
  · rintro ⟨next, h⟩
    obtain ⟨flag, _, hflag, h⟩ := bind_ok.mp h
    obtain ⟨hslice, rfl⟩ := next_ok.mp hflag
    split at h
    · next hzero =>
      obtain rfl : flag = 0 := UInt8.toNat.inj hzero
      simp only [bind_ok, remaining_ok] at h
      obtain ⟨v, position, hv, _, _, ⟨rfl, rfl⟩, h⟩ := h
      have hposition := EncodesAt.next_le (le_refl 1) hv
      have hlt := EncodesAt.lt hv
      split at h
      · next hremaining =>
        cases h
        rw [decide_eq_false_iff_not] at hremaining
        obtain rfl : next = envelope.length := by omega
        exact .inl ⟨v, rfl, hslice, hv⟩
      · -- The result is followed by something: go on with the error case.
        obtain ⟨-, code, message, details, rfl, herror⟩ := (readError_ok (by omega)).mp h
        exact .inr ⟨code, message, details, rfl, .inr ⟨hslice, v, _, hv, herror⟩⟩
    · next hone =>
      obtain rfl : flag = 1 := UInt8.toNat.inj hone
      obtain ⟨-, code, message, details, rfl, herror⟩ := (readError_ok (by omega)).mp h
      exact .inr ⟨code, message, details, rfl, .inl ⟨hslice, herror⟩⟩
    · cases h
  · rintro (⟨v, rfl, hslice, hv⟩ | ⟨code, message, details, rfl, ⟨hslice, herror⟩ |
      ⟨hslice, v, position, hv, herror⟩⟩)
    · refine ⟨envelope.length, bind_ok.mpr ⟨0, 1, next_ok.mpr ⟨hslice, rfl⟩, ?_⟩⟩
      refine bind_ok.mpr ⟨v, _, hv, bind_ok.mpr ⟨_, _, remaining_ok.mpr ⟨rfl, rfl⟩, ?_⟩⟩
      rw [decide_eq_false (lt_irrefl _)]
      rfl
    · refine ⟨envelope.length, bind_ok.mpr ⟨1, 1, next_ok.mpr ⟨hslice, rfl⟩, ?_⟩⟩
      exact (readError_ok (le_refl 1)).mpr ⟨rfl, code, message, details, rfl, herror⟩
    · have hposition := EncodesAt.next_le (le_refl 1) hv
      have hlt : position < envelope.length := herror.choose_spec.choose_spec.1.lt
      refine ⟨envelope.length, bind_ok.mpr ⟨0, 1, next_ok.mpr ⟨hslice, rfl⟩, ?_⟩⟩
      refine bind_ok.mpr ⟨v, _, hv, bind_ok.mpr ⟨_, _, remaining_ok.mpr ⟨rfl, rfl⟩, ?_⟩⟩
      rw [decide_eq_true hlt]
      exact (readError_ok hposition.1).mpr ⟨rfl, code, message, details, rfl, herror⟩

/-- `decodeEnvelope` tells envelopes apart exactly if no error is found behind the result of a
success envelope. -/
theorem decodeEnvelope_tells_apart (e : Endian) (runtime : Runtime) (envelope : List UInt8) :
    ((∀ v, decodeEnvelope e runtime envelope = .ok (.success v) → IsSuccess e runtime envelope v) ∧
      (∀ code message details,
        decodeEnvelope e runtime envelope = .ok (.error code message details) →
          IsError e runtime envelope code message details) ∧
      ((∀ v, ¬IsSuccess e runtime envelope v) →
        (∀ code message details, ¬IsError e runtime envelope code message details) →
        ∃ exception, decodeEnvelope e runtime envelope = .error exception ∧
          exception ≠ .outOfFuel)) ↔
    ∀ code message details, ¬FallsThrough e runtime envelope code message details := by
  constructor
  · rintro ⟨-, herror, -⟩ code message details hfalls
    have hthrown := herror code message details
      (decodeEnvelope_eq_ok.mpr (.inr ⟨code, message, details, rfl, .inr hfalls⟩))
    -- The flag cannot be both.
    have hflag := (hthrown.1.getElem? Nat.one_pos).symm.trans (hfalls.1.getElem? Nat.one_pos)
    exact absurd hflag (by decide)
  · intro hfalls
    refine ⟨fun v h => ?_, fun code message details h => ?_, fun hsuccess herror => ?_⟩
    · rcases decodeEnvelope_eq_ok.mp h with ⟨v', hv, hsuccess⟩ | ⟨_, _, _, hv, -⟩
      · cases hv
        exact hsuccess
      · cases hv
    · rcases decodeEnvelope_eq_ok.mp h with ⟨_, hv, -⟩ | ⟨_, _, _, hv, herror | hfall⟩
      · cases hv
      · cases hv
        exact herror
      · exact absurd hfall (hfalls _ _ _)
    · cases h : decodeEnvelope e runtime envelope with
      | error exception =>
        refine ⟨exception, rfl, ?_⟩
        rintro rfl
        exact decodeEnvelope_ne_outOfFuel h
      | ok result =>
        rcases decodeEnvelope_eq_ok.mp h with ⟨v, -, hv⟩ | ⟨_, _, _, -, herr | hfall⟩
        · exact absurd hv (hsuccess v)
        · exact absurd herr (herror _ _ _)
        · exact absurd hfall (hfalls _ _ _)

/-- The envelope holds null, the empty string, null and null, and is a success envelope by its flag.
-/
theorem decodeEnvelope_trailing_error :
    (∀ runtime, decodeEnvelope .little runtime [0, 0, 7, 0, 0, 0] =
      .ok (.error [] none (.leaf .null))) ∧
    ∀ runtime code message details,
      ¬IsError .little runtime [0, 0, 7, 0, 0, 0] code message details := by
  refine ⟨fun runtime => ?_, fun runtime code message details h => ?_⟩
  · have hread : decodeEnvelope .little runtime [0, 0, 7, 0, 0, 0] =
        .ok (.error (runtime.newString []) none (.leaf .null)) := rfl
    rw [hread, show runtime.newString [] = [] from runtime.newString_utf8 []]
  · exact absurd (h.1.getElem? Nat.one_pos) (by decide)

/-! ## What is encoded is decoded -/

section RoundTrip

open StandardMessageCodec (NoBigInteger IsReadable writeValue writeValue_eq)

/-- Java can read what it writes for the value. -/
structure IsWritable (v : JavaValue) : Prop where
  noBigInteger : v.All NoBigInteger
  isReadable : (StandardMessageCodec.toEncodable v).All IsReadable

/-- The value that a value is read back as: the same, but for the order of maps, the classes of
numbers and the payload of NaNs. -/
def IsReadBackAs (v v' : JavaValue) : Prop :=
  (StandardMessageCodec.toEncodable v).Rel (Corresponds Eq) v'

/-- The bytes of a value that is written at `position`. -/
def encoding (e : Endian) (v : JavaValue) : Emit UInt8 :=
  Format.emit e true (StandardMessageCodec.toEncodable v)

/-- `writeValue` appends the bytes of the value. -/
lemma writeValue_eq_append (hv : IsWritable v) (stream : List UInt8) :
    writeValue e v stream = stream ++ encoding e v stream.length :=
  writeValue_eq hv.noBigInteger stream

/-- What was written is read from where it was written. -/
theorem IsWritable.encodesAt (hv : IsWritable v) (runtime : Runtime)
    (hslice : SliceAt envelope position (encoding e v position)) :
    ∃ v', EncodesAt e runtime envelope position v' (position + (encoding e v position).length) ∧
      IsReadBackAs v v' := by
  have hdepth : (StandardMessageCodec.toEncodable v).depth < envelope.length + 1 := by
    have hlt : (StandardMessageCodec.toEncodable v).depth < (encoding e v position).length :=
      Format.depth_lt_length_emit _ position
    have hle := hslice.length_le
    omega
  exact StandardMessageCodec.readValue_reads hv.isReadable hdepth envelope position hslice

/-- A text can be written. -/
lemma isWritable_text {s : List Char} (hs : (utf8 s).length < 2 ^ 31) :
    IsWritable (.leaf (.string (utf16 s))) := by
  refine ⟨trivial, ?_, s, transcode_utf16 _ s⟩
  change (getBytes (utf16 s)).length < 2 ^ 31
  rwa [getBytes, transcode_utf16]

/-- A text is read back as itself. -/
lemma eq_of_isReadBackAs_text {s : List Char} {v' : JavaValue}
    (h : IsReadBackAs (.leaf (.string (utf16 s))) v') : v' = .leaf (.string (utf16 s)) := by
  obtain ⟨a, rfl, ha⟩ := Value.rel_leaf_left h
  cases a with
  | string u =>
    obtain ⟨t, ht, rfl⟩ := ha
    rw [getBytes, transcode_utf16] at ht
    rw [utf8_injective ht]
  | _ => exact ha.elim

/-- A text or null can be written. -/
lemma isWritable_nullableString {s : Option (List Char)}
    (hs : ∀ t ∈ s, (utf8 t).length < 2 ^ 31) : IsWritable (nullableString (s.map utf16)) := by
  cases s with
  | none => exact ⟨trivial, by decide, trivial⟩
  | some t => exact isWritable_text (hs t rfl)

/-- A text or null is read back as itself. -/
lemma eq_of_isReadBackAs_nullableString {s : Option (List Char)} {v' : JavaValue}
    (h : IsReadBackAs (nullableString (s.map utf16)) v') : v' = nullableString (s.map utf16) := by
  cases s with
  | none =>
    obtain ⟨a, rfl, ha⟩ := Value.rel_leaf_left h
    cases a with
    | null => rfl
    | _ => exact ha.elim
  | some t => exact eq_of_isReadBackAs_text h

/-- The result in a success envelope is returned. -/
theorem decodeEnvelope_encodeSuccessEnvelope (hv : IsWritable v) :
    ∃ v', decodeEnvelope e runtime (encodeSuccessEnvelope e v) = .ok (.success v') ∧
      IsReadBackAs v v' := by
  have hslice := SliceAt.self (encodeSuccessEnvelope e v)
  have heq : encodeSuccessEnvelope e v = [0] ++ encoding e v 1 := writeValue_eq_append hv [0]
  rw [heq, SliceAt.append_iff] at hslice
  obtain ⟨v', hread, hback⟩ := hv.encodesAt runtime hslice.2
  refine ⟨v', ?_, hback⟩
  rw [heq]
  refine decodeEnvelope_eq_ok.mpr (.inl ⟨v', rfl, hslice.1, ?_⟩)
  rwa [List.length_append]

/-- The code, the message and the details in an error envelope are thrown. -/
theorem decodeEnvelope_encodeErrorEnvelope {code : List Char} {message : Option (List Char)}
    (hcode : (utf8 code).length < 2 ^ 31) (hmessage : ∀ s ∈ message, (utf8 s).length < 2 ^ 31)
    (hv : IsWritable v) :
    ∃ v', decodeEnvelope e runtime (encodeErrorEnvelope e (utf16 code) (message.map utf16) v) =
        .ok (.error (utf16 code) (message.map utf16) v') ∧
      IsReadBackAs v v' := by
  have hcode' := isWritable_text hcode
  have hmessage' := isWritable_nullableString hmessage
  obtain ⟨bytes, hbytes⟩ : ∃ bytes,
      encodeErrorEnvelope e (utf16 code) (message.map utf16) v = bytes := ⟨_, rfl⟩
  have hslice := SliceAt.self bytes
  have hlength : bytes.length = _ := congrArg List.length hbytes.symm
  nth_rewrite 2 [← hbytes] at hslice
  rw [encodeErrorEnvelope, writeValue_eq_append hv, writeValue_eq_append hmessage',
    writeValue_eq_append hcode'] at hslice hlength
  simp only [SliceAt.append_iff] at hslice
  obtain ⟨⟨⟨hflag, hslice⟩, hslice'⟩, hslice''⟩ := hslice
  rw [Nat.zero_add] at hslice hslice' hslice''
  obtain ⟨w, hread, hback⟩ := hcode'.encodesAt runtime hslice
  obtain ⟨w', hread', hback'⟩ := hmessage'.encodesAt runtime hslice'
  obtain ⟨v', hread'', hback''⟩ := hv.encodesAt runtime hslice''
  obtain rfl := eq_of_isReadBackAs_text hback
  obtain rfl := eq_of_isReadBackAs_nullableString hback'
  refine ⟨v', ?_, hback''⟩
  rw [hbytes]
  simp only [List.length_append] at hread' hread'' hlength
  rw [← hlength] at hread''
  exact decodeEnvelope_eq_ok.mpr (.inr ⟨_, _, v', rfl, .inl ⟨hflag, _, _, hread, hread', hread''⟩⟩)

/-- A method call is decoded as what was encoded. -/
theorem decodeMethodCall_encodeMethodCall {method : List Char}
    (hmethod : (utf8 method).length < 2 ^ 31) (hv : IsWritable v) :
    ∃ v', decodeMethodCall e runtime (encodeMethodCall e ⟨utf16 method, v⟩) =
        .ok ⟨utf16 method, v'⟩ ∧
      IsReadBackAs v v' := by
  have hmethod' := isWritable_text hmethod
  have heq : encodeMethodCall e ⟨utf16 method, v⟩ =
      encoding e (.leaf (.string (utf16 method))) 0 ++
        encoding e v (encoding e (.leaf (.string (utf16 method))) 0).length := by
    rw [encodeMethodCall, writeValue_eq_append hv, writeValue_eq_append hmethod']
    rfl
  have hslice := SliceAt.self (encodeMethodCall e ⟨utf16 method, v⟩)
  nth_rewrite 2 [heq] at hslice
  rw [SliceAt.append_iff, Nat.zero_add] at hslice
  obtain ⟨w, hread, hback⟩ := hmethod'.encodesAt runtime hslice.1
  obtain ⟨v', hread', hback'⟩ := hv.encodesAt runtime hslice.2
  obtain rfl := eq_of_isReadBackAs_text hback
  rw [Nat.zero_add] at hread
  refine ⟨v', ?_, hback'⟩
  have hend : ¬(encoding e (.leaf (.string (utf16 method))) 0).length +
      (encoding e v (encoding e (.leaf (.string (utf16 method))) 0).length).length <
        (encodeMethodCall e ⟨utf16 method, v⟩).length := by
    rw [heq, List.length_append]
    exact lt_irrefl _
  rw [decodeMethodCall, readMethodCall, bind_parse hread, bind_parse hread',
    bind_parse (remaining_ok.mpr ⟨rfl, rfl⟩), decide_eq_false hend]
  rfl

end RoundTrip

end StandardMethodCodec

end Flutter.Java
