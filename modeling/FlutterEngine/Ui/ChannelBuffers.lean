import FlutterEngine.Lib.Run
import FlutterEngine.Lib.Utf
import Mathlib.Data.Int.Order.Basic

/-!
# Channel buffers

`ChannelBuffers` stores the messages of a channel in a ring buffer until a handler for the channel
drains it. A call may change the buffers, drop messages and then throw; an `Effect` records all
three.

`step` is a machine whose actions are the calls of `push`, `_resize` and `handleMessage` and the
parts of `drain` between two suspensions, so its runs are the interleavings of calls and drains on
any channels. The callbacks that a call makes are recorded as events and do not call back into the
buffers. `utf8.decode` and `int.parse` are parameters (`DartLibraries`); printing is left out.
-/

namespace Ui

open Lib List Function

/-- Why a call throws. -/
inductive Failure where
  /-- `removeFirst` of an empty queue -/
  | stateError
  /-- `utf8.decode` and `int.parse` -/
  | formatException
  /-- `handleMessage` -/
  | unrecognizedCommand
deriving DecidableEq, Repr

/-- What a call does: the state it leaves, what it emits, and what it returns or throws. -/
structure Effect (σ ι α : Type) where
  state : σ
  emitted : List ι
  result : Except Failure α

variable {M : Type}

/-! ## Ring buffers -/

/-- `_RingBuffer` -/
structure RingBuffer (M : Type) where
  capacity : ℤ
  queue : List M
deriving DecidableEq, Repr

namespace RingBuffer

/-- `_dropOverflowItems` -/
def dropOverflowItems (lengthLimit : ℤ) : List M → Effect (List M) M ℕ
  | [] => ⟨[], [], if lengthLimit < 0 then .error .stateError else .ok 0⟩
  | item :: queue =>
    if lengthLimit < queue.length + 1 then
      let rest := dropOverflowItems lengthLimit queue
      ⟨rest.state, item :: rest.emitted, rest.result.map (· + 1)⟩
    else
      ⟨item :: queue, [], .ok 0⟩

variable (buffer : RingBuffer M)

/-- `push` -/
def push (val : M) : Effect (RingBuffer M) M Bool :=
  if buffer.capacity ≤ 0 then
    ⟨buffer, [], .ok true⟩
  else
    let dropping := dropOverflowItems (buffer.capacity - 1) buffer.queue
    match dropping.result with
    | .error failure => ⟨{ buffer with queue := dropping.state }, dropping.emitted, .error failure⟩
    | .ok overflowCount =>
      ⟨{ buffer with queue := dropping.state ++ [val] }, dropping.emitted, .ok (0 < overflowCount)⟩

/-- `pop` -/
def pop : Option M × RingBuffer M :=
  match buffer.queue with
  | [] => (none, buffer)
  | item :: queue => (some item, { buffer with queue })

/-- `resize` -/
def resize (newSize : ℤ) : Effect (RingBuffer M) M ℕ :=
  let dropping := dropOverflowItems newSize buffer.queue
  ⟨⟨newSize, dropping.state⟩, dropping.emitted, dropping.result⟩

lemma dropOverflowItems_eq (lengthLimit : ℤ) (queue : List M) :
    dropOverflowItems lengthLimit queue =
      ⟨queue.drop (queue.length - lengthLimit.toNat), queue.take (queue.length - lengthLimit.toNat),
        if lengthLimit < 0 then .error .stateError
        else .ok (queue.length - lengthLimit.toNat)⟩ := by
  induction queue with
  | nil =>
    rw [dropOverflowItems]
    simp
  | cons item queue ih =>
    rw [dropOverflowItems, length_cons]
    split
    · next hlt =>
      have hsub : queue.length + 1 - lengthLimit.toNat = queue.length - lengthLimit.toNat + 1 := by
        omega
      rw [ih, hsub, drop_succ_cons, take_succ_cons]
      split <;> rfl
    · next hge =>
      have hsub : queue.length + 1 - lengthLimit.toNat = 0 := by omega
      rw [hsub, if_neg (by omega)]
      rfl

/-- What a push does to a buffer that can store something. -/
theorem push_of_pos {buffer : RingBuffer M} (h : 0 < buffer.capacity) (val : M) :
    (buffer.push val).emitted ++ (buffer.push val).state.queue = buffer.queue ++ [val] ∧
      (buffer.push val).state.capacity = buffer.capacity ∧
      ((buffer.push val).state.queue.length : ℤ) ≤ buffer.capacity ∧
      ∃ overflow, (buffer.push val).result = .ok overflow := by
  rw [push, if_neg (by omega), dropOverflowItems_eq, if_neg (by omega)]
  refine ⟨?_, rfl, ?_, _, rfl⟩
  · rw [← append_assoc, take_append_drop]
  · rw [length_append, length_drop, length_singleton]
    omega

lemma push_of_nonpos {buffer : RingBuffer M} (h : buffer.capacity ≤ 0) (val : M) :
    buffer.push val = ⟨buffer, [], .ok true⟩ := by
  rw [push, if_pos h]

lemma emitted_resize_append (newSize : ℤ) :
    (buffer.resize newSize).emitted ++ (buffer.resize newSize).state.queue = buffer.queue := by
  rw [resize, dropOverflowItems_eq]
  exact take_append_drop _ _

lemma length_resize_le {newSize : ℤ} (h : 0 ≤ newSize) :
    ((buffer.resize newSize).state.queue.length : ℤ) ≤ newSize := by
  rw [resize, dropOverflowItems_eq]
  rw [length_drop]
  omega

end RingBuffer

/-! ## Channels -/

/-- `_messages`, by the names of the channels. -/
abbrev ChannelBuffers (M : Type) := List Char → Option (RingBuffer M)

/-- How a message leaves a buffer. -/
inductive Fate where
  /-- A drain calls its callback with the message. -/
  | handed
  /-- The message's own callback is called with `null`. -/
  | dropped
deriving DecidableEq, Repr

structure Event (M : Type) where
  channel : List Char
  message : M
  fate : Fate
deriving DecidableEq, Repr

/-- The functions of the Dart libraries that `handleMessage` uses. They return `none` for a
`FormatException`. -/
structure DartLibraries where
  utf8Decode : List UInt8 → Option (List Char)
  intParse : List Char → Option ℤ

/-- The value of decimal digits. -/
def parseDigits (digits : List Char) : Option ℕ :=
  if digits ≠ [] ∧ digits.all Char.isDigit then
    some (digits.foldl (fun n digit => 10 * n + (digit.toNat - '0'.toNat)) 0)
  else
    none

/-- UTF-8, and decimal numbers with an optional minus sign. -/
def DartLibraries.decimal : DartLibraries where
  utf8Decode := utf8Decode?
  intParse
    | '-' :: digits => (parseDigits digits).map fun n : ℕ => -(n : ℤ)
    | digits => (parseDigits digits).map fun n : ℕ => (n : ℤ)

namespace ChannelBuffers

variable (buffers : ChannelBuffers M) (channel : List Char)

def kDefaultBufferSize : ℤ := 1

/-- `push` -/
def push (message : M) : Effect (ChannelBuffers M) (Event M) Bool :=
  let queue := (buffers channel).getD ⟨kDefaultBufferSize, []⟩
  let effect := queue.push message
  ⟨update buffers channel (some effect.state), effect.emitted.map (⟨channel, ·, .dropped⟩),
    effect.result⟩

/-- `_resize` -/
def resize (newSize : ℤ) : Effect (ChannelBuffers M) (Event M) Unit :=
  match buffers channel with
  | none => ⟨update buffers channel (some ⟨newSize, []⟩), [], .ok ()⟩
  | some queue =>
    let effect := queue.resize newSize
    ⟨update buffers channel (some effect.state),
      effect.emitted.map (⟨channel, ·, .dropped⟩), effect.result.map fun _ => ()⟩

/-- A round of the loop of `drain`, up to the next suspension. It returns whether there was a
message. -/
def drainStep : Effect (ChannelBuffers M) (Event M) Bool :=
  match buffers channel with
  | none => ⟨buffers, [], .ok false⟩
  | some queue =>
    match queue.pop with
    | (none, _) => ⟨buffers, [], .ok false⟩
    | (some message, queue) =>
      ⟨update buffers channel (some queue), [⟨channel, message, .handed⟩], .ok true⟩

variable (dart : DartLibraries) (data : List UInt8)

/-- The channel and the size of a command `resize`. -/
def parseCommand : Except Failure (List Char × ℤ) :=
  match dart.utf8Decode data with
  | none => .error .formatException
  | some text =>
    match text.splitOn '\r' with
    | [command, channel, size] =>
      if command = "resize".toList then
        match dart.intParse size with
        | none => .error .formatException
        | some newSize => .ok (channel, newSize)
      else
        .error .unrecognizedCommand
    | _ => .error .unrecognizedCommand

/-- `handleMessage` -/
def handleMessage : Effect (ChannelBuffers M) (Event M) Unit :=
  match parseCommand dart data with
  | .error failure => ⟨buffers, [], .error failure⟩
  | .ok (channel, newSize) => buffers.resize channel newSize

end ChannelBuffers

/-! ## Interleavings -/

/-- A call, or a part of a call of `drain`. -/
inductive Action (M : Type) where
  | push (channel : List Char) (message : M)
  | resize (channel : List Char) (newSize : ℤ)
  | drainStep (channel : List Char)
  | handleMessage (data : List UInt8)

/-- The buffers, with what has been pushed and what has left them so far. -/
structure History (M : Type) where
  buffers : ChannelBuffers M
  pushed : List (List Char × M)
  events : List (Event M)

namespace History

/-- No channel has been used. -/
def init : History M := ⟨fun _ => none, [], []⟩

/-- A call returns or throws; in both cases, what it has done stays done. -/
def after {α : Type} (h : History M) (effect : Effect (ChannelBuffers M) (Event M) α) : History M :=
  { h with buffers := effect.state, events := h.events ++ effect.emitted }

def step (dart : DartLibraries) (h : History M) : Action M → Option (History M)
  | .push channel message =>
    some { h.after (h.buffers.push channel message) with
      pushed := h.pushed ++ [(channel, message)] }
  | .resize channel newSize => some (h.after (h.buffers.resize channel newSize))
  | .drainStep channel => some (h.after (h.buffers.drainStep channel))
  | .handleMessage data => some (h.after (h.buffers.handleMessage dart data))

/-- No size is negative. -/
def NonNegative (dart : DartLibraries) (_ : History M) : Action M → Prop
  | .resize _ newSize => 0 ≤ newSize
  | .handleMessage data =>
    ∀ channel newSize, ChannelBuffers.parseCommand dart data = .ok (channel, newSize) → 0 ≤ newSize
  | _ => True

end History

end Ui
