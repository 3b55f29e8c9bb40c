import FlutterEngine.Ui.ChannelBuffers

/-!
# Control messages

A control message is rejected before anything is changed, with one exception: the size of a command
`resize` may be negative. `_RingBuffer.resize` then sets the capacity, drops all messages and throws
when there is nothing left to drop. `safe_iff` says that a control message is safe if and only if it
does not ask for such a size.
-/

namespace Ui.ChannelBuffers

open Lib Int

variable {M : Type} {buffers : ChannelBuffers M} {channel : List Char} {newSize : ℤ}

/-- The call sets a size that is not negative and returns, or it throws and changes nothing. -/
def Safe (dart : DartLibraries) (buffers : ChannelBuffers M) (data : List UInt8) : Prop :=
  (∃ channel newSize, parseCommand dart data = .ok (channel, newSize) ∧ 0 ≤ newSize ∧
    (buffers.handleMessage dart data).result = .ok ()) ∨
  ∃ failure, (buffers.handleMessage dart data).result = .error failure ∧
    (buffers.handleMessage dart data).state = buffers

section

variable (buffers : ChannelBuffers M) (channel : List Char)

/-- The ring buffer of a push drops messages down to a limit that is not negative. -/
theorem push_returns (message : M) :
    ∃ overflow, (buffers.push channel message).result = .ok overflow := by
  rw [push]
  generalize (buffers channel).getD ⟨kDefaultBufferSize, []⟩ = buffer
  rcases Int.lt_or_le 0 buffer.capacity with hpos | hnonpos
  · obtain ⟨_, _, _, hresult⟩ := RingBuffer.push_of_pos hpos message
    exact hresult
  · rw [RingBuffer.push_of_nonpos hnonpos]
    exact ⟨true, rfl⟩

lemma resize_returns (h : 0 ≤ newSize) : (buffers.resize channel newSize).result = .ok () := by
  rw [resize]
  cases buffers channel with
  | none => rfl
  | some buffer =>
    dsimp only
    rw [RingBuffer.resize, RingBuffer.dropOverflowItems_eq, if_neg (not_lt.mpr h)]
    rfl

/-- A negative size is stored for a channel that is not yet in use. For a channel in use, the
messages are dropped and the size is stored before the call throws. -/
theorem resize_of_neg (h : newSize < 0) : (buffers.resize channel newSize).state =
        Function.update buffers channel (some ⟨newSize, []⟩) ∧
      (buffers.resize channel newSize).result =
        if (buffers channel).isSome then .error .stateError else .ok () := by
  rw [resize]
  cases buffers channel with
  | none => exact ⟨rfl, rfl⟩
  | some buffer =>
    dsimp only
    rw [RingBuffer.resize, RingBuffer.dropOverflowItems_eq, if_pos h,
      toNat_of_nonpos (le_of_lt h),
      Nat.sub_zero, List.drop_length]
    exact ⟨rfl, rfl⟩

end

lemma handleMessage_of_parse {dart : DartLibraries} {data : List UInt8}
    (h : parseCommand dart data = .ok (channel, newSize)) :
    buffers.handleMessage dart data = buffers.resize channel newSize := by
  rw [handleMessage, h]

/-- A control message is safe, in any state, unless its size is negative and differs from what is
already there. Whatever sizes have been accepted before, a push returns, and so does setting a size
that is not negative. -/
theorem safe_iff (dart : DartLibraries) (buffers : ChannelBuffers M) (data : List UInt8) :
    (Safe dart buffers data ↔ ∀ channel newSize,
      parseCommand dart data = .ok (channel, newSize) →
        0 ≤ newSize ∨ buffers channel = some ⟨newSize, []⟩) ∧
    (∀ channel message, ∃ overflow, (buffers.push channel message).result = .ok overflow) ∧
    ∀ channel newSize, 0 ≤ newSize → (buffers.resize channel newSize).result = .ok () := by
  refine ⟨⟨fun hsafe channel newSize hparse => ?_, fun hsize => ?_⟩, push_returns buffers,
    fun channel newSize => resize_returns buffers channel⟩
  · rcases hsafe with ⟨channel', newSize', hparse', hnonneg, -⟩ | ⟨failure, hfailure, hstate⟩
    · cases hparse.symm.trans hparse'
      exact .inl hnonneg
    · rcases Int.lt_or_le newSize 0 with hneg | hnonneg
      · rw [handleMessage_of_parse hparse, (resize_of_neg buffers channel hneg).1] at hstate
        rw [← hstate, Function.update_self]
        exact .inr rfl
      · exact .inl hnonneg
  · cases hparse : parseCommand dart data with
    | error failure =>
      refine .inr ⟨failure, ?_⟩
      rw [handleMessage, hparse]
      exact ⟨rfl, rfl⟩
    | ok command =>
      obtain ⟨channel, newSize⟩ := command
      rw [Safe, handleMessage_of_parse hparse]
      rcases Int.lt_or_le newSize 0 with hneg | hnonneg
      · obtain hnonneg | hsome := hsize channel newSize hparse
        · exact absurd hnonneg (not_le.mpr hneg)
        · obtain ⟨hstate, hresult⟩ := resize_of_neg buffers channel hneg
          rw [hsome] at hresult
          refine .inr ⟨.stateError, hresult, ?_⟩
          rw [hstate, ← hsome, Function.update_eq_self]
      · exact .inl ⟨channel, newSize, hparse, hnonneg, resize_returns buffers channel hnonneg⟩

/-- A stored message, and a command that sets the size of its channel to -1. -/
theorem not_safe_neg : ∃ h : History ℕ, ∃ data,
    Run (History.step .decimal) unguarded History.init [.push ['a'] 1] h ∧
    h.buffers ['a'] = some ⟨1, [1]⟩ ∧
    data = utf8 "resize\ra\r-1".toList ∧
    (h.buffers.handleMessage .decimal data).result = .error .stateError ∧
    (h.buffers.handleMessage .decimal data).state ['a'] = some ⟨-1, []⟩ ∧
    ¬Safe .decimal h.buffers data := by
  have hparse : parseCommand .decimal (utf8 "resize\ra\r-1".toList) = .ok (['a'], -1) := by
    have hdecode : DartLibraries.decimal.utf8Decode (utf8 "resize\ra\r-1".toList) =
        some "resize\ra\r-1".toList := utf8Decode?_utf8 "resize\ra\r-1".toList
    rw [parseCommand, hdecode]
    decide
  refine ⟨_, _, .cons trivial rfl .nil, rfl, rfl, ?_, ?_, ?_⟩
  · rw [handleMessage_of_parse hparse]
    rfl
  · rw [handleMessage_of_parse hparse]
    rfl
  · rintro (⟨channel, newSize, hparse', hnonneg, -⟩ | ⟨failure, -, hstate⟩)
    · cases hparse.symm.trans hparse'
      exact absurd hnonneg (by decide)
    · rw [handleMessage_of_parse hparse] at hstate
      exact absurd (congrFun hstate ['a']) (by decide)

end Ui.ChannelBuffers
