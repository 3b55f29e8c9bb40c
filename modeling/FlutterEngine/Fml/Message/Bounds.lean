import FlutterEngine.Fml.Message.RoundTrip
import FlutterEngine.Lib.Run

/-!
# Reading beyond the data

`PrepareDecode` compares the bytes to be read with the length of the buffer, not with that of the
data. Since the buffer grows in powers of two, there are bytes between the end of the data and the
end of the buffer that were never encoded. `exact_iff` says that a run of a message decodes nothing
but its data if and only if no `Decode` ends among these bytes.
-/

namespace Fml.Message

open Lib

variable {alloc : Allocator} {m m' : Message} {size : ℕ}

/-- The calls that use a message. -/
inductive Call where
  | encode (bytes : List UInt8) (nonempty : bytes ≠ [])
  | decode (size : ℕ) (pos : 0 < size)
  | resetRead

/-- The message after a call. -/
def step (alloc : Allocator) (m : Message) : Call → Option Message
  | .encode bytes _ => (m.encode alloc bytes).toOption.map Prod.snd
  | .decode size _ => some (m.decode size).2
  | .resetRead => some m.resetRead

/-- A `Decode` succeeds if and only if there are enough bytes left of the data. -/
def Exact (m : Message) : Call → Prop
  | .decode size _ => (m.decode size).1.isSome ↔ m.sizeRead + size ≤ m.dataLength
  | _ => True

/-- A `Decode` ends within the data, or beyond the end of the buffer. -/
def AvoidsSlack (m : Message) : Call → Prop
  | .decode size _ => m.sizeRead + size ≤ m.dataLength ∨ m.bufferLength < m.sizeRead + size
  | _ => True

lemma isSome_decode : (m.decode size).1.isSome ↔ m.sizeRead + size ≤ m.bufferLength := by
  by_cases h : m.bufferLength < size + m.sizeRead
  · rw [decode, dif_pos h]
    simp only [Option.isSome_none, Bool.false_eq_true, false_iff]
    omega
  · rw [decode, dif_neg h]
    simp only [Option.isSome_some, true_iff]
    omega

lemma exact_iff_avoidsSlack (m : Message) (call : Call) : m.Exact call ↔ m.AvoidsSlack call := by
  cases call with
  | encode | resetRead => exact Iff.rfl
  | decode size pos =>
    have hdata : m.dataLength ≤ m.bufferLength := m.dataLength_le
    simp only [Exact, AvoidsSlack, isSome_decode]
    omega

/-- What has been read stays within the data, as long as no call reads from the slack. -/
theorem sizeRead_le_step {call : Call} (hread : m.sizeRead ≤ m.dataLength)
    (hcall : m.AvoidsSlack call) (hstep : step alloc m call = some m') :
    m'.sizeRead ≤ m'.dataLength := by
  cases call with
  | encode bytes nonempty =>
    obtain ⟨⟨success, m₁⟩, hencode, rfl⟩ := Option.map_eq_some_iff.mp hstep
    cases hresult : m.encode alloc bytes with
    | error => rw [hresult] at hencode; cases hencode
    | ok result =>
      rw [hresult] at hencode
      cases hencode
      have hextends := extends_encode hresult
      rw [hextends.sizeRead_eq, ← length_data, hextends.data_eq, List.length_append, length_data]
      exact hread.trans (Nat.le_add_right _ _)
  | resetRead =>
    cases hstep
    exact Nat.zero_le _
  | decode size pos =>
    cases hstep
    rw [decode]
    split
    · exact hread
    · next hroom =>
      rcases hcall with hdata | hbuffer
      · exact hdata
      -- a `Decode` beyond the end of the buffer fails and reads nothing
      · omega

lemma sizeRead_le_of_run {calls : List Call} (h : Run (step alloc) AvoidsSlack init calls m) :
    m.sizeRead ≤ m.dataLength := by
  induction h with
  | nil => exact Nat.le_refl 0
  | snoc _ hcall hstep ih => exact sizeRead_le_step ih hcall hstep

/-- Every `Decode` of a run succeeds if and only if there are enough bytes left of the data, and no
more bytes are read than there are, exactly if no `Decode` of the run ends in the slack. -/
theorem exact_iff {calls : List Call} (hrun : Run (step alloc) unguarded init calls m) :
    ((∀ before call after m', calls = before ++ call :: after →
        Run (step alloc) unguarded init before m' →
        m'.sizeRead ≤ m'.dataLength ∧ m'.Exact call) ∧ m.sizeRead ≤ m.dataLength) ↔
      Run (step alloc) AvoidsSlack init calls m := by
  constructor
  · rintro ⟨hexact, -⟩
    -- otherwise there is a first call that ends in the slack, and before it the run avoids it
    rcases hrun.guarded_or with hguarded | ⟨before, call, after, t, u, rfl, hbefore, hcall, -, -⟩
    · exact hguarded
    · have hcall' := (hexact before call after t rfl (hbefore.mono fun _ _ _ => trivial)).2
      exact absurd ((exact_iff_avoidsSlack t call).mp hcall') hcall
  · intro hguarded
    refine ⟨?_, sizeRead_le_of_run hguarded⟩
    rintro before call after m' rfl hbefore
    obtain ⟨t, -, hbefore', hcall, -⟩ := hguarded.of_append_cons
    obtain rfl := hbefore.unique hbefore'
    exact ⟨sizeRead_le_of_run hbefore', (exact_iff_avoidsSlack m' call).mpr hcall⟩

/-- Four bytes are decoded, and then none. -/
theorem exact_four_bytes :
    ∃ m : Message, Run (step .cleared) AvoidsSlack init
        [.encode [1, 2, 3, 4] (by decide), .decode 4 (by decide), .decode 1 (by decide)] m ∧
      m.sizeRead = 4 ∧ m.sizeRead ≤ m.dataLength := by
  have hrun : Run (step .cleared) AvoidsSlack init
      [.encode [1, 2, 3, 4] (by decide), .decode 4 (by decide), .decode 1 (by decide)] _ :=
    .cons trivial rfl (.cons (.inl (by decide)) rfl (.cons (.inr (by decide)) rfl .nil))
  have hexact := (exact_iff (hrun.mono fun _ _ _ => trivial)).mpr hrun
  exact ⟨_, hrun, rfl, hexact.2⟩

/-- Of three bytes that were encoded, four are decoded. -/
theorem not_exact_three_bytes :
    ∃ m m' : Message, Run (step .cleared) unguarded init [.encode [1, 2, 3] (by decide)] m ∧
      m.decode 4 = (some [1, 2, 3, 0], m') ∧ ¬m.sizeRead + 4 ≤ m.dataLength ∧
      ¬m'.sizeRead ≤ m'.dataLength :=
  ⟨_, _, .cons trivial rfl .nil, rfl, by decide, by decide⟩

end Fml.Message
