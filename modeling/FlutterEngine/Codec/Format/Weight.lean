import FlutterEngine.Codec.Format
import FlutterEngine.Lib.ParserRules
import Mathlib.Algebra.Order.BigOperators.Group.List
import Mathlib.Algebra.Order.Group.Nat

/-!
# The weight of a value

How many bytes that are not zero a value stands for in a message. `nonzeros_emit` says that this is
what its encoding has, wherever it is written, and `weight_congr` that the order of the entries of
maps does not matter.

The size of a map counts only for being zero or not: a map that drops entries can have fewer of them
than were read.
-/

namespace Flutter.Format

open Lib List Emit Value Nat

variable (e : Endian)

/-- The weight of what follows the type byte of a value without nested values. -/
def dataWeight : EncodableLeaf → ℕ
  | .null => 0
  | .bool _ => 0
  | .int v => nonzeros (e.bytes 4 v)
  | .long v => nonzeros (e.bytes 8 v)
  | .double v => nonzeros (e.bytes 8 v)
  | .string v => nonzeros (sizeBytes e v.length) + nonzeros v
  | .byteList v => nonzeros (sizeBytes e v.length) + nonzeros (e.arrayBytes 1 v)
  | .intList v => nonzeros (sizeBytes e v.length) + nonzeros (e.arrayBytes 4 v)
  | .longList v => nonzeros (sizeBytes e v.length) + nonzeros (e.arrayBytes 8 v)
  | .doubleList v => nonzeros (sizeBytes e v.length) + nonzeros (e.arrayBytes 8 v)

/-- How many bytes of its encoding that are not zero a value stands for. -/
def weight : EncodableValue → ℕ :=
  fold (fun l => nonzeros [typeByte l] + dataWeight e l)
    (fun ws => 1 + nonzeros (sizeBytes e ws.length) + ws.sum)
    (fun ws => 1 + min 1 ws.length + (ws.map fun w => w.1 + w.2).sum)

/-- The weight of an entry of a map. -/
def entryWeight (entry : EncodableValue × EncodableValue) : ℕ := weight e entry.1 + weight e entry.2

variable {e}

variable (l : EncodableLeaf)

lemma weight_leaf : weight e (.leaf l) = nonzeros [typeByte l] + dataWeight e l := rfl

/-- The weight of a list. -/
lemma weight_list (l : List EncodableValue) :
    weight e (.list l) = 1 + nonzeros (sizeBytes e l.length) + (l.map (weight e)).sum := by
  rw [weight, fold_list, length_map]

/-- The weight of a map. -/
lemma weight_map (m : List (EncodableValue × EncodableValue)) :
    weight e (.map m) = 1 + min 1 m.length + (m.map (entryWeight e)).sum := by
  rw [weight, fold_map, length_map, map_map]
  rfl

/-! ## The weight of what is written -/

/-- The weight of parts one after the other. -/
lemma nonzeros_concat {δ : Type} {l : List δ} {f : δ → Emit UInt8} {w : δ → ℕ}
    (h : ∀ x ∈ l, ∀ pos, nonzeros (f x pos) = w x) (pos : ℕ) :
    nonzeros (concat (l.map f) pos) = (l.map w).sum := by
  induction l generalizing pos with
  | nil => rfl
  | cons x l ih =>
    obtain ⟨hx, hl⟩ := forall_mem_cons.mp h
    rw [map_cons, Emit.concat, Emit.append_apply, nonzeros_append, hx, ih hl, map_cons, sum_cons]

/-- The weight of members. -/
lemma nonzeros_emitMembers (type : UInt8) (members : List (Emit UInt8)) (pos : ℕ) :
    nonzeros (emitMembers e type members pos) = nonzeros [type] +
      nonzeros (sizeBytes e members.length) +
      nonzeros (concat members (pos + 1 + (sizeBytes e members.length).length)) := by
  rw [emitMembers, append_apply, append_apply, nonzeros_append, nonzeros_append, ← add_assoc]
  rfl

/-- The weight of elements. -/
lemma nonzeros_emitElements {n w : ℕ} (v : List (BitVec w)) (pos : ℕ) :
    nonzeros (emitElements e false n v pos) = nonzeros (e.arrayBytes n v) := by
  cases v with
  | nil => rfl
  | cons x v => simp [emitElements, append_apply, pad]

/-- The weight of a leaf. -/
lemma nonzeros_emitData (pos : ℕ) : nonzeros (emitData e false l pos) = dataWeight e l := by
  cases l <;>
    simp [emitData, dataWeight, append_apply, pad, nonzeros_emitElements]

/-- A small size is one byte. -/
lemma nonzeros_sizeBytes_of_lt {n : ℕ} (h : n < 254) : nonzeros (sizeBytes e n) = min 1 n := by
  rw [sizeBytes, if_pos h, nonzeros_singleton, UInt8.toNat_ofNat', mod_eq_of_lt (by omega)]

/-- Maps are small enough for a size of one byte. -/
abbrev SmallMaps (v : EncodableValue) : Prop :=
  v.All fun v => EncodableValue.type v = .kMap → EncodableValue.size v < 254

lemma smallMaps_leaf : SmallMaps (.leaf l) := by
  intro h
  cases l <;> cases h

/-- A value with small maps has its weight in bytes. -/
lemma nonzeros_emit {v : EncodableValue} (hv : SmallMaps v) (pos : ℕ) :
    nonzeros (emit e false v pos) = weight e v := by
  revert pos
  refine hv.inductOn (fun l _ pos => ?_) (fun l _ ih pos => ?_) fun m hm ih pos => ?_
  · rw [emit_leaf, append_apply, nonzeros_append, nonzeros_emitData, weight_leaf]
    rfl
  · rw [emit_list, nonzeros_emitMembers, weight_list, nonzeros_concat ih, length_map]
    rfl
  · have hsmall : m.length < 254 := (all_map.mp hm).1 rfl
    have hentry : ∀ entry ∈ m, ∀ pos,
        nonzeros (emitEntry e false entry pos) = entryWeight e entry := by
      intro entry hmem pos
      rw [emitEntry, append_apply, nonzeros_append, (ih entry hmem).1, (ih entry hmem).2,
        entryWeight]
    rw [emit_map, nonzeros_emitMembers, weight_map, nonzeros_concat hentry, length_map,
      nonzeros_sizeBytes_of_lt hsmall]
    rfl

/-- Values that differ in the order of the entries of maps have the same weight. -/
theorem weight_congr {v v' : EncodableValue} (h : Value.Rel Eq v v') :
    weight e v = weight e v' := by
  induction v using induct generalizing v' with
  | leaf l =>
    obtain ⟨_, rfl, rfl⟩ := rel_leaf_left h
    rfl
  | list l ih =>
    obtain ⟨l', rfl, hl⟩ := rel_list_left h
    have hweights : l.map (weight e) = l'.map (weight e) := by
      rw [← forall₂_eq_eq_eq, forall₂_map_left_iff, forall₂_map_right_iff]
      exact ((forall₂_and_left l l').mpr ⟨ih, hl⟩).imp fun v v' hv => hv.1 hv.2
    rw [weight_list, weight_list, hweights, hl.length_eq]
  | map m ih =>
    obtain ⟨m', n, rfl, hperm, hm⟩ := rel_map_left h
    have hweights : m.map (entryWeight e) = n.map (entryWeight e) := by
      rw [← forall₂_eq_eq_eq, forall₂_map_left_iff, forall₂_map_right_iff]
      refine ((forall₂_and_left m n).mpr ⟨ih, hm⟩).imp fun entry entry' hentry => ?_
      rw [entryWeight, entryWeight, hentry.1.1 hentry.2.1, hentry.1.2 hentry.2.2]
    rw [weight_map, weight_map, hweights, (hperm.map (entryWeight e)).sum_eq, hm.length_eq,
      hperm.length_eq]

/-- Every result of a reader is paid for with bytes that are not zero. -/
abbrev PaysNonzeros {ε β : Type} (p : Parser UInt8 ε β) (bytes : List UInt8) (w : β → ℕ) : Prop :=
  p.Pays (· != 0) bytes w

/-! ## Sizes -/

/-- The shortest code of a size has no more bytes that are not zero than any other. -/
theorem nonzeros_sizeBytes_le {n k w : ℕ} (hk : k = 2 ∨ k = 4) (hw : w = 8 * k)
    {data : List UInt8} (hdata : data.length = k) (hn : n = (e.word w data).toNat) :
    nonzeros (sizeBytes e n) ≤ 1 + nonzeros data := by
  have hbytes : e.bytes k (e.word w data) = data := e.bytes_word hdata hw
  have hlt : n < 2 ^ w := hn ▸ (e.word w data).isLt
  unfold sizeBytes
  split
  · rw [nonzeros_singleton]
    omega
  · rw [← hbytes]
    split
    · rw [nonzeros_cons, if_neg (by decide), Nat.add_comm]
      refine Nat.add_le_add_left (e.nonzeros_bytes_le (by omega) ?_) 1
      rw [BitVec.toNat_ofNat, Nat.mod_eq_of_lt (by omega), hn]
    · rw [nonzeros_cons, if_neg (by decide), Nat.add_comm]
      refine Nat.add_le_add_left (e.nonzeros_bytes_le ?_ ?_) 1
      · rcases hk with rfl | rfl
        · subst hw
          omega
        · exact le_rfl
      · rw [BitVec.toNat_ofNat, mod_eq_of_lt ?_, hn]
        rcases hk with rfl | rfl <;> subst hw <;> omega

/-- A size other than zero has a byte other than zero. -/
lemma min_one_le_nonzeros_sizeBytes (n : ℕ) : min 1 n ≤ nonzeros (sizeBytes e n) := by
  rcases lt_or_ge n 254 with h | h
  · exact (nonzeros_sizeBytes_of_lt h).ge
  · have hmarker : ∀ (b : UInt8) bs, b ≠ 0 → 1 ≤ nonzeros (b :: bs) := by
      intro b bs hb
      rw [nonzeros_cons, if_neg hb]
      omega
    unfold sizeBytes
    rw [if_neg (by omega)]
    split <;> exact (min_le_left _ _).trans (hmarker _ _ (by decide))

lemma weight_leaf_le : weight e (.leaf l) ≤ 1 + dataWeight e l := by
  rw [weight_leaf, nonzeros_singleton]
  omega

end Flutter.Format
