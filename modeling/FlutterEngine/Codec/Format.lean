import FlutterEngine.Codec.EncodableValue
import FlutterEngine.Lib.Bytes
import FlutterEngine.Lib.Stream
import FlutterEngine.Lib.Utf

/-!
# The standard message format

The layout of a value in a standard message, as the comment on `StandardMessageCodec` in
`message_codecs.dart` describes it: a type byte, then for strings and collections a size of one,
three or five bytes, then the data. Doubles and the elements of typed lists are aligned relative to
the start of the message, so what is written depends on the position (`Lib.Emit`).

The serializers differ in one point, which the parameter `padEmpty` of `emit` tells: whether the
padding in front of the elements of a typed list is written when there are none. `follow` finds out
where that matters, and `emit_eq_of_follow` says that it does not matter anywhere else.
-/

namespace Flutter.Format

open Lib Emit Value List

/-- A string, if the leaf is one, that is a text. -/
def IsText : EncodableLeaf → Prop
  | .string v => ∃ s, v = utf8 s
  | _ => True

variable (e : Endian) (padEmpty : Bool)

/-! ## Layout -/

/-- A size in one byte, in a marker and two bytes, or in a marker and four bytes. -/
def sizeBytes (n : ℕ) : List UInt8 :=
  if n < 254 then [UInt8.ofNat n]
  else if n ≤ 0xffff then 254 :: e.bytes 2 (BitVec.ofNat 16 n)
  else 255 :: e.bytes 4 (BitVec.ofNat 32 n)

/-- A size has at least one byte. -/
lemma length_sizeBytes_pos (n : ℕ) : 0 < (sizeBytes e n).length := by
  unfold sizeBytes
  split
  · exact Nat.one_pos
  · split <;> exact Nat.succ_pos _

/-- The elements of a typed list, `n` bytes each. -/
def emitElements (n : ℕ) {w : ℕ} (l : List (BitVec w)) : Emit UInt8 :=
  if l = [] ∧ padEmpty = false then nil
  else pad 0 n ++ lit (e.arrayBytes n l)

lemma emitElements_true (n : ℕ) {w : ℕ} (l : List (BitVec w)) :
    emitElements e true n l = pad 0 n ++ lit (e.arrayBytes n l) := by
  simp [emitElements]

/-- The type byte of a value that is neither a list nor a map. -/
def typeByte : EncodableLeaf → UInt8
  | .null => 0
  | .bool b => if b then 1 else 2
  | .int _ => 3
  | .long _ => 4
  | .double _ => 6
  | .string _ => 7
  | .byteList _ => 8
  | .intList _ => 9
  | .longList _ => 10
  | .doubleList _ => 11

/-- What follows the type byte of a value that is neither a list nor a map. -/
def emitData : EncodableLeaf → Emit UInt8
  | .null => nil
  | .bool _ => nil
  | .int v => lit (e.bytes 4 v)
  | .long v => lit (e.bytes 8 v)
  | .double v => pad 0 8 ++ lit (e.bytes 8 v)
  | .string v => lit (sizeBytes e v.length) ++ lit v
  | .byteList v => lit (sizeBytes e v.length) ++ emitElements e padEmpty 1 v
  | .intList v => lit (sizeBytes e v.length) ++ emitElements e padEmpty 4 v
  | .longList v => lit (sizeBytes e v.length) ++ emitElements e padEmpty 8 v
  | .doubleList v => lit (sizeBytes e v.length) ++ emitElements e padEmpty 8 v

/-- The type byte and the size of a list or map, and then its members. -/
def emitMembers (type : UInt8) (members : List (Emit UInt8)) : Emit UInt8 :=
  Emit.lit [type] ++ (Emit.lit (sizeBytes e members.length) ++ Emit.concat members)

/-- A value. -/
def emit : EncodableValue → Emit UInt8 :=
  fold (fun l => lit [typeByte l] ++ emitData e padEmpty l) (emitMembers e 12)
    (fun m => emitMembers e 13 (m.map fun entry => entry.1 ++ entry.2))

/-- An entry of a map: the key, then the value. -/
def emitEntry (entry : EncodableValue × EncodableValue) : Emit UInt8 :=
  emit e padEmpty entry.1 ++ emit e padEmpty entry.2

lemma emit_leaf (l : EncodableLeaf) :
    emit e padEmpty (.leaf l) = lit [typeByte l] ++ emitData e padEmpty l := rfl

/-- The bytes of a list. -/
lemma emit_list (l : List EncodableValue) :
    emit e padEmpty (.list l) = emitMembers e 12 (l.map (emit e padEmpty)) := by
  rw [emit, fold_list]

/-- The bytes of a map. -/
lemma emit_map (m : List (EncodableValue × EncodableValue)) :
    emit e padEmpty (.map m) = emitMembers e 13 (m.map (emitEntry e padEmpty)) := by
  rw [emit, fold_map, map_map]
  rfl

variable {e padEmpty}

/-- How many bytes members take. -/
lemma length_emitMembers (type : UInt8) (members : List (Emit UInt8)) (pos : ℕ) :
    (emitMembers e type members pos).length = 1 + (sizeBytes e members.length).length +
      (Emit.concat members (pos + 1 + (sizeBytes e members.length).length)).length := by
  rw [emitMembers, Emit.length_append, Emit.length_append, ← Nat.add_assoc]
  rfl

/-- Where a list ends. -/
lemma add_length_emit_list (l : List EncodableValue) (pos : ℕ) :
    pos + (emit e padEmpty (.list l) pos).length = pos + 1 + (sizeBytes e l.length).length +
      (Emit.concat (l.map (emit e padEmpty)) (pos + 1 + (sizeBytes e l.length).length)).length := by
  rw [emit_list, length_emitMembers, length_map]
  omega

/-- Where a map ends. -/
lemma add_length_emit_map (m : List (EncodableValue × EncodableValue)) (pos : ℕ) :
    pos + (emit e padEmpty (.map m) pos).length = pos + 1 + (sizeBytes e m.length).length +
      (Emit.concat (m.map (emitEntry e padEmpty))
        (pos + 1 + (sizeBytes e m.length).length)).length := by
  rw [emit_map, length_emitMembers, length_map]
  omega

/-- Every level of nesting takes at least a byte. -/
theorem depth_lt_length_emit (v : EncodableValue) (pos : ℕ) :
    v.depth < (emit e padEmpty v pos).length := by
  induction v using induct generalizing pos with
  | leaf l =>
    rw [emit_leaf, Emit.length_append]
    exact Nat.lt_add_right _ Nat.one_pos
  | list l ih =>
    rw [emit_list, length_emitMembers]
    generalize pos + _ + _ = pos'
    have hdepth : ∀ v ∈ l, v.depth ≤ (concat (l.map (emit e padEmpty)) pos').length := by
      intro v hv
      obtain ⟨p, hp⟩ := length_le_concat (mem_map_of_mem hv) pos'
      exact (ih v hv p).le.trans hp
    have := depth_list_le hdepth
    have := length_sizeBytes_pos e (l.map (emit e padEmpty)).length
    omega
  | map m ih =>
    rw [emit_map, length_emitMembers]
    generalize pos + _ + _ = pos'
    have hdepth : ∀ entry ∈ m,
        entry.1.depth ≤ (concat (m.map (emitEntry e padEmpty)) pos').length ∧
        entry.2.depth ≤ (concat (m.map (emitEntry e padEmpty)) pos').length := by
      intro entry hentry
      have hmem : emitEntry e padEmpty entry ∈ m.map (emitEntry e padEmpty) := mem_map_of_mem hentry
      obtain ⟨p, hp⟩ := length_le_concat hmem pos'
      rw [emitEntry, Emit.length_append] at hp
      obtain ⟨hk, hv⟩ := ih entry hentry
      have := hk p
      have := hv (p + (emit e padEmpty entry.1 p).length)
      omega
    have := depth_map_le hdepth
    have := length_sizeBytes_pos e (m.map (emitEntry e padEmpty)).length
    omega

/-! ## Writing -/

section Writing

variable {L : Type} {write : Value L → List UInt8 → List UInt8}
  {items : List (Value L) → List UInt8 → List UInt8}
  {entries : List (Value L × Value L) → List UInt8 → List UInt8}

/-- A function that writes lists and maps as a type byte, their size and then their members. -/
structure Writer (e : Endian) (write : Value L → List UInt8 → List UInt8)
    (items : List (Value L) → List UInt8 → List UInt8)
    (entries : List (Value L × Value L) → List UInt8 → List UInt8) : Prop where
  list : ∀ l stream, write (.list l) stream =
    items l (run (lit [12] ++ lit (sizeBytes e l.length)) stream)
  map : ∀ m stream, write (.map m) stream =
    entries m (run (lit [13] ++ lit (sizeBytes e m.length)) stream)
  items_nil : ∀ stream, items [] stream = stream
  items_cons : ∀ v l stream, items (v :: l) stream = items l (write v stream)
  entries_nil : ∀ stream, entries [] stream = stream
  entries_cons : ∀ entry m stream,
    entries (entry :: m) stream = entries m (write entry.2 (write entry.1 stream))

/-- A loop that puts one member behind another, after the type byte and the size. -/
theorem run_emitMembers {δ : Type} {loop : List δ → List UInt8 → List UInt8}
    {put : δ → List UInt8 → List UInt8} {f : δ → Emit UInt8} {l : List δ} (type : UInt8)
    (hnil : ∀ stream, loop [] stream = stream)
    (hcons : ∀ x l stream, loop (x :: l) stream = loop l (put x stream))
    (h : ∀ x ∈ l, ∀ stream, put x stream = run (f x) stream) (stream : List UInt8) :
    loop l (run (lit [type] ++ lit (sizeBytes e l.length)) stream) =
      run (emitMembers e type (l.map f)) stream := by
  rw [emitMembers, length_map, run_append, run_append, run_append]
  generalize run _ (run _ stream) = stream
  induction l generalizing stream with
  | nil => exact (hnil stream).trans (run_nil stream).symm
  | cons x l ih =>
    obtain ⟨hx, hl⟩ := forall_mem_cons.mp h
    rw [hcons, hx, ih hl, map_cons, Emit.concat, run_append]

/-- It writes values if it writes their leaves, where `f` says what the values stand for. -/
theorem Writer.write_eq (hw : Writer e write items entries) {f : Value L → EncodableValue}
    (hlist : ∀ l, f (.list l) = .list (l.map f))
    (hmap : ∀ m, f (.map m) = .map (m.map (Prod.map f f))) {P : Value L → Prop}
    (leaf : ∀ l, P (.leaf l) → ∀ stream,
      write (.leaf l) stream = run (emit e padEmpty (f (.leaf l))) stream)
    {v : Value L} (hv : v.All P) (stream : List UInt8) :
    write v stream = run (emit e padEmpty (f v)) stream := by
  revert stream
  refine hv.inductOn leaf (fun l _ ih stream => ?_) fun m _ ih stream => ?_
  · rw [hw.list, hlist, emit_list, map_map]
    exact run_emitMembers 12 hw.items_nil hw.items_cons ih stream
  · rw [hw.map, hmap, emit_map, map_map]
    refine run_emitMembers 13 hw.entries_nil hw.entries_cons (fun entry hmem stream => ?_) stream
    rw [(ih entry hmem).1, (ih entry hmem).2, ← run_append]
    rfl

end Writing

/-! ## Reading -/

section Reading

/-- A size is read by a byte and what depends on it. -/
theorem reads_sizeBytes {ε γ : Type} {readByte : Parser UInt8 ε UInt8}
    {f : UInt8 → Parser UInt8 ε γ} {Q : γ → Prop} {n : ℕ}
    (hbyte : ∀ b, Parser.Reads readByte (lit [b]) (· = b))
    (hsmall : ∀ b : UInt8, b.toNat = n → n < 254 → Parser.Reads (f b) nil Q)
    (hchar : n ≤ 0xffff → Parser.Reads (f 254) (lit (e.bytes 2 (BitVec.ofNat 16 n))) Q)
    (hint : Parser.Reads (f 255) (lit (e.bytes 4 (BitVec.ofNat 32 n))) Q) :
    Parser.Reads (readByte >>= f) (lit (sizeBytes e n)) Q := by
  unfold sizeBytes
  split
  · rw [← append_nil (lit _)]
    refine (hbyte _).bind_eq (hsmall _ ?_ ‹_›)
    rw [UInt8.toNat_ofNat', Nat.mod_eq_of_lt (by omega)]
  · split
    · exact lit_cons _ _ ▸ (hbyte _).bind_eq (hchar ‹_›)
    · exact lit_cons _ _ ▸ (hbyte _).bind_eq hint

variable {ε L : Type} {read : ℕ → Parser UInt8 ε (Value L)} {P : EncodableValue → Prop}
  {Q : EncodableValue → Value L → Prop}

/-- A function with fuel reads values if it reads their nodes given that it reads what is nested in
them. -/
theorem reads_of_nodes (leaf : ∀ fuel l, P (.leaf l) →
      Parser.Reads (read (fuel + 1)) (emit e padEmpty (.leaf l)) (Q (.leaf l)))
    (list : ∀ fuel l, P (.list l) →
      (∀ v ∈ l, Parser.Reads (read fuel) (emit e padEmpty v) (Q v)) →
      Parser.Reads (read (fuel + 1)) (emit e padEmpty (.list l)) (Q (.list l)))
    (map : ∀ fuel m, P (.map m) →
      (∀ entry ∈ m, Parser.Reads (do return (← read fuel, ← read fuel))
        (emitEntry e padEmpty entry) fun entry' => Q entry.1 entry'.1 ∧ Q entry.2 entry'.2) →
      Parser.Reads (read (fuel + 1)) (emit e padEmpty (.map m)) (Q (.map m)))
    {v : EncodableValue} (hv : v.All P) {fuel : ℕ} (hfuel : v.depth < fuel) :
    Parser.Reads (read fuel) (emit e padEmpty v) (Q v) := by
  induction fuel generalizing v with
  | zero => omega
  | succ fuel ih =>
    cases v with
    | leaf l => exact leaf fuel l hv
    | list l =>
      obtain ⟨hnode, hmembers⟩ := all_list.mp hv
      refine list fuel l hnode fun v hmem => ih (hmembers v hmem) ?_
      have := depth_lt_list hmem
      omega
    | map m =>
      obtain ⟨hnode, hmembers⟩ := all_map.mp hv
      refine map fuel m hnode fun entry hmem => ?_
      have := depth_lt_map hmem
      have hkey := ih (hmembers entry hmem).1 (by omega)
      have hvalue := ih (hmembers entry hmem).2 (by omega)
      exact hkey.bind fun k hk => hvalue.bind_pure fun v hv => ⟨hk, hv⟩

/-- A message has enough bytes to be read with its length as fuel. -/
theorem parse_emit (read : ℕ → Parser UInt8 ε (Value L)) {v : EncodableValue}
    (h : ∀ {fuel}, v.depth < fuel → Parser.Reads (read fuel) (emit e padEmpty v) (Q v)) :
    ∃ v', (read ((emit e padEmpty v 0).length + 1)).parse (emit e padEmpty v 0) 0 =
      .ok (v', (emit e padEmpty v 0).length) ∧ Q v v' :=
  (h (Nat.lt_succ_of_lt (depth_lt_length_emit v 0))).parse_self

end Reading

/-! ## Where the padding of an empty list matters -/

/-- The alignment that an empty typed list asks for; `1` for every other value. -/
def emptyAlignment : EncodableLeaf → ℕ
  | .intList [] => 4
  | .longList [] => 8
  | .doubleList [] => 8
  | _ => 1

/-- Where a reader that expects padding in front of no elements is, relative to a writer that does
not write it: at the same position, or further on. -/
inductive Phase
  | aligned
  | ahead
deriving DecidableEq, Repr

/-- The phase after a leaf written at `pos`. A reader that is ahead has skipped part of what
follows, which is lost unless it is null. -/
def followLeaf (l : EncodableLeaf) (pos : ℕ) : Phase → Option Phase
  | .aligned => some (if padding (emptyAlignment l) (pos + 2) = 0 then .aligned else .ahead)
  | .ahead => if l = .null then some .ahead else none

variable (e)

mutual

/-- The phase after a value written at `pos`, or `none` if part of the value is lost. -/
def follow : EncodableValue → ℕ → Phase → Option Phase
  | .leaf l, pos, phase => followLeaf l pos phase
  | .list l, pos, .aligned => followList l (pos + 1 + (sizeBytes e l.length).length) .aligned
  | .map m, pos, .aligned => followEntries m (pos + 1 + (sizeBytes e m.length).length) .aligned
  | .list _, _, .ahead => none
  | .map _, _, .ahead => none

/-- The phase after the members of a list. -/
def followList : List EncodableValue → ℕ → Phase → Option Phase
  | [], _, phase => some phase
  | v :: l, pos, phase =>
    (follow v pos phase).bind fun phase => followList l (pos + (emit e false v pos).length) phase

/-- The phase after the entries of a map. -/
def followEntries : List (EncodableValue × EncodableValue) → ℕ → Phase → Option Phase
  | [], _, phase => some phase
  | (k, v) :: m, pos, phase =>
    (follow k pos phase).bind fun phase =>
      (follow v (pos + (emit e false k pos).length) phase).bind fun phase =>
        followEntries m (pos + (emitEntry e false (k, v) pos).length) phase

end

variable {e}
variable {v : EncodableValue} {pos : ℕ} {phase : Phase}

/-- A reader never gets back into step: only null passes it by. -/
theorem follow_ahead (h : follow e v pos .ahead = some phase) :
    v = .leaf .null ∧ phase = .ahead := by
  cases v with
  | list | map => cases h
  | leaf l =>
    rw [follow, followLeaf] at h
    split at h
    · next hl =>
      rw [hl]
      exact ⟨rfl, (Option.some.inj h).symm⟩
    · cases h

variable {l : List EncodableValue} {m : List (EncodableValue × EncodableValue)}

/-- A reader that is ahead stays ahead. -/
lemma followList_ahead (h : followList e l pos .ahead = some phase) : phase = .ahead := by
  induction l generalizing pos with
  | nil => exact (Option.some.inj h).symm
  | cons v l ih =>
    rw [followList, Option.bind_eq_some_iff] at h
    obtain ⟨phase', hv, hl⟩ := h
    rw [(follow_ahead hv).2] at hl
    exact ih hl

/-- A reader stays aligned as long as it is. -/
lemma followList_cons_aligned : followList e (v :: l) pos .aligned = some .aligned ↔
      follow e v pos .aligned = some .aligned ∧
        followList e l (pos + (emit e false v pos).length) .aligned = some .aligned := by
  rw [followList, Option.bind_eq_some_iff]
  constructor
  · rintro ⟨phase, hv, hl⟩
    cases phase with
    | aligned => exact ⟨hv, hl⟩
    | ahead => cases followList_ahead hl
  · rintro ⟨hv, hl⟩
    exact ⟨.aligned, hv, hl⟩

/-- The keys and values of a map, in the order in which they are written. -/
def members (m : List (EncodableValue × EncodableValue)) : List EncodableValue :=
  m.flatMap fun entry => [entry.1, entry.2]

lemma mem_members : v ∈ members m ↔ ∃ entry ∈ m, v = entry.1 ∨ v = entry.2 := by simp [members]

/-- Entries are written as keys and values in turn. -/
lemma concat_emitEntry (padEmpty : Bool) : Emit.concat (m.map (emitEntry e padEmpty)) =
      Emit.concat ((members m).map (emit e padEmpty)) := by
  induction m with
  | nil => rfl
  | cons entry m ih =>
    rw [map_cons, Emit.concat, ih, emitEntry, append_append]
    rfl

/-- Entries are followed as keys and values in turn. -/
lemma followEntries_eq : followEntries e m pos phase = followList e (members m) pos phase := by
  induction m generalizing pos phase with
  | nil => rfl
  | cons entry m ih =>
    simp only [followEntries, emitEntry, Emit.length_append, ← Nat.add_assoc, ih]
    rfl

/-! ## The two layouts agree where it does not matter -/

/-- Padding matters for empty arrays only. -/
lemma emitElements_eq {n w : ℕ} {l : List (BitVec w)} (h : l = [] → padding n pos = 0) :
    emitElements e false n l pos = emitElements e true n l pos := by
  cases l with
  | nil => simp [emitElements, append_apply, pad, h rfl, Endian.arrayBytes]
  | cons v l => simp [emitElements]

/-- Padding matters where it is not zero. -/
lemma emitData_eq {l : EncodableLeaf} (h : padding (emptyAlignment l) (pos + 1) = 0) :
    emitData e false l pos = emitData e true l pos := by
  cases l with
  | byteList v =>
    refine append_congr _ rfl (emitElements_eq fun _ => ?_)
    exact if_pos (Nat.mod_one _)
  | intList v | longList v | doubleList v =>
    refine append_congr _ rfl (emitElements_eq ?_)
    rintro rfl
    exact h
  | _ => rfl

/-- Members that are written alike. -/
lemma emitMembers_congr {type : UInt8} {as bs : List (Emit UInt8)} (hlength : as.length = bs.length)
    (h : Emit.concat as (pos + 1 + (sizeBytes e as.length).length) =
      Emit.concat bs (pos + 1 + (sizeBytes e as.length).length)) :
    emitMembers e type as pos = emitMembers e type bs pos := by
  rw [emitMembers, emitMembers, ← hlength]
  exact append_congr _ rfl (append_congr _ rfl h)

/-- The members follow one another, each at the position where the one before ended. -/
theorem concat_eq_of_followList (ih : ∀ v ∈ l, ∀ {pos}, follow e v pos .aligned = some .aligned →
      emit e false v pos = emit e true v pos)
    (h : followList e l pos .aligned = some .aligned) :
    Emit.concat (l.map (emit e false)) pos = Emit.concat (l.map (emit e true)) pos := by
  induction l generalizing pos with
  | nil => rfl
  | cons v l ihl =>
    obtain ⟨hv, hl⟩ := followList_cons_aligned.mp h
    obtain ⟨ihv, ih⟩ := forall_mem_cons.mp ih
    refine append_congr _ (ihv hv) ?_
    rw [← ihv hv]
    exact ihl ih hl

/-- Where every empty typed list stands at an aligned position, it makes no difference whether the
padding in front of no elements is written. -/
theorem emit_eq_of_follow (h : follow e v pos .aligned = some .aligned) :
    emit e false v pos = emit e true v pos := by
  induction v using induct generalizing pos with
  | leaf l =>
    refine append_congr _ rfl (emitData_eq ?_)
    by_contra hpad
    rw [follow, followLeaf, if_neg (show ¬padding (emptyAlignment l) (pos + 2) = 0 from hpad)] at h
    cases h
  | list l ih =>
    rw [emit_list, emit_list]
    refine emitMembers_congr (by simp) ?_
    rw [length_map]
    exact concat_eq_of_followList ih h
  | map m ih =>
    rw [emit_map, emit_map]
    refine emitMembers_congr (by simp) ?_
    rw [follow, followEntries_eq] at h
    rw [length_map, concat_emitEntry, concat_emitEntry]
    refine concat_eq_of_followList (fun v hv => ?_) h
    obtain ⟨entry, hentry, rfl | rfl⟩ := mem_members.mp hv
    · exact (ih entry hentry).1
    · exact (ih entry hentry).2

end Flutter.Format
