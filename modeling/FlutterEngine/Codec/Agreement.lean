import FlutterEngine.Codec.JavaCodec.Weight
import FlutterEngine.Codec.StandardCodec.Layout

/-!
# The C++ and the Java codec

The two codecs write and read the same format, but for one point: `WriteVector` in C++ writes no
padding in front of the elements of an empty typed list, while Java's `writeValue` does, and so do
the readers of both expect it.

* Java's `readValue` reads what `WriteValue` wrote if every empty typed list stands at an aligned
  position (`readByJava_of_follow`), and otherwise it does not (`follow_of_readByJava`).
* `ReadValue` reads whatever Java's `writeValue` wrote (`readByCpp`).

A value of one language is taken to correspond to one of the other up to the order of the entries of
maps. Both have to be able to hold it: strings are texts, sizes are below `2 ^ 31`, and different
keys are different in the other language, too.
-/

namespace Flutter

open Lib Format Java List EncodableValue Value Float64 Value.All

/-! ## From C++ to Java -/

/-- Java reads the bytes of a C++ value as the corresponding value and consumes them all. -/
def ReadByJava (e : Endian) (v : EncodableValue) : Prop :=
  ∀ runtime, ∃ j,
    (Java.StandardMessageCodec.readValue e runtime
      ((StandardCodecSerializer.writeValue e v []).length + 1)).parse
      (StandardCodecSerializer.writeValue e v []) 0 =
        .ok (j, (StandardCodecSerializer.writeValue e v []).length) ∧
    v.Rel (Corresponds Eq) j

section FromCpp

open Java.StandardMessageCodec

variable {e : Endian} {v : EncodableValue}

/-- Scalars whose counterparts are equal in Java are the same. -/
theorem eq_of_equalsLeaf {l l' : EncodableLeaf} {a a' : JavaLeaf} (ha : Corresponds Eq l a)
    (ha' : Corresponds Eq l' a') (hl : EncodableValue.IsScalarKey (.leaf l))
    (hl' : EncodableValue.IsScalarKey (.leaf l')) (hequals : JavaValue.equalsLeaf a a' = true) :
    l = l' := by
  rw [← toEncodable_of_corresponds ha, ← toEncodable_of_corresponds ha'] at *
  cases a with
  | null =>
    cases a' with
    | null => rfl
    | _ => cases hequals
  | double x =>
    cases a' with
    | double y =>
      -- Only NaNs are equal and have different bits.
      have hx : canonical x = x := canonical_of_not_isNaN hl
      have hy : canonical y = y := canonical_of_not_isNaN hl'
      have hxy : canonical x = canonical y := beq_iff_eq.mp hequals
      rw [← hx, hxy, hy]
    | _ => cases hequals
  | float x => exact ha.elim
  | _ => cases a' <;> first
    | cases hequals
    | rw [show _ = _ from beq_iff_eq.mp hequals]

/-- Different scalar or string keys are different in Java. -/
theorem pairwise_equals_of_isKeyed {m : List (EncodableValue × EncodableValue)}
    (hm : EncodableValue.IsKeyed m) :
    m.Pairwise fun entry entry' => ∀ k k', Value.Rel (Corresponds Eq) entry.1 k →
      Value.Rel (Corresponds Eq) entry'.1 k' → JavaValue.equals k k' = false := by
  refine hm.2.imp_of_mem fun {entry entry'} hentry hentry' hless k k' hk hk' => ?_
  have hscalar := hm.1 _ hentry
  have hscalar' := hm.1 _ hentry'
  obtain ⟨l, hl⟩ := exists_leaf_of_isScalarKey hscalar
  obtain ⟨l', hl'⟩ := exists_leaf_of_isScalarKey hscalar'
  rw [hl] at hk hscalar hless
  rw [hl'] at hk' hscalar' hless
  obtain ⟨a, rfl, ha⟩ := rel_leaf_left hk
  obtain ⟨a', rfl, ha'⟩ := rel_leaf_left hk'
  by_contra hequals
  rw [Bool.not_eq_false] at hequals
  rw [eq_of_equalsLeaf ha ha' hscalar hscalar' hequals, less_irrefl hscalar'] at hless
  cases hless

lemma readByJava_of_follow (hv : v.All IsReadable)
    (hfollow : follow e v 0 .aligned = some .aligned) : ReadByJava e v := by
  intro runtime
  have hbytes : StandardCodecSerializer.writeValue e v [] = emit e true v 0 := by
    rw [StandardCodecSerializer.writeValue_eq, ← emit_eq_of_follow hfollow]
    rfl
  rw [hbytes]
  exact parse_emit (readValue e runtime) (readValue_reads hv)

/-- Java misses the bytes that it skips in front of no elements, and it needs them all. -/
theorem follow_of_readByJava (hv : v.All IsReadable) (hkeys : v.All HasScalarKeys)
    (hsmall : SmallMaps v) (hread : ReadByJava e v) :
    follow e v 0 .aligned = some .aligned := by
  have hbytes : StandardCodecSerializer.writeValue e v [] = emit e false v 0 :=
    StandardCodecSerializer.writeValue_eq v []
  obtain ⟨j, hread, hrel⟩ := hread Runtime.strict
  rw [hbytes] at hread
  have hdomain : v.All fun v => IsReadable v ∧ HasScalarKeys v := and hv hkeys
  have hbetrays := (decoder e (emit e false v 0)).betrays hdomain hsmall (SliceAt.self _)
    (show Tracks False _ .aligned 0 0 from rfl) hread (rel_contents hrel)
  rcases hbetrays with hwasted | ⟨phase, hfollow, htracks⟩
  · -- There is nothing to waste: the message consists of what the value weighs.
    have hle : nonzerosBefore (emit e false v 0) (emit e false v 0).length ≤
        nonzeros (emit e false v 0) := before_le
    rw [nonzeros_emit hsmall] at hle
    rw [Wasted] at hwasted
    omega
  · cases phase with
    | aligned => exact hfollow
    | ahead =>
      -- A reader that is ahead cannot end where the message does.
      rcases htracks.1 with hlt | ⟨hfalse, -⟩
      · omega
      · exact hfalse.elim

end FromCpp

/-! ## From Java to C++ -/

/-- C++ reads the bytes of a Java value as the corresponding value and consumes them all. -/
def ReadByCpp (e : Endian) (j : JavaValue) : Prop :=
  ∀ memory, ∃ v,
    (StandardCodecSerializer.readValue e memory
      ((Java.StandardMessageCodec.writeValue e j []).length + 1)).parse
      (Java.StandardMessageCodec.writeValue e j []) 0 =
        .ok (v, (Java.StandardMessageCodec.writeValue e j []).length) ∧
    v.Rel (Corresponds Float64.Same) j

/-- Keys that an `EncodableMap` tells apart, wherever they are allocated. -/
def KeysDiffer (k k' : EncodableValue) : Prop :=
  ∀ i j, i ≠ j → less (i, k) (j, k') = true ∨ less (j, k') (i, k) = true

/-- A leaf that has a counterpart in C++: a string is a text, and a number is an `Integer`, a `Long`
or a `Double`. -/
def HasCounterpart : JavaLeaf → Prop
  | .byte _ | .short _ | .float _ | .bigInteger _ => False
  | .string v => ∃ s, v = utf16 s
  | _ => True

/-- Values that C++ can hold: leaves have a counterpart, sizes fit, and keys stay different. -/
def IsSendable (j : JavaValue) : Prop :=
  size (Java.StandardMessageCodec.toEncodable j) < 2 ^ 31 ∧
    match j with
    | .leaf l => HasCounterpart l
    | .list _ => True
    | .map m => m.Pairwise fun entry entry' => ∀ k k', k.Rel (Corresponds Float64.Same) entry.1 →
        k'.Rel (Corresponds Float64.Same) entry'.1 → KeysDiffer k k'

section FromJava

open StandardCodecSerializer Java.StandardMessageCodec

variable {e : Endian}

/-- All entries with different keys are emplaced. -/
theorem emplaceEntries_perm {address : ℕ → ℕ} (haddress : Function.Injective address)
    {entries : List (EncodableValue × EncodableValue)}
    (h : entries.Pairwise fun entry entry' => KeysDiffer entry.1 entry'.1) :
    (emplaceEntries address entries).Perm entries := by
  have hkeys : entries.zipIdx.Pairwise fun x y => KeysDiffer x.1.1 y.1.1 := by
    rwa [← zipIdx_map_fst 0 entries, pairwise_map] at h
  have hindex : entries.zipIdx.Pairwise fun x y => x.2 < y.2 := by
    have hsnd : (entries.zipIdx.map Prod.snd).Pairwise (· < ·) := by
      rw [zipIdx_map_snd]
      exact pairwise_lt_range'
    exact pairwise_map.mp hsnd
  have hkeyed : (keyed address entries).Pairwise fun entry entry' =>
      less entry.1 entry'.1 = true ∨ less entry'.1 entry.1 = true := by
    rw [keyed, pairwise_map]
    refine (hkeys.and hindex).imp fun {x y} hxy => ?_
    exact hxy.1 _ _ fun heq => hxy.2.ne (haddress heq)
  have hperm := (emplaceAll_perm hkeyed).map fun entry => (entry.1.2, entry.2)
  rwa [map_keyed] at hperm

/-- What has to be known of a value that Java has written in order to read it in C++. -/
def IsReceivable (v : EncodableValue) : Prop :=
  size v < 2 ^ 32 ∧
    match v with
    | .map m => m.Pairwise fun entry entry' => ∀ k k', Value.Rel Eq entry.1 k →
        Value.Rel Eq entry'.1 k' → KeysDiffer k k'
    | _ => True

lemma readRelation_rel : ReadRelation IsReceivable (Value.Rel Eq) where
  size_lt _ hv := hv.1
  leaf l := Value.Rel.refl (.leaf l)
  list _ _ h := rel_list.mpr h
  map _ entries _ hm haddress h := by
    have hdiffer : entries.Pairwise fun entry entry' => KeysDiffer entry.1 entry'.1 :=
      pairwise_of_forall₂ h hm.2 fun hentry hentry' hkeys => hkeys _ _ hentry.1 hentry'.1
    exact rel_map.mpr ⟨entries, (emplaceEntries_perm haddress hdiffer).symm, h⟩

lemma corresponds_toEncodable {l : JavaLeaf} (hl : HasCounterpart l) :
    Corresponds Float64.Same (l.toEncodable doubleToLongBits) l := by
  cases l with
  | byte | short | float | bigInteger => exact hl.elim
  | string v =>
    obtain ⟨s, rfl⟩ := hl
    exact ⟨s, transcode_utf16 _ s, rfl⟩
  | double v => exact canonical_canonical v
  | doubleArray v =>
    refine forall₂_map_left_iff.mpr (forall₂_same.mpr fun v _ => ?_)
    exact canonical_canonical v
  | null => trivial
  | _ => rfl

variable {j : JavaValue}

lemma rel_toEncodable (hj : j.All IsSendable) :
    Value.Rel (Corresponds Float64.Same) (toEncodable j) j := by
  have hleaves : j.All
      (Value.OnLeaf fun l => Corresponds Float64.Same (l.toEncodable doubleToLongBits) l) := by
    refine imp (fun v hv => ?_) hj
    cases v with
    | leaf l => exact corresponds_toEncodable hv.2
    | list | map => trivial
  have hrel : Value.Rel (fun l l' => Corresponds Float64.Same l' l) j (toEncodable j) :=
    rel_mapLeaves hleaves
  exact hrel.symm

lemma all_isReceivable (hj : j.All IsSendable) : (toEncodable j).All IsReceivable := by
  refine mapLeaves (fun v hv => ?_) hj
  cases v with
  | leaf l =>
    have hsize : size (toEncodable (.leaf l)) < 2 ^ 31 := hv.1
    exact ⟨hsize.trans (by decide), trivial⟩
  | list l =>
    have hsize : size (toEncodable (.list l)) < 2 ^ 31 := (all_list.mp hv).1.1
    rw [toEncodable, mapLeaves_list] at hsize
    rw [mapLeaves_list]
    exact ⟨hsize.trans (by decide), trivial⟩
  | map m =>
    obtain ⟨hnode, hmembers⟩ := all_map.mp hv
    have hsize : size (toEncodable (.map m)) < 2 ^ 31 := hnode.1
    rw [toEncodable, mapLeaves_map] at hsize
    rw [mapLeaves_map]
    refine ⟨hsize.trans (by decide), ?_⟩
    -- What is related to an encoded key corresponds to the key.
    have hkey : ∀ entry ∈ m, ∀ k, Value.Rel Eq (toEncodable entry.1) k →
        k.Rel (Corresponds Float64.Same) entry.1 := by
      intro entry hentry k hk
      refine hk.symm.trans (fun l l' l'' hl hl' => ?_) (rel_toEncodable (hmembers entry hentry).1)
      rwa [← hl]
    refine pairwise_map.mpr (hnode.2.imp_of_mem fun hentry hentry' hkeys k k' hk hk' => ?_)
    exact hkeys k k' (hkey _ hentry k hk) (hkey _ hentry' k' hk')

lemma readByCpp (hj : j.All IsSendable) : ReadByCpp e j := by
  intro memory
  have hbig : j.All NoBigInteger := by
    refine imp (fun v hv => ?_) hj
    cases v with
    | leaf l =>
      cases l with
      | bigInteger => exact hv.2.elim
      | _ => trivial
    | list | map => trivial
  have hbytes : writeValue e j [] = emit e true (toEncodable j) 0 := writeValue_eq hbig []
  obtain ⟨v, hread, hrel⟩ := parse_emit (readValue e memory)
    (readValue_reads readRelation_rel (all_isReceivable hj))
  rw [hbytes]
  refine ⟨v, hread, ?_⟩
  refine hrel.symm.trans (fun l l' l'' hl hl' => ?_) (rel_toEncodable hj)
  rwa [← hl]

end FromJava

/-! ## Agreement -/

/-- Java reads what C++ wrote if every empty list of 32-bit integers, 64-bit integers or doubles was
written at an aligned position; for maps of less than 254 entries with scalar or string keys only
then. C++ reads whatever Java wrote. -/
theorem readByJava_and_readByCpp (e : Endian) :
    (∀ v : EncodableValue, v.All Java.StandardMessageCodec.IsReadable →
      (follow e v 0 .aligned = some .aligned → ReadByJava e v) ∧
      (v.All Java.StandardMessageCodec.HasScalarKeys → SmallMaps v → ReadByJava e v →
        follow e v 0 .aligned = some .aligned)) ∧
    (∀ j : JavaValue, j.All IsSendable → ReadByCpp e j) :=
  ⟨fun _ hv => ⟨readByJava_of_follow hv, follow_of_readByJava hv⟩, fun _ => readByCpp⟩

/-- A map with two keys, whose last value is an empty list at an aligned position. -/
theorem readByJava_and_readByCpp_map :
    ReadByJava .little (.map [(.leaf (.int 1), .leaf (.bool true)),
      (.leaf (.string [108, 105, 115, 116]), .leaf (.longList []))]) ∧
    ReadByCpp .little (.map [(.leaf (.integer 1), .leaf (.longArray []))]) := by
  refine ⟨((readByJava_and_readByCpp .little).1 _ ?_).1 (by decide),
    (readByJava_and_readByCpp .little).2 _ ?_⟩
  · have hkeys := pairwise_equals_of_isKeyed (m := [(.leaf (.int 1), .leaf (.bool true)),
      (.leaf (.string [108, 105, 115, 116]), .leaf (.longList []))]) (by decide)
    exact ⟨⟨by decide, hkeys⟩, ⟨⟨by decide, trivial⟩, ⟨by decide, trivial⟩⟩,
      ⟨⟨by decide, ['l', 'i', 's', 't'], by decide⟩, ⟨by decide, trivial⟩⟩, trivial⟩
  · exact ⟨⟨by decide, pairwise_singleton _ _⟩,
      ⟨⟨by decide, trivial⟩, ⟨by decide, trivial⟩⟩, trivial⟩

/-- Behind an empty list at an unaligned position, Java reads the integer `5` as null. -/
theorem not_readByJava_int :
    Value.All Java.StandardMessageCodec.IsReadable (.list [.leaf (.longList []), .leaf (.int 5)]) ∧
    (∀ runtime, (Java.StandardMessageCodec.readValue .little runtime 10).parse
        (StandardCodecSerializer.writeValue .little
          (.list [.leaf (.longList []), .leaf (.int 5)]) []) 0 =
      .ok (.list [.leaf (.longArray []), .leaf .null], 9)) ∧
    ¬ReadByJava .little (.list [.leaf (.longList []), .leaf (.int 5)]) := by
  refine ⟨⟨⟨by decide, trivial⟩, ⟨by decide, trivial⟩, ⟨by decide, trivial⟩, trivial⟩,
    fun _ => rfl, fun h => ?_⟩
  obtain ⟨j, hread, hrel⟩ := h Runtime.strict
  have hnull : j = .list [.leaf (.longArray []), .leaf .null] := by
    cases hread
    rfl
  rw [hnull, rel_list] at hrel
  simp [Value.Rel, Corresponds] at hrel

end Flutter
