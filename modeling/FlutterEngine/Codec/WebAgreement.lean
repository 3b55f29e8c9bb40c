import FlutterEngine.Codec.JavaCodec.Layout
import FlutterEngine.Codec.WebCodec.Layout

/-!
# The web engine's and the Java codec

A Dart value goes to Java and back. Leaves are followed through the four steps of the way (written
by the web engine, read by Java, written by Java, read by the web engine), and `Value.Rel` carries
over to nested values what holds of leaves.

* `toJava` is the Java value that a leaf has to arrive as. In a browser each number is a double, so
  that an `int` arrives as a `Double`, too.
* `canonical` is what a leaf comes back as: the same, but for the payload of NaNs. The entries of
  maps may come back in another order, since a `HashMap` does not keep it.
* `readByJava` is the way to Java, `readByWeb` the way back, and `decodeMessage_decodeMessage` both.

Java has a single NaN among the keys of a map, and the web engine drops a byte order mark at the
start of a string. Values that have such keys or strings are left out by `IsPortable`.
-/

namespace Flutter.WebAgreement

open Lib Format Web Value EncodableValue List Web.StandardMessageCodec Float64 DartValue ByteData

/-! ## Values that can be sent -/

/-- The Java value that a Dart value corresponds to. Each number is a `Double`. -/
def toJava : DartLeaf → Java.JavaLeaf
  | .null => .null
  | .bool v => .boolean v
  | .num v => .double v
  | .string v => .string v
  | .uint8List v => .byteArray v
  | .int32List v => .intArray v
  | .float64List v => .doubleArray v

/-- The leaf with the same NaN for all NaNs. -/
def canonical : DartLeaf → DartLeaf
  | .num v => .num (Float64.canonical v)
  | .float64List v => .float64List (v.map Float64.canonical)
  | l => l

/-- A string, if the leaf is one, without lone surrogates and without a byte order mark at its
start. -/
def IsPlain : DartLeaf → Prop
  | .string v => ∃ s, v = utf16 s ∧ dropBom s = s
  | _ => True

/-- A scalar or a string. -/
def IsScalar : DartLeaf → Prop
  | .null | .bool _ | .num _ | .string _ => True
  | _ => False

/-- A NaN. -/
def IsNaN : DartLeaf → Prop
  | .num v => Float64.isNaN v = true
  | _ => False

/-- Scalar or string keys of a map: they are different, and not both a NaN. -/
def AreDistinct : DartValue → DartValue → Prop
  | .leaf l, .leaf l' => equalsLeaf l l' = false ∧ ¬(IsNaN l ∧ IsNaN l')
  | _, _ => False

/-- Values that survive the way to Java and back. -/
def IsPortable (v : DartValue) : Prop :=
  size (toEncodable v) < 2 ^ 31 ∧
    match v with
    | .leaf l => IsPlain l
    | .list _ => True
    | .map m => (∀ entry ∈ m, ∃ l, entry.1 = .leaf l ∧ IsScalar l) ∧
        m.Pairwise fun entry entry' => AreDistinct entry.1 entry'.1

/-! ## Leaves -/

section Leaves

variable {l l' : DartLeaf} {a : Java.JavaLeaf}

/-- What the web engine has written arrives in Java. -/
theorem toJava_of_corresponds (hl : IsPlain l) (h : Java.Corresponds Eq l.toEncodable a) :
    a = toJava l := by
  cases l with
  | string v =>
    obtain ⟨s, rfl, -⟩ := hl
    cases a with
    | string v' =>
      obtain ⟨t, ht, rfl⟩ := h
      rw [encodeUtf8, transcode_utf16] at ht
      rw [toJava, utf8_injective ht]
    | _ => exact h.elim
  | float64List v =>
    cases a with
    | doubleArray v' =>
      have hv : List.Forall₂ Eq v v' := h
      rw [forall₂_eq_eq_eq] at hv
      rw [toJava, hv]
    | _ => exact h.elim
  | null =>
    cases a with
    | null => rfl
    | _ => exact h.elim
  | _ =>
    cases a with
    | boolean | double | byteArray | intArray =>
      first | exact h.elim | exact congrArg _ h.symm
    | _ => exact h.elim

/-- What Java has written comes back to the web engine. -/
theorem canonical_of_isReadAs (hl : IsPlain l)
    (h : IsReadAs ((toJava l).toEncodable Java.doubleToLongBits) l') : l' = canonical l := by
  cases l with
  | string v =>
    obtain ⟨s, rfl, hs⟩ := hl
    obtain ⟨t, ht, rfl⟩ := h
    rw [Java.getBytes, transcode_utf16] at ht
    rw [← utf8_injective ht, hs, canonical]
    all_goals nofun
  | _ => exact h

/-- Keys that are distinct in Dart are different in Java, where only NaNs are equal that are not
equal in Dart. -/
theorem equalsLeaf_toJava (hl : IsScalar l) (h : AreDistinct (.leaf l) (.leaf l')) :
    Java.JavaValue.equalsLeaf (toJava l) (toJava l') = false := by
  obtain ⟨hne, hnan⟩ := h
  cases l with
  | num v =>
    cases l' with
    | num v' =>
      refine beq_eq_false_iff_ne.mpr fun heq => ?_
      rw [equalsLeaf, eq_of_canonical_eq heq hnan] at hne
      cases hne
    | _ => rfl
  | null | bool v | string v => cases l' <;> first | rfl | exact hne
  | _ => exact hl.elim

/-- The operator `==` is symmetric. -/
lemma equalsLeaf_comm (l l' : DartLeaf) : equalsLeaf l l' = equalsLeaf l' l := by
  cases l with
  | bool v | string v => cases l' <;> first | rfl | exact Bool.beq_comm
  | num v => cases l' <;> first | rfl | exact eq_comm _ _
  | _ => cases l' <;> rfl

/-- The operator `==` does not see the payload of NaNs. -/
theorem equalsLeaf_canonical (l l' : DartLeaf) :
    equalsLeaf (canonical l) (canonical l') = equalsLeaf l l' := by
  cases l with
  | num v => cases l' <;> first | rfl | exact Float64.eq_canonical _ _
  | _ => cases l' <;> rfl

/-- Java encodes a leaf in as many elements as the web engine does. -/
theorem size_toJava (hl : IsPlain l) :
    size (.leaf ((toJava l).toEncodable Java.doubleToLongBits)) = size (.leaf l.toEncodable) := by
  cases l with
  | string v =>
    obtain ⟨s, rfl, -⟩ := hl
    change (Java.getBytes _).length = (encodeUtf8 _).length
    rw [Java.getBytes, encodeUtf8, transcode_utf16, transcode_utf16]
  | float64List v => exact length_map _
  | _ => rfl

/-- The web engine writes strings as UTF-8. -/
lemma isText_toEncodable (hl : IsPlain l) : IsText l.toEncodable := by
  cases l with
  | string v =>
    obtain ⟨s, rfl, -⟩ := hl
    exact ⟨s, transcode_utf16 _ s⟩
  | _ => trivial

/-- Java writes strings as UTF-8. -/
lemma isText_toJava (hl : IsPlain l) : IsText ((toJava l).toEncodable Java.doubleToLongBits) := by
  cases l with
  | string v =>
    obtain ⟨s, rfl, -⟩ := hl
    exact ⟨s, transcode_utf16 _ s⟩
  | _ => trivial

/-- Java writes no 64-bit integers, since it got none. -/
lemma isSupported_toJava (l : DartLeaf) :
    IsSupported ((toJava l).toEncodable Java.doubleToLongBits) := by
  cases l <;> trivial

end Leaves

/-! ## From the web engine to Java -/

section ToJava

variable {e : Endian} {d : DartValue}

/-- The strings of a value that can be sent are plain. -/
lemma all_onLeaf_isPlain (hd : d.All IsPortable) : d.All (Value.OnLeaf IsPlain) := by
  refine Value.All.imp (fun v hv => ?_) hd
  cases v with
  | leaf l => exact hv.2
  | list | map => trivial

/-- A key of a map, and what is known of it. -/
theorem exists_leaf_of_mem {m : List (DartValue × DartValue)}
    (hm : Value.All IsPortable (.map m)) {entry : DartValue × DartValue}
    (hentry : entry ∈ m) : ∃ l, entry.1 = .leaf l ∧ IsScalar l ∧ IsPlain l := by
  obtain ⟨hnode, hmembers⟩ := all_map.mp hm
  obtain ⟨l, hl, hscalar⟩ := hnode.2.1 entry hentry
  have hkey := (hmembers entry hentry).1
  rw [hl] at hkey
  exact ⟨l, hl, hscalar, hkey.2⟩

/-- Java can read what the web engine writes. -/
lemma all_isReadable_toEncodable (hd : d.All IsPortable) :
    (toEncodable d).All Java.StandardMessageCodec.IsReadable := by
  refine Value.All.mapLeaves (fun v hv => ?_) hd
  cases v with
  | leaf l => exact ⟨hv.1, isText_toEncodable hv.2⟩
  | list l =>
    have hsize := (all_list.mp hv).1.1
    rw [toEncodable] at hsize
    rw [mapLeaves_list] at hsize ⊢
    exact ⟨hsize, trivial⟩
  | map m =>
    obtain ⟨hsize, -, hdistinct⟩ := (all_map.mp hv).1
    rw [toEncodable] at hsize
    rw [mapLeaves_map] at hsize ⊢
    refine ⟨hsize, pairwise_map.mpr (hdistinct.imp_of_mem ?_)⟩
    intro entry entry' hentry hentry' hkeys k k' hk hk'
    obtain ⟨l, hl, hscalar, hplain⟩ := exists_leaf_of_mem hv hentry
    obtain ⟨l', hl', -, hplain'⟩ := exists_leaf_of_mem hv hentry'
    rw [Prod.map, hl] at hk
    rw [Prod.map, hl'] at hk'
    obtain ⟨a, rfl, ha⟩ := rel_leaf_left hk
    obtain ⟨a', rfl, ha'⟩ := rel_leaf_left hk'
    rw [hl, hl'] at hkeys
    rw [toJava_of_corresponds hplain ha, toJava_of_corresponds hplain' ha']
    exact equalsLeaf_toJava hscalar hkeys

/-- A leaf that can be sent, and what it has to arrive as. -/
def Sends (l : DartLeaf) (a : Java.JavaLeaf) : Prop := IsPlain l ∧ a = toJava l

/-- The bytes of a message that is not null. -/
lemma encodeMessage_eq (hd : d ≠ .leaf .null) :
    encodeMessage e d = some ⟨0, emit e true (toEncodable d) 0⟩ := by
  rw [encodeMessage, writeValue_eq]
  · rfl
  · exact hd

/-- Java reads what the web engine has written. -/
theorem readByJava (java : Java.Runtime) (hd : d.All IsPortable) :
    ∃ j, Java.StandardMessageCodec.decodeMessage e java
        ((encodeMessage e d).map bytes) = .ok j ∧
      d.Rel Sends j := by
  by_cases hnull : d = .leaf .null
  · subst hnull
    exact ⟨.leaf .null, rfl, trivial, rfl⟩
  obtain ⟨j, hread, hrel⟩ := Java.StandardMessageCodec.decodeMessage_emit (e := e) java
    (all_isReadable_toEncodable hd)
  refine ⟨j, ?_, ?_⟩
  · rw [encodeMessage_eq hnull]
    exact hread
  · have hleaves : d.All (Value.OnLeaf fun l => IsPlain l ∧ l.toEncodable = l.toEncodable) := by
      refine Value.All.imp (fun v hv => ?_) (all_onLeaf_isPlain hd)
      cases v with
      | leaf l => exact ⟨hv, rfl⟩
      | list | map => trivial
    have hencoded : d.Rel (fun l x => IsPlain l ∧ x = l.toEncodable)
        (toEncodable d) := rel_mapLeaves hleaves
    refine hencoded.trans (fun l x a hx ha => ?_) hrel
    obtain ⟨hplain, rfl⟩ := hx
    exact ⟨hplain, toJava_of_corresponds hplain ha⟩

end ToJava

/-! ## From Java to the web engine -/

section FromJava

variable {e : Endian} {d : DartValue} {j : Java.JavaValue}

/-- A leaf that can be sent, and what Java encodes it as. -/
def SendsBack (l : DartLeaf) (x : EncodableLeaf) : Prop :=
  IsPlain l ∧ x = (toJava l).toEncodable Java.doubleToLongBits

/-- No `BigInteger` arrives in Java. -/
lemma all_noBigInteger (hd : d.All IsPortable) (hj : d.Rel Sends j) :
    j.All Java.StandardMessageCodec.NoBigInteger := by
  refine hj.all ?_ (fun _ _ _ _ => trivial) (fun _ _ _ _ _ _ => trivial) hd
  rintro l _ - ⟨-, rfl⟩
  cases l <;> trivial

/-- What Java encodes the leaves of a value as. -/
lemma rel_sendsBack (hbig : j.All Java.StandardMessageCodec.NoBigInteger) (hj : d.Rel Sends j) :
    d.Rel SendsBack (Java.StandardMessageCodec.toEncodable j) := by
  have hleaves : j.All (Value.OnLeaf fun a =>
      a.toEncodable Java.doubleToLongBits = a.toEncodable Java.doubleToLongBits) := by
    refine Value.All.imp (fun v _ => ?_) hbig
    cases v <;> trivial
  have hencoded : j.Rel (fun a x => x = a.toEncodable Java.doubleToLongBits)
      (Java.StandardMessageCodec.toEncodable j) := rel_mapLeaves hleaves
  refine hj.trans (fun l a x ha hx => ?_) hencoded
  obtain ⟨hplain, rfl⟩ := ha
  exact ⟨hplain, hx⟩

/-- What comes back, if it is read. -/
lemma rel_canonical {v : EncodableValue} {d' : DartValue} (hv : d.Rel SendsBack v)
    (hd' : v.Rel IsReadAs d') : d.Rel (fun l l' => l' = canonical l) d' := by
  refine hv.trans (fun l x l' hx hl' => ?_) hd'
  obtain ⟨hplain, rfl⟩ := hx
  exact canonical_of_isReadAs hplain hl'

/-- The operator `==` is symmetric on all objects. -/
lemma equals_comm (k k' : DartValue) : equals k k' = equals k' k := by
  cases k <;> cases k' <;> first | rfl | exact equalsLeaf_comm _ _

/-- Distinct keys are leaves that are not equal. -/
lemma exists_leaf_of_areDistinct {k k' : DartValue} (h : AreDistinct k k') :
    ∃ l l', k = .leaf l ∧ k' = .leaf l' ∧ equalsLeaf l l' = false := by
  cases k with
  | leaf l =>
    cases k' with
    | leaf l' => exact ⟨l, l', rfl, rfl, h.1⟩
    | list | map => exact h.elim
  | list | map => exact h.elim

/-- Keys that are distinct are different after they have come back. -/
theorem pairwise_equals_of_sendsBack {m : List (DartValue × DartValue)}
    {n m' : List (EncodableValue × EncodableValue)}
    (hm : Value.All IsPortable (.map m)) (hperm : n.Perm m')
    (hn : List.Forall₂ (fun entry entry' => Value.Rel SendsBack entry.1 entry'.1 ∧
      Value.Rel SendsBack entry.2 entry'.2) m n) :
    m'.Pairwise fun entry entry' => ∀ k k', Value.Rel IsReadAs entry.1 k →
      Value.Rel IsReadAs entry'.1 k' → equals k k' = false := by
  -- The order of the entries does not matter, since equality of keys is symmetric.
  refine (hperm.pairwise_iff fun hkeys k k' hk hk' => ?_).mp ?_
  · rw [equals_comm]
    exact hkeys k' k hk' hk
  refine pairwise_of_forall₂ hn (all_map.mp hm).1.2.2
    fun {entry entry' _ _} hx hx' hkeys k k' hk hk' => ?_
  obtain ⟨l, l', hl, hl', hne⟩ := exists_leaf_of_areDistinct hkeys
  rw [hl] at hx
  rw [hl'] at hx'
  obtain ⟨_, rfl, rfl⟩ := rel_leaf_left (rel_canonical hx.1 hk)
  obtain ⟨_, rfl, rfl⟩ := rel_leaf_left (rel_canonical hx'.1 hk')
  exact (equalsLeaf_canonical l l').trans hne

/-- The web engine can read what Java writes. -/
lemma all_isReadable_of_sendsBack {v : EncodableValue} (hd : d.All IsPortable)
    (hv : d.Rel SendsBack v) : v.All Web.StandardMessageCodec.IsReadable := by
  refine hv.all ?leaf ?list ?map hd
  case leaf =>
    rintro l _ hl ⟨hplain, rfl⟩
    have hsize : size (.leaf l.toEncodable) < 2 ^ 31 := hl.1
    refine ⟨?_, isText_toJava hplain, isSupported_toJava l⟩
    rw [size_toJava hplain]
    exact hsize.trans (by decide)
  case list =>
    intro l l' hl hrel
    have hsize := (all_list.mp hl).1.1
    rw [toEncodable, mapLeaves_list, size, length_map, hrel.length_eq] at hsize
    exact ⟨hsize.trans (by decide), trivial⟩
  case map =>
    intro m m' n hm hperm hrel
    have hsize := (all_map.mp hm).1.1
    rw [toEncodable, mapLeaves_map, size, length_map, hrel.length_eq, hperm.length_eq] at hsize
    exact ⟨hsize.trans (by decide), pairwise_equals_of_sendsBack hm hperm hrel⟩

/-- The web engine reads what Java has written. -/
theorem readByWeb (runtime : Runtime) (hd : d.All IsPortable) (hj : d.Rel Sends j)
    {offsetInBytes : ℕ} (hoffset : 8 ∣ offsetInBytes) :
    ∃ d', decodeMessage e runtime
        ((Java.StandardMessageCodec.encodeMessage e j).map fun bytes => ⟨offsetInBytes, bytes⟩) =
          .ok d' ∧
      d.Rel (fun l l' => l' = canonical l) d' := by
  have hbig := all_noBigInteger hd hj
  have hback := rel_sendsBack hbig hj
  by_cases hnull : j = .leaf .null
  · subst hnull
    exact ⟨.leaf .null, rfl, rel_canonical hback rfl⟩
  obtain ⟨d', hread, hrel⟩ := decodeMessage_emit (e := e) runtime hoffset
    (all_isReadable_of_sendsBack hd hback)
  refine ⟨d', ?_, rel_canonical hback hrel⟩
  have hbytes : Java.StandardMessageCodec.encodeMessage e j =
      some (emit e true (Java.StandardMessageCodec.toEncodable j) 0) := by
    rw [Java.StandardMessageCodec.encodeMessage, Java.StandardMessageCodec.writeValue_eq hbig]
    · rfl
    · exact hnull
  rw [hbytes]
  exact hread

end FromJava

/-! ## There and back -/

/-- What the web engine has written is read by Java as the corresponding value. If Java writes that
value, with the entries of its maps in whatever order, the web engine reads back what it has sent,
but for the payload of NaNs. -/
theorem decodeMessage_decodeMessage (e : Endian) (web : Runtime) (java : Java.Runtime)
    {d : DartValue} (hd : d.All IsPortable) :
    ∃ j, Java.StandardMessageCodec.decodeMessage e java
        ((encodeMessage e d).map bytes) = .ok j ∧
      d.Rel (fun l a => a = toJava l) j ∧
      ∀ j', j.Rel Eq j' → ∀ offsetInBytes, 8 ∣ offsetInBytes →
        ∃ d', decodeMessage e web
            ((Java.StandardMessageCodec.encodeMessage e j').map fun bytes =>
              ⟨offsetInBytes, bytes⟩) = .ok d' ∧
          d.Rel (fun l l' => l' = canonical l) d' := by
  obtain ⟨j, hread, hj⟩ := readByJava java hd
  refine ⟨j, hread, hj.mono fun _ _ h => h.2, fun j' hj' offsetInBytes hoffset => ?_⟩
  refine readByWeb web hd (hj.trans (fun l a a' h ha => ?_) hj') hoffset
  rwa [← ha]

/-- A map with a key that is an `int` and a key that is a string. -/
def mixedMap : DartValue :=
  .map [(.leaf (.num (Float64.ofInt 0x80000000)), .leaf (.float64List [])),
    (.leaf (.string [108, 105]), .list [.leaf (.num 0x7ff8000000000001)])]

theorem decodeMessage_decodeMessage_mixedMap :
    mixedMap.All IsPortable ∧
    ∀ web java, ∃ j, Java.StandardMessageCodec.decodeMessage .little java
      ((encodeMessage .little mixedMap).map bytes) = .ok j ∧
    mixedMap.Rel (fun l a => a = toJava l) j ∧
    ∃ d', decodeMessage .little web
      ((Java.StandardMessageCodec.encodeMessage .little j).map fun bytes => ⟨8, bytes⟩) = .ok d' ∧
      mixedMap.Rel (fun l l' => l' = canonical l) d' := by
  have hportable : mixedMap.All IsPortable := by
    refine ⟨⟨by decide, ?_, ?_⟩, ⟨⟨by decide, trivial⟩, ⟨by decide, trivial⟩⟩,
      ⟨⟨by decide, ['l', 'i'], by decide, by decide⟩, ⟨⟨by decide, trivial⟩,
        ⟨by decide, trivial⟩, trivial⟩⟩, trivial⟩
    · simp [IsScalar]
    · exact pairwise_pair.mpr ⟨rfl, fun h => h.2⟩
  refine ⟨hportable, fun web java => ?_⟩
  obtain ⟨j, hread, hj, hback⟩ := decodeMessage_decodeMessage .little web java hportable
  exact ⟨j, hread, hj, hback j (Value.Rel.refl j) 8 (by decide)⟩

/-- The `int` one arrives as a `Double`. Java keeps one of two NaNs that are different keys in Dart.
A string that consists of a byte order mark arrives, but what comes back is the empty string. -/
theorem decodeMessage_decodeMessage_lost :
    (∀ java, Java.StandardMessageCodec.decodeMessage .little java
      ((encodeMessage .little (.leaf (.num (Float64.ofInt 1)))).map bytes) =
      .ok (.leaf (.double 0x3ff0000000000000))) ∧
    (∀ java, Java.StandardMessageCodec.decodeMessage .little java
      ((encodeMessage .little
        (.map [(.leaf (.num 0x7ff8000000000000), .leaf (.bool false)),
          (.leaf (.num 0x7ff8000000000000), .leaf (.bool true))])).map bytes) =
      .ok (.map [(.leaf (.double 0x7ff8000000000000), .leaf (.boolean true))])) ∧
    equals (.leaf (.num 0x7ff8000000000000)) (.leaf (.num 0x7ff8000000000000)) = false ∧
    (∀ java, Java.StandardMessageCodec.decodeMessage .little java
      ((encodeMessage .little (.leaf (.string [0xfeff]))).map
        bytes) = .ok (.leaf (.string [0xfeff]))) ∧
    (∀ web, decodeMessage .little web
      ((Java.StandardMessageCodec.encodeMessage .little (.leaf (.string [0xfeff]))).map fun bytes =>
        ⟨0, bytes⟩) = .ok (.leaf (.string []))) := by
  refine ⟨fun _ => rfl, fun _ => rfl, rfl, fun java => ?_, fun web => ?_⟩
  · obtain ⟨_, hread, hrel⟩ := Java.StandardMessageCodec.decodeMessage_emit (e := .little) java
      (v := .leaf (.string (utf8 [Char.ofNat 0xfeff]))) ⟨by decide, _, rfl⟩
    obtain ⟨a, rfl, ha⟩ := rel_leaf_left hrel
    cases a with
    | string v =>
      obtain ⟨s, hs, rfl⟩ := ha
      rw [← utf8_injective hs] at hread
      exact hread
    | _ => exact ha.elim
  · obtain ⟨_, hread, hrel⟩ := decodeMessage_emit (e := .little) web
      (show 8 ∣ 0 by decide) (v := .leaf (.string (utf8 [Char.ofNat 0xfeff])))
      ⟨by decide, ⟨_, rfl⟩, trivial⟩
    obtain ⟨_, rfl, s, hs, rfl⟩ := rel_leaf_left hrel
    rw [← utf8_injective hs] at hread
    exact hread

end Flutter.WebAgreement
