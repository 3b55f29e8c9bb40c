import FlutterEngine.WebUi.Text.WordBreaker.Rules

/-!
# The word breaker follows the rules

The loops of `isBreak` over code units are expressed by the properties of the code units on both
sides (`collapseLeft_append`, `nextLeft_append`, `nextRight_append`), and these by the properties of
the characters (`dropWhile_expand`). `isBreak_iff_allows` puts them together with the rules.

* `unitProperties` are the properties of code units, `expand` those of characters unit by unit.
* `Decides` is the order in which code and rules decide.
* Behind a character outside of the basic plane `isBreak` is false, whatever the rules say
  (`isBreak_of_le`).
-/

namespace WebUi.WordBreaker

open Lib List Nat Option UnicodePropertyLookup

variable {x : Option CharProperty} {rest : List (Option CharProperty)}

/-! ## Code units -/

def unitProperties (units : List UInt16) : List (Option CharProperty) :=
  units.map fun unit => lookup.find unit.toNat

variable (a b : List UInt16)

/-- The property of the unit behind a part of the text. -/
lemma getCharProperty_append (unit : UInt16) :
    getCharProperty (a ++ unit :: b) a.length = lookup.find unit.toNat := by
  rw [getCharProperty, getElem?_append_right (le_refl _), Nat.sub_self]
  rfl

lemma reverse_unitProperties_append (a : List UInt16) (unit : UInt16) :
    (unitProperties (a ++ [unit])).reverse =
      lookup.find unit.toNat :: (unitProperties a).reverse := by
  rw [unitProperties, map_append, reverse_append]
  rfl

/-- The next property to the left that is not ignored. -/
lemma nextLeft_append :
    nextLeft (a ++ b) a.length = ((unitProperties a).reverse.dropWhile isIgnored).head?.join := by
  induction a using reverseRecOn generalizing b with
  | nil => rfl
  | append_singleton a unit ih =>
    rw [append_assoc, singleton_append, length_append, length_singleton,
      nextLeft,
      getCharProperty_append, reverse_unitProperties_append, dropWhile_cons]
    split
    · exact ih (unit :: b)
    · rfl

/-- The next property to the right that is not ignored. -/
lemma nextRight_append :
    nextRight (a ++ b) b.length = ((unitProperties b).dropWhile isIgnored).head?.join := by
  induction b generalizing a with
  | nil => rfl
  | cons unit b ih =>
    have hindex : (a ++ unit :: b).length - (b.length + 1) = a.length := by
      rw [length_append, length_cons]
      omega
    rw [length_cons, nextRight, hindex, getCharProperty_append, unitProperties, map_cons,
      dropWhile_cons]
    split
    · rw [append_cons]
      exact ih (a ++ [unit])
    · rfl

/-- The characters that are collapsed are followed to the left by a character, or by nothing. -/
theorem collapseLeft_append :
    ((unitProperties a).reverse.dropWhile isIgnored = [] → collapseLeft (a ++ b) a.length = none) ∧
    ∀ {x rest}, (unitProperties a).reverse.dropWhile isIgnored = x :: rest →
      ∃ left, collapseLeft (a ++ b) a.length = some left ∧ getCharProperty (a ++ b) left = x ∧
        nextLeft (a ++ b) left = (rest.dropWhile isIgnored).head?.join := by
  induction a using reverseRecOn generalizing b with
  | nil => exact ⟨fun _ => rfl, nofun⟩
  | append_singleton a unit ih =>
    rw [reverse_unitProperties_append, dropWhile_cons, append_assoc, singleton_append,
      length_append, length_singleton, collapseLeft, getCharProperty_append]
    by_cases hignored : isIgnored (lookup.find unit.toNat)
    · simp only [if_pos hignored]
      exact ih (unit :: b)
    · simp only [if_neg hignored]
      refine ⟨nofun, fun h => ?_⟩
      obtain ⟨rfl, rfl⟩ := cons_eq_cons.mp h
      exact ⟨a.length, rfl, getCharProperty_append a b unit, nextLeft_append a (unit :: b)⟩

/-! ## Characters -/

/-- The table ends with the basic plane. -/
lemma wordBreakProperty_of_le {c : Char} (h : 0x10000 ≤ c.toNat) : wordBreakProperty c = none := by
  rw [wordBreakProperty, if_neg (not_lt.mpr h)]

/-- Surrogates have no property. -/
theorem find_surrogate {value : ℕ} (h : 0xd800 ≤ value) (h' : value ≤ 0xdfff) :
    lookup.find value = none := by
  rw [find_eq_assigned, assigned,
    map_eq_none_iff,
    find?_eq_none]
  intro range hrange
  rw [decide_eq_true_eq]
  rintro ⟨hstart, hstop⟩
  have hnot := wordBreakRanges_not_surrogate range (ranges_lookup ▸ hrange)
  omega

/-- The mask tells surrogates. -/
lemma and_surrogate_iff {n : ℕ} (h : n < 0x10000) :
    n &&& 0xf800 = 0xd800 ↔ 0xd800 ≤ n ∧ n ≤ 0xdfff := by
  -- the mask selects the upper five of sixteen bits
  have hdiv : (n &&& 0xf800) / 2 ^ 11 = n / 2 ^ 11 := by
    rw [and_div_two_pow, show 0xf800 / 2 ^ 11 = 2 ^ 5 - 1 from rfl, and_two_pow_sub_one_eq_mod]
    omega
  have hmod : (n &&& 0xf800) % 2 ^ 11 = 0 := by
    rw [and_mod_two_pow]
    simp
  omega

/-- Which units are surrogates. -/
lemma isUtf16Surrogate_iff (value : UInt16) : isUtf16Surrogate value = true ↔
    0xd800 ≤ value.toNat ∧ value.toNat ≤ 0xdfff := by
  rw [isUtf16Surrogate, decide_eq_true_eq, ← UInt16.toNat_inj, UInt16.toNat_and]
  exact and_surrogate_iff value.toNat_lt

variable {u : UInt16} {cs : List Char} {text : List UInt16} {left right p q : Option CharProperty}

/-- Both kinds of surrogates are surrogates. -/
lemma isUtf16Surrogate_of (h : isHighSurrogate u = true ∨ isLowSurrogate u = true) :
    isUtf16Surrogate u = true := by
  simp only [isHighSurrogate, isLowSurrogate, Bool.and_eq_true, decide_eq_true_eq] at h
  rw [isUtf16Surrogate_iff]
  omega

/-- Surrogates have no property. -/
lemma find_of_isUtf16Surrogate (h : isUtf16Surrogate u = true) : lookup.find u.toNat = none :=
  find_surrogate ((isUtf16Surrogate_iff u).mp h).1 ((isUtf16Surrogate_iff u).mp h).2

/-- The properties of the code units of a character. -/
theorem unitProperties_utf16Char (c : Char) : unitProperties (utf16Char c) = [wordBreakProperty c] ∨
      wordBreakProperty c = none ∧ unitProperties (utf16Char c) = [none, none] := by
  rcases lt_or_ge c.toNat 0x10000 with hlt | hge
  · left
    obtain ⟨u, heq, hu⟩ := utf16Char_eq_singleton hlt
    rw [heq, unitProperties, map_singleton, hu, wordBreakProperty, if_pos hlt, find_eq_assigned]
  · right
    obtain ⟨u, w, heq, hu, hw⟩ := utf16Char_eq_pair hge
    refine ⟨wordBreakProperty_of_le hge, ?_⟩
    rw [heq, unitProperties, map_cons, map_singleton,
      find_of_isUtf16Surrogate (isUtf16Surrogate_of (.inl hu)),
      find_of_isUtf16Surrogate (isUtf16Surrogate_of (.inr hw))]

/-- The properties of the code units of a text. -/
def expand (cs : List Char) : List (Option CharProperty) :=
  cs.flatMap fun c => unitProperties (utf16Char c)

/-- The properties of the units of some characters. -/
lemma unitProperties_utf16 (cs : List Char) : unitProperties (utf16 cs) = expand cs := by
  rw [unitProperties, utf16, map_flatMap]
  rfl

/-- The same from the right. -/
lemma reverse_unitProperties_utf16 (cs : List Char) :
    (unitProperties (utf16 cs)).reverse = expand cs.reverse := by
  have hreverse : ∀ c, (unitProperties (utf16Char c)).reverse = unitProperties (utf16Char c) := by
    intro c
    rcases unitProperties_utf16Char c with heq | ⟨-, heq⟩ <;> rw [heq] <;> rfl
  rw [unitProperties_utf16, expand, reverse_flatMap, expand]
  exact congrArg (flatMap · cs.reverse) (funext hreverse)

/-- The first property that is not ignored, by units and by characters. -/
lemma head_dropWhile_expand (cs : List Char) : ((expand cs).dropWhile isIgnored).head?.join =
      ((cs.map wordBreakProperty).dropWhile isIgnored).head?.join := by
  induction cs with
  | nil => rfl
  | cons c cs ih =>
    rw [expand, flatMap_cons, map_cons, dropWhile_cons]
    rcases unitProperties_utf16Char c with heq | ⟨hnone, heq⟩
    · rw [heq, singleton_append, dropWhile_cons]
      split
      · exact ih
      · rfl
    · rw [heq, hnone]
      rfl

/-- All characters are ignored if all units are. -/
lemma dropWhile_expand_nil (h : (cs.map wordBreakProperty).dropWhile isIgnored = []) :
    (expand cs).dropWhile isIgnored = [] := by
  induction cs with
  | nil => rfl
  | cons c cs ih =>
    rw [map_cons, dropWhile_cons] at h
    split at h
    · next hignored =>
      rcases unitProperties_utf16Char c with heq | ⟨hnone, heq⟩
      · rw [expand, flatMap_cons, heq, singleton_append, dropWhile_cons_of_pos hignored]
        exact ih h
      · rw [hnone] at hignored
        cases hignored
    · cases h

/-- If there is a property, the next one is the same for code units and characters. -/
theorem dropWhile_expand_cons (h : (cs.map wordBreakProperty).dropWhile isIgnored = x :: rest) :
    ∃ rest', (expand cs).dropWhile isIgnored = x :: rest' ∧
      (x = none ∨
        (rest'.dropWhile isIgnored).head?.join = (rest.dropWhile isIgnored).head?.join) := by
  induction cs with
  | nil => cases h
  | cons c cs ih =>
    rw [map_cons, dropWhile_cons] at h
    rw [expand, flatMap_cons]
    split at h
    · next hignored =>
      rcases unitProperties_utf16Char c with heq | ⟨hnone, heq⟩
      · rw [heq, singleton_append, dropWhile_cons_of_pos hignored]
        exact ih h
      · rw [hnone] at hignored
        cases hignored
    · next hignored =>
      obtain ⟨rfl, rfl⟩ := cons_eq_cons.mp h
      rcases unitProperties_utf16Char c with heq | ⟨hnone, heq⟩
      · rw [heq, singleton_append, dropWhile_cons_of_neg hignored]
        exact ⟨_, rfl, .inr (head_dropWhile_expand cs)⟩
      · rw [heq, hnone]
        exact ⟨_, rfl, .inl rfl⟩

/-! ## Agreement -/

/-- How the rules up to WB4 and those after it decide. -/
def Decides (left right : Option CharProperty) (joins : Prop) : Prop :=
  ¬(left = some .cr ∧ right = some .lf) ∧
    (isNewline left ∨ isNewline right ∨
      ¬(left = some .wSegSpace ∧ right = some .wSegSpace) ∧ ¬isIgnored right ∧ ¬joins)

lemma if_false_eq_true_iff {p : Prop} [Decidable p] {b : Bool} :
    (if p then false else b) = true ↔ ¬p ∧ b = true := by
  split <;> simp_all

lemma if_true_eq_true_iff {p : Prop} [Decidable p] {b : Bool} :
    (if p then true else b) = true ↔ p ∨ b = true := by
  split <;> simp_all

/-- What the code decides, as a list of rules. -/
lemma isBreak_iff_decides {index : ℕ} (hpos : index ≠ 0) (hlt : index < text.length)
    (hsurrogate : text[index - 1]?.any isUtf16Surrogate = false) :
    isBreak text index = true ↔
      Decides (getCharProperty text (index - 1)) (getCharProperty text index)
        (∃ left, collapseLeft text index = some left ∧
          Joins (nextLeft text left) (getCharProperty text left) (getCharProperty text index)
            (nextRight text (text.length - (index + 1)))) := by
  rw [isBreak, if_neg (not_or.mpr ⟨hpos, not_le.mpr hlt⟩), hsurrogate,
    if_neg Bool.false_ne_true, Decides]
  simp only [if_false_eq_true_iff, if_true_eq_true_iff]
  refine and_congr_right fun _ => or_congr_right (or_congr_right (and_congr_right fun _ =>
    and_congr_right fun _ => ?_))
  cases hleft : collapseLeft text index with
  | none => simp
  | some left =>
    simp only [if_false_eq_true_iff, some.injEq, exists_eq_left', joins_iff, not_or, and_true]

/-- What the rules decide, in the order of the code. -/
lemma allows_iff_decides {l r : List (Option CharProperty)} (hl : l.getLast? = some left)
    (hr : r.head? = some right) :
    Allows l r ↔ Decides left right
      (Joins (rewriteAfter false l).reverse[1]?.join (rewriteAfter false l).reverse[0]?.join
        (rewriteAfter true r)[0]?.join (rewriteAfter true r)[1]?.join) := by
  rw [Allows, hl, hr, Decides]
  simp only [if_false_left, if_true_left, not_or, and_imp]
  refine and_congr_right fun _ => ?_
  by_cases hleft : isNewline left
  · simp [hleft]
  · by_cases hright : isNewline right
    · simp [hright]
    · simp [hleft, hright]

lemma Alike.symm (h : Alike p q) : Alike q p := h.imp Eq.symm And.symm

/-- What is like an inert property is inert. -/
lemma Alike.inert (h : Alike p q) (hq : Inert q) : Inert p := by
  rcases h with rfl | ⟨hp, -⟩
  · exact hq
  · exact hp

section Joins

variable (l r : List Char) (d : Char)

/-- What is found to the right. -/
theorem nextRight_utf16 (hd : wordBreakProperty d ≠ none) : nextRight (utf16 l ++ utf16 (d :: r))
        ((utf16 l ++ utf16 (d :: r)).length - ((utf16 l).length + 1)) =
      (rewriteAfter true (r.map wordBreakProperty)).head?.join := by
  have hlt : d.toNat < 0x10000 := not_le.mp fun hle => hd (wordBreakProperty_of_le hle)
  obtain ⟨u, heq, -⟩ := utf16Char_eq_singleton hlt
  rw [utf16, utf16, flatMap_cons, heq, singleton_append, append_cons,
    head_rewriteAfter_true, ← head_dropWhile_expand, ← unitProperties_utf16]
  have hlength : (utf16 l ++ [u] ++ utf16 r).length - ((utf16 l).length + 1) =
      (utf16 r).length := by
    simp only [List.length_append, length_singleton]
    omega
  rw [← nextRight_append (utf16 l ++ [u])]
  exact congrArg _ hlength

/-- The loops and the rewriting lead to the same result. -/
theorem exists_joins_iff (b : List UInt16) {nextRight nextRight' : Option CharProperty}
    (hright : right = none ∨ nextRight = nextRight') :
    (∃ left, collapseLeft (utf16 l ++ b) (utf16 l).length = some left ∧
      Joins (nextLeft (utf16 l ++ b) left) (getCharProperty (utf16 l ++ b) left) right nextRight) ↔
    Joins (rewriteAfter false (l.map wordBreakProperty)).reverse[1]?.join
      (rewriteAfter false (l.map wordBreakProperty)).reverse[0]?.join right nextRight' := by
  have halike := alike_head_rewriteAfter (l.map wordBreakProperty)
  rw [← map_reverse] at halike
  have hzero : ∀ ps : List (Option CharProperty), ps[0]? = ps.head? := fun ps =>
    head?_eq_getElem?.symm
  rw [hzero]
  rcases hright with rfl | rfl
  · exact iff_of_false (fun ⟨_, _, h⟩ => h.right_ne_none rfl) fun h => h.right_ne_none rfl
  · cases hdrop : (l.reverse.map wordBreakProperty).dropWhile isIgnored with
    | nil =>
      have hnone := (collapseLeft_append (utf16 l) b).1
        (by rw [reverse_unitProperties_utf16]; exact dropWhile_expand_nil hdrop)
      rw [hdrop] at halike
      rw [hnone]
      exact iff_of_false nofun fun h => h.not_inert_left (halike.inert (.inl rfl))
    | cons x rest =>
      obtain ⟨rest', hexpand, hnext⟩ := dropWhile_expand_cons hdrop
      obtain ⟨left, hleft, hx, hnextLeft⟩ := (collapseLeft_append (utf16 l) b).2
        (by rw [reverse_unitProperties_utf16]; exact hexpand)
      rw [hdrop] at halike
      rw [hleft]
      simp only [some.injEq, exists_eq_left', hx, hnextLeft]
      by_cases hinert : Inert x
      · exact iff_of_false (fun h => h.not_inert_left hinert) fun h =>
          h.not_inert_left (halike.inert hinert)
      · have hbefore := rewriteAfter_of_dropWhile (by rwa [← map_reverse])
          (Bool.eq_false_iff.mpr fun hnewline => hinert (.inr (.inr hnewline)))
        have halike' := alike_head_rewriteAfter rest.reverse
        rw [reverse_reverse, ← hnext.resolve_left fun hnone => hinert (.inl hnone)] at halike'
        rw [hbefore, getElem?_cons_succ, hzero, head?_cons]
        exact ⟨Joins.of_alike halike'.symm, Joins.of_alike halike'⟩

end Joins

/-- Between two halves of a pair there is no boundary. -/
theorem isBreak_of_splitsPair {i : ℕ} (h : SplitsPair text i) : isBreak text i = false := by
  obtain ⟨u, w, hpos, hu, hw, hhigh, -⟩ := h
  have hlt := (List.getElem?_eq_some_iff.mp hw).1
  rw [isBreak, if_neg (not_or.mpr ⟨ne_of_gt hpos, not_le.mpr hlt⟩), hu, any_some,
    if_pos (isUtf16Surrogate_of (.inl hhigh))]

section Boundary

variable {l r : List Char} {c d : Char}

/-- The property at a character is that of the character. -/
lemma getCharProperty_utf16 (a : List UInt16) (d : Char) (r : List Char) :
    getCharProperty (a ++ utf16 (d :: r)) a.length = wordBreakProperty d := by
  rw [utf16, flatMap_cons]
  have hunits := unitProperties_utf16Char d
  generalize utf16Char d = units at hunits
  cases units with
  | nil => rcases hunits with h | ⟨-, h⟩ <;> cases h
  | cons u units =>
    rw [cons_append, getCharProperty_append]
    rcases hunits with h | ⟨hnone, h⟩
    · exact (cons_eq_cons.mp h).1
    · rw [hnone]
      exact (cons_eq_cons.mp h).1

lemma length_utf16_pos (d : Char) (r : List Char) : 0 < (utf16 (d :: r)).length := by
  rw [utf16, flatMap_cons, length_append, utf16Char]
  refine Nat.add_pos_left ?_ _
  split <;> exact Nat.zero_lt_succ _

/-- The last rules only matter where the first ones do not decide. -/
lemma decides_congr {joins joins' : Prop}
    (h : isNewline right = false → isIgnored right = false → (joins ↔ joins')) :
    Decides left right joins ↔ Decides left right joins' := by
  refine and_congr_right fun _ => or_congr_right ?_
  by_cases hnewline : isNewline right
  · exact iff_of_true (.inl hnewline) (.inl hnewline)
  · refine or_congr_right (and_congr_right fun _ => and_congr_right fun hignored => not_congr ?_)
    exact h (Bool.eq_false_iff.mpr hnewline) (Bool.eq_false_iff.mpr hignored)

/-- A boundary after a character of the basic plane. -/
theorem isBreak_iff_allows_of_lt (hc : c.toNat < 0x10000) :
    isBreak (utf16 (l ++ [c] ++ d :: r)) (utf16 (l ++ [c])).length = true ↔
      Allows ((l ++ [c]).map wordBreakProperty) ((d :: r).map wordBreakProperty) := by
  obtain ⟨u, heq, hu⟩ := utf16Char_eq_singleton hc
  have hl : utf16 (l ++ [c]) = utf16 l ++ [u] := by
    rw [utf16_append, utf16, utf16, flatMap_cons, heq, flatMap_nil, append_nil]
  have hlength : (utf16 (l ++ [c])).length = (utf16 l).length + 1 := by
    rw [hl, length_append, length_singleton]
  have htext : utf16 (l ++ [c]) ++ utf16 (d :: r) = utf16 l ++ u :: utf16 (d :: r) := by
    rw [hl, append_assoc, singleton_append]
  have hsurrogate : isUtf16Surrogate u = false := by
    have hvalid := toNat_lt_or_ge c
    rw [Bool.eq_false_iff, Ne, isUtf16Surrogate_iff, hu]
    omega
  have hleft : getCharProperty (utf16 (l ++ [c]) ++ utf16 (d :: r))
      ((utf16 (l ++ [c])).length - 1) = wordBreakProperty c := by
    rw [htext, hlength, Nat.add_sub_cancel, getCharProperty_append, hu, wordBreakProperty,
      if_pos hc,
      find_eq_assigned]
  have hlast : ((l ++ [c]).map wordBreakProperty).getLast? = some (wordBreakProperty c) := by
    rw [map_append]
    exact getLast?_concat
  rw [utf16_append, map_cons, isBreak_iff_decides, hleft, getCharProperty_utf16,
    allows_iff_decides hlast head?_cons]
  · refine decides_congr fun hnewline hignored => ?_
    rw [rewriteAfter, hignored, Bool.and_false, if_neg Bool.false_ne_true, hnewline]
    refine exists_joins_iff (l ++ [c]) (utf16 (d :: r)) ?_
    rw [or_iff_not_imp_left]
    intro hd
    rw [nextRight_utf16 (l ++ [c]) r d hd]
    rw [getElem?_cons_succ, head?_eq_getElem?]
    rfl
  · rw [hlength]
    exact Nat.succ_ne_zero _
  · rw [length_append]
    exact Nat.lt_add_of_pos_right (length_utf16_pos d r)
  · rw [htext, hlength, Nat.add_sub_cancel, getElem?_append_right (le_refl _), Nat.sub_self]
    exact hsurrogate

/-- There is no break behind any other character. -/
theorem isBreak_of_le (hc : 0x10000 ≤ c.toNat) :
    isBreak (utf16 (l ++ [c] ++ d :: r)) (utf16 (l ++ [c])).length = false := by
  obtain ⟨u, w, heq, -, hw⟩ := utf16Char_eq_pair hc
  have hl : utf16 (l ++ [c]) = utf16 l ++ [u, w] := by
    rw [utf16_append, utf16, utf16, flatMap_cons, heq, flatMap_nil, append_nil]
  have hlength : (utf16 (l ++ [c])).length = (utf16 l).length + 2 := by
    rw [hl, length_append]
    rfl
  have hlast : (utf16 (l ++ [c]) ++ utf16 (d :: r))[(utf16 l).length + 2 - 1]? = some w := by
    rw [hl, append_assoc, getElem?_append_right (by omega),
      show (utf16 l).length + 2 - 1 - (utf16 l).length = 1 by omega]
    rfl
  have hpos := length_utf16_pos d r
  rw [utf16_append, isBreak, if_neg, hlength, hlast, any_some,
    if_pos (isUtf16Surrogate_of (.inr hw))]
  rw [length_append, hlength]
  omega

/-- Behind such a character the rules allow a break, unless the next one is ignored. -/
lemma allows_iff_of_le (hc : 0x10000 ≤ c.toNat) :
    Allows ((l ++ [c]).map wordBreakProperty) ((d :: r).map wordBreakProperty) ↔
      isIgnored (wordBreakProperty d) = false := by
  have hnone := wordBreakProperty_of_le hc
  have hinert : Inert
      (rewriteAfter false ((l ++ [c]).map wordBreakProperty)).reverse.head?.join := by
    refine (alike_head_rewriteAfter _).inert (.inl ?_)
    rw [← map_reverse, reverse_append, reverse_singleton, singleton_append, map_cons, hnone]
    rfl
  have hlast : ((l ++ [c]).map wordBreakProperty).getLast? = some none := by
    rw [map_append, map_singleton, hnone]
    exact getLast?_concat
  rw [map_cons, allows_iff_decides hlast head?_cons]
  constructor
  · rintro ⟨-, hnewline | hnewline | ⟨-, hignored, -⟩⟩
    · cases hnewline
    · by_contra hignored
      rw [isNewline_eq_false (Bool.not_eq_false _ ▸ hignored)] at hnewline
      cases hnewline
    · exact Bool.eq_false_iff.mpr hignored
  · intro hignored
    refine ⟨nofun, .inr (.inr ⟨nofun, Bool.eq_false_iff.mp hignored, fun hjoins => ?_⟩)⟩
    rw [← head?_eq_getElem?] at hjoins
    exact hjoins.not_inert_left hinert

end Boundary

/-- The word breaker follows the rules at each boundary of characters, unless the first of the two
characters is outside of the basic plane and the second is not removed by WB4; and it never breaks a
character. -/
theorem isBreak_iff_allows (l r : List Char) :
    ((isBreak (utf16 (l ++ r)) (utf16 l).length = true ↔
        Allows (l.map wordBreakProperty) (r.map wordBreakProperty)) ↔
      ¬∃ c d, l.getLast? = some c ∧ r.head? = some d ∧ 0x10000 ≤ c.toNat ∧
        isIgnored (wordBreakProperty d) = false) ∧
    ∀ i, SplitsPair (utf16 (l ++ r)) i → isBreak (utf16 (l ++ r)) i = false := by
  refine ⟨?_, fun i => isBreak_of_splitsPair⟩
  rcases eq_nil_or_concat l with rfl | ⟨l, c, rfl⟩
  · refine iff_of_true (iff_of_true (isBreak_zero _) trivial) ?_
    rintro ⟨c, d, hc, -⟩
    cases hc
  · rw [concat_eq_append]
    cases r with
    | nil =>
      rw [append_nil]
      refine iff_of_true (iff_of_true (isBreak_length _) ?_) ?_
      · rw [Allows]
        split <;> simp_all
      · rintro ⟨c, d, -, hd, -⟩
        cases hd
    | cons d r =>
      rcases lt_or_ge c.toNat 0x10000 with hlt | hge
      · refine iff_of_true (isBreak_iff_allows_of_lt hlt) ?_
        rintro ⟨c', d', hc', -, hge, -⟩
        obtain rfl : c = c' := by simpa using hc'
        omega
      · rw [isBreak_of_le hge, allows_iff_of_le hge]
        cases hignored : isIgnored (wordBreakProperty d) with
        | false =>
          refine iff_of_false (fun h => absurd (h.mpr rfl) Bool.false_ne_true) (not_not.mpr ?_)
          exact ⟨c, d, getLast?_concat, rfl, hge, hignored⟩
        | true =>
          refine iff_of_true (iff_of_false Bool.false_ne_true (by simp)) ?_
          rintro ⟨c', d', -, hd', -, hfalse⟩
          obtain rfl : d = d' := by simpa using hd'
          rw [hignored] at hfalse
          cases hfalse

/-- After a character outside of the basic plane, a letter is not taken for a new word. -/
theorem isBreak_after_grinning :
    isBreak (utf16 (['😀'] ++ ['a'])) (utf16 ['😀']).length = false ∧
      Allows (['😀'].map wordBreakProperty) (['a'].map wordBreakProperty) :=
  ⟨by decide +kernel, (allows_iff_of_le (l := []) (by decide)).mpr (by decide +kernel)⟩

end WebUi.WordBreaker
