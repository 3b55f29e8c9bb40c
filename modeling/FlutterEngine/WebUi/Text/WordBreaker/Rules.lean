import FlutterEngine.Lib.Utf
import FlutterEngine.WebUi.Text.WordBreaker

/-!
# The word boundary rules

The rules of Unicode Standard Annex 29 that the source cites, over the word break properties of
characters. WB4 is taken literally, as a rewriting of the text (`rewriteAfter`). The source looks
past the characters that this rewriting removes instead.

`isBreak_iff_allows` compares the two. They agree everywhere except between a character outside of
the basic plane and one that WB4 does not remove: the source takes the end of each surrogate pair
for its inside.
-/

namespace WebUi.WordBreaker

open Lib List

/-! ## The rules -/

/-- The word break property of a character. Outside of the basic plane, there is none. -/
def wordBreakProperty (c : Char) : Option CharProperty :=
  if c.toNat < 0x10000 then lookup.assigned c.toNat else none

def isNewline (property : Option CharProperty) : Bool := oneOf property [.newline, .cr, .lf]

/-- WB4: a sequence `X (Extend | Format | ZWJ)*` is treated as `X`, except after the start of the
text and after newlines. The flag says whether the next character may be attached to the last one.
-/
def rewriteAfter : Bool → List (Option CharProperty) → List (Option CharProperty)
  | _, [] => []
  | attaches, p :: ps =>
    if attaches && isIgnored p then rewriteAfter true ps else p :: rewriteAfter (!isNewline p) ps

/-- The rules that forbid a break after WB4. -/
@[mk_iff]
inductive Joins (nextLeft left right nextRight : Option CharProperty) : Prop
  | wb5 (left : isAHLetter left) (right : isAHLetter right)
  | wb6 (left : isAHLetter left) (right : oneOf right [.midLetter, .midNumLet, .singleQuote])
      (nextRight : isAHLetter nextRight)
  | wb7 (nextLeft : isAHLetter nextLeft) (left : oneOf left [.midLetter, .midNumLet, .singleQuote])
      (right : isAHLetter right)
  | wb7a (left : left = some .hebrewLetter) (right : right = some .singleQuote)
  | wb7b (left : left = some .hebrewLetter) (right : right = some .doubleQuote)
      (nextRight : nextRight = some .hebrewLetter)
  | wb7c (nextLeft : nextLeft = some .hebrewLetter) (left : left = some .doubleQuote)
      (right : right = some .hebrewLetter)
  | wb8 (left : left = some .numeric) (right : right = some .numeric)
  | wb9 (left : isAHLetter left) (right : right = some .numeric)
  | wb10 (left : left = some .numeric) (right : isAHLetter right)
  | wb11 (nextLeft : nextLeft = some .numeric)
      (left : oneOf left [.midNum, .midNumLet, .singleQuote])
      (right : right = some .numeric)
  | wb12 (left : left = some .numeric) (right : oneOf right [.midNum, .midNumLet, .singleQuote])
      (nextRight : nextRight = some .numeric)
  | wb13 (left : left = some .katakana) (right : right = some .katakana)
  | wb13a (left : oneOf left [.aLetter, .hebrewLetter, .numeric, .katakana, .extendNumLet])
      (right : right = some .extendNumLet)
  | wb13b (left : left = some .extendNumLet)
      (right : oneOf right [.aLetter, .hebrewLetter, .numeric, .katakana])

/-- Whether a break is allowed between two parts of a text. The first rule that applies decides. -/
def Allows (l r : List (Option CharProperty)) : Prop :=
  match l.getLast?, r.head? with
  -- WB1, WB2
  | none, _ => True
  | _, none => True
  | some left, some right =>
    -- WB3
    if left = some .cr ∧ right = some .lf then False
    -- WB3a, WB3b
    else if isNewline left ∨ isNewline right then True
    -- WB3d
    else if left = some .wSegSpace ∧ right = some .wSegSpace then False
    -- WB4
    else if isIgnored right then False
    -- WB5 to WB13b, WB999
    else
      let before := (rewriteAfter false l).reverse
      let after := rewriteAfter true r
      ¬Joins before[1]?.join before[0]?.join after[0]?.join after[1]?.join

/-! ## Rewriting -/

/-- A property that no rule after WB4 mentions. -/
def Inert (p : Option CharProperty) : Prop := p = none ∨ isIgnored p ∨ isNewline p

/-- No rule tells two properties apart. -/
def Alike (p q : Option CharProperty) : Prop := p = q ∨ Inert p ∧ Inert q

section

variable {nextLeft nextLeft' left right nextRight : Option CharProperty}
  {l r ps : List (Option CharProperty)} {p : Option CharProperty}

/-- Which properties are inert. -/
lemma inert_iff : Inert p ↔ p = none ∨ p = some .extend ∨ p = some .format ∨ p = some .zwj ∨
    p = some .newline ∨ p = some .cr ∨ p = some .lf := by
  simp only [Inert, isIgnored, isNewline, oneOf, any_cons, any_nil, Bool.or_false,
    Bool.or_eq_true, decide_eq_true_eq, or_assoc]

/-- What is joined on the left is not inert. -/
lemma Joins.not_inert_left (h : Joins nextLeft left right nextRight) : ¬Inert left := by
  intro hinert
  rcases inert_iff.mp hinert with rfl | rfl | rfl | rfl | rfl | rfl | rfl <;> cases h <;>
    simp_all [isAHLetter, oneOf]

lemma Joins.right_ne_none (h : Joins nextLeft left right nextRight) : right ≠ none := by
  rintro rfl
  cases h <;> simp_all [isAHLetter, oneOf]

/-- Alike properties join alike. -/
lemma Joins.of_alike (halike : Alike nextLeft nextLeft')
    (h : Joins nextLeft left right nextRight) : Joins nextLeft' left right nextRight := by
  rcases halike with rfl | ⟨hinert, -⟩
  · exact h
  · have hnot : isAHLetter nextLeft = false ∧ nextLeft ≠ some .hebrewLetter ∧
        nextLeft ≠ some .numeric := by
      rcases inert_iff.mp hinert with rfl | rfl | rfl | rfl | rfl | rfl | rfl <;> decide
    cases h with
    | wb5 hleft hright => exact .wb5 hleft hright
    | wb6 hleft hright hnext => exact .wb6 hleft hright hnext
    | wb7 hnext =>
      rw [hnot.1] at hnext
      cases hnext
    | wb7a hleft hright => exact .wb7a hleft hright
    | wb7b hleft hright hnext => exact .wb7b hleft hright hnext
    | wb7c hnext => exact absurd hnext hnot.2.1
    | wb8 hleft hright => exact .wb8 hleft hright
    | wb9 hleft hright => exact .wb9 hleft hright
    | wb10 hleft hright => exact .wb10 hleft hright
    | wb11 hnext => exact absurd hnext hnot.2.2
    | wb12 hleft hright hnext => exact .wb12 hleft hright hnext
    | wb13 hleft hright => exact .wb13 hleft hright
    | wb13a hleft hright => exact .wb13a hleft hright
    | wb13b hleft hright => exact .wb13b hleft hright

/-- The end of a text is attached to what is in front of it. -/
def attachesAfter (attaches : Bool) (l : List (Option CharProperty)) : Bool :=
  (l.getLast?.map (!isNewline ·)).getD attaches

lemma isNewline_eq_false (h : isIgnored p = true) : isNewline p = false := by
  have hcases : p = some .extend ∨ p = some .format ∨ p = some .zwj := by
    simpa [isIgnored, oneOf] using h
  rcases hcases with rfl | rfl | rfl <;> rfl

/-- Rewriting with one more property. -/
lemma rewriteAfter_append (attaches : Bool) :
    rewriteAfter attaches (l ++ [p]) = rewriteAfter attaches l ++
      if attachesAfter attaches l && isIgnored p then [] else [p] := by
  induction l generalizing attaches with
  | nil =>
    rw [List.nil_append, rewriteAfter, rewriteAfter, rewriteAfter, rewriteAfter, attachesAfter]
    rfl
  | cons q l ih =>
    have hflag : attachesAfter attaches (q :: l) = attachesAfter (!isNewline q) l := by
      rw [attachesAfter, attachesAfter, getLast?_cons]
      cases l.getLast? <;> rfl
    rw [cons_append, rewriteAfter, rewriteAfter, hflag]
    split
    · next hattached =>
      have hignored := (Bool.and_eq_true_iff.mp hattached).2
      rw [ih, isNewline_eq_false hignored]
      rfl
    · rw [ih]
      rfl

/-- The last character that is not removed is found by looking past those that may be removed. -/
theorem alike_head_rewriteAfter (l : List (Option CharProperty)) :
    Alike (rewriteAfter false l).reverse.head?.join (l.reverse.dropWhile isIgnored).head?.join := by
  induction l using List.reverseRecOn with
  | nil => exact .inl rfl
  | append_singleton l p ih =>
    rw [rewriteAfter_append, reverse_append, reverse_append, reverse_singleton, singleton_append]
    cases hignored : isIgnored p with
    | false =>
      rw [Bool.and_false, if_neg Bool.false_ne_true,
        dropWhile_cons_of_neg (by simpa using hignored)]
      exact .inl rfl
    | true =>
      rw [dropWhile_cons_of_pos hignored, Bool.and_true]
      cases hattaches : attachesAfter false l with
      | true => exact ih
      | false =>
        -- the character starts the text or follows a newline
        refine .inr ⟨.inr (.inl hignored), ?_⟩
        rw [attachesAfter] at hattaches
        cases hlast : l.getLast? with
        | none =>
          rw [getLast?_eq_none_iff.mp hlast]
          exact .inl rfl
        | some q =>
          rw [hlast, Option.map_some, Option.getD_some, Bool.not_eq_false'] at hattaches
          obtain ⟨l', rfl⟩ := getLast?_eq_some_iff.mp hlast
          rw [reverse_append, reverse_singleton, singleton_append, dropWhile_cons_of_neg]
          · exact .inr (.inr hattaches)
          · intro hq
            rw [isNewline_eq_false hq] at hattaches
            cases hattaches

/-- A character that is not removed, and what is in front of it. -/
theorem rewriteAfter_of_dropWhile {x : Option CharProperty} {rest : List (Option CharProperty)}
    (h : l.reverse.dropWhile isIgnored = x :: rest) (hx : isNewline x = false) :
    (rewriteAfter false l).reverse = x :: (rewriteAfter false rest.reverse).reverse := by
  induction l using List.reverseRecOn with
  | nil => cases h
  | append_singleton l p ih =>
    rw [reverse_append, reverse_singleton, singleton_append] at h
    rw [rewriteAfter_append, reverse_append]
    cases hignored : isIgnored p with
    | false =>
      rw [dropWhile_cons_of_neg (by simpa using hignored)] at h
      obtain ⟨rfl, rfl⟩ := cons_eq_cons.mp h
      rw [Bool.and_false, if_neg Bool.false_ne_true, reverse_reverse]
      rfl
    | true =>
      rw [dropWhile_cons_of_pos hignored] at h
      have hattaches : attachesAfter false l = true := by
        cases hlast : l.getLast? with
        | none =>
          rw [getLast?_eq_none_iff.mp hlast] at h
          cases h
        | some q =>
          rw [attachesAfter, hlast, Option.map_some, Option.getD_some, Bool.not_eq_true']
          obtain ⟨l', rfl⟩ := getLast?_eq_some_iff.mp hlast
          rw [reverse_append, reverse_singleton, singleton_append] at h
          cases hq : isIgnored q with
          | true => exact isNewline_eq_false hq
          | false =>
            rw [dropWhile_cons_of_neg (by simpa using hq)] at h
            rw [(cons_eq_cons.mp h).1]
            exact hx
      rw [hattaches, Bool.and_true, if_pos rfl]
      exact ih h

/-- What rewriting starts with. -/
lemma head_rewriteAfter_true (ps : List (Option CharProperty)) :
    (rewriteAfter true ps).head? = (ps.dropWhile isIgnored).head? := by
  induction ps with
  | nil => rfl
  | cons p ps ih =>
    rw [rewriteAfter, dropWhile_cons]
    cases isIgnored p with
    | true => exact ih
    | false => rfl

end

end WebUi.WordBreaker
