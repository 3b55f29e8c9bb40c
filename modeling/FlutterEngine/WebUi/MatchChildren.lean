import Mathlib.Data.List.Sort

/-!
# Matching new children with old ones

`PersistedContainerSurface._matchChildren` decides which old child each new child of a container
takes its DOM elements from. It lists all the compatible pairs, sorts them by their scores, of which
lower ones are better, and walks through them. An old child that has been claimed is taken out of
the old children. A new child that has claimed an old one is not taken out of the new children,
though: it also claims every other old child of which it is the first candidate, and the map only
keeps the last one.

Thus the map is injective, but a child that was claimed and given up again is lost to all others.
`isStableMatching_iff` says exactly when that matters, in terms of the first candidates of the old
children in the sorted order (`claims`) and of the scores.

Surfaces, their states, their compatibility and the scores are arbitrary here.
-/

namespace WebUi

open List Option

/-- `_PersistedSurfaceMatch` -/
structure PersistedSurfaceMatch (α S : Type*) where
  newChild : α
  oldChildIndex : ℕ
  matchQuality : S
deriving DecidableEq, Repr

/-- How matches are sorted by their quality. The order of equally good ones is up to the
library. -/
structure MatchSort (α S : Type*) [LE S] where
  sort : List (PersistedSurfaceMatch α S) → List (PersistedSurfaceMatch α S)
  sort_perm : ∀ l, (sort l).Perm l
  sort_sorted : ∀ l, (sort l).Pairwise fun m₁ m₂ => m₁.matchQuality ≤ m₂.matchQuality

/-- What `_matchChildren` reads of surfaces. -/
structure SurfaceView (α S : Type*) where
  isCreated : α → Bool
  isActive : α → Bool
  canUpdateAsMatch : α → α → Bool
  matchForUpdate : α → α → S

section Model

variable {α S : Type*} [DecidableEq α] [LE S]

/-- The pairs of new and old children that are compatible. -/
def allMatches (view : SurfaceView α S) (newChildren oldChildren : List α) :
    List (PersistedSurfaceMatch α S) :=
  newChildren.flatMap fun newChild =>
    oldChildren.zipIdx.filterMap fun (oldChild, indexInOld) =>
      if view.canUpdateAsMatch newChild oldChild then
        some ⟨newChild, indexInOld, view.matchForUpdate newChild oldChild⟩
      else none

omit [DecidableEq α] [LE S] in
/-- Which pairs are matches. -/
lemma mem_allMatches {view : SurfaceView α S} {newChildren oldChildren : List α}
    {m : PersistedSurfaceMatch α S} :
    m ∈ allMatches view newChildren oldChildren ↔
      m.newChild ∈ newChildren ∧ ∃ o, oldChildren[m.oldChildIndex]? = some o ∧
        view.canUpdateAsMatch m.newChild o ∧ m.matchQuality = view.matchForUpdate m.newChild o := by
  obtain ⟨n, i, quality⟩ := m
  simp only [allMatches, mem_flatMap, mem_filterMap, Prod.exists,
    mem_zipIdx_iff_getElem?, ite_none_right_eq_some, some.injEq,
    PersistedSurfaceMatch.mk.injEq]
  constructor
  · rintro ⟨n, hn, o, i, ho, hcan, rfl, rfl, rfl⟩
    exact ⟨hn, o, ho, hcan, rfl⟩
  · rintro ⟨hn, o, ho, hcan, rfl⟩
    exact ⟨n, hn, o, i, ho, hcan, rfl, rfl, rfl⟩

/-- The loop that claims old children. One that has been claimed is `none`. -/
def claimMatches : List (PersistedSurfaceMatch α S) → List (Option α) → (α → Option α) →
    α → Option α
  | [], _, result => result
  | m :: ms, oldChildren, result =>
    match oldChildren[m.oldChildIndex]?.join with
    | some matchedChild =>
      claimMatches ms (oldChildren.set m.oldChildIndex none)
        (Function.update result m.newChild (some matchedChild))
    | none => claimMatches ms oldChildren result

/-- `_matchChildren` -/
def matchChildren (sorting : MatchSort α S) (view : SurfaceView α S)
    (children oldSurface : List α) : α → Option α :=
  let newChildren := children.filter view.isCreated
  let oldChildren := oldSurface.filter view.isActive
  if newChildren.length = 0 ∨ oldChildren.length = 0 then
    fun _ => none
  else
    claimMatches (sorting.sort (allMatches view newChildren oldChildren)) (oldChildren.map some)
      fun _ => none

end Model

/-! ## Claims -/

section Claims

variable {α S : Type*}
variable {m c : PersistedSurfaceMatch α S} {ms : List (PersistedSurfaceMatch α S)} {n o : α}

/-- The matches that claim an old child: the first one for each of them. -/
def claims : List (PersistedSurfaceMatch α S) → List (PersistedSurfaceMatch α S)
  | [] => []
  | m :: ms => m :: (claims ms).filter fun c => c.oldChildIndex ≠ m.oldChildIndex

/-- A claim is the first match of its old child. -/
lemma mem_claims_cons :
    c ∈ claims (m :: ms) ↔ c = m ∨ (c ∈ claims ms ∧ c.oldChildIndex ≠ m.oldChildIndex) := by
  rw [claims, mem_cons, mem_filter, decide_eq_true_iff]

/-- Claims are matches. -/
lemma mem_of_mem_claims (h : c ∈ claims ms) : c ∈ ms := by
  induction ms with
  | nil => exact h
  | cons m ms ih =>
    rcases mem_claims_cons.mp h with rfl | ⟨h, -⟩
    · exact mem_cons_self
    · exact mem_cons_of_mem m (ih h)

/-- An old child is claimed only once. -/
theorem eq_of_mem_claims {c' : PersistedSurfaceMatch α S} (h : c ∈ claims ms)
    (h' : c' ∈ claims ms) (hindex : c.oldChildIndex = c'.oldChildIndex) : c = c' := by
  induction ms with
  | nil => cases h
  | cons m ms ih =>
    rcases mem_claims_cons.mp h with rfl | ⟨h, hne⟩
    · rcases mem_claims_cons.mp h' with rfl | ⟨-, hne'⟩
      · rfl
      · exact absurd hindex.symm hne'
    · rcases mem_claims_cons.mp h' with rfl | ⟨h', -⟩
      · exact absurd hindex hne
      · exact ih h h'

/-- An old child is claimed by the best of its matches. -/
theorem exists_mem_claims [Preorder S]
    (hsorted : ms.Pairwise fun m₁ m₂ => m₁.matchQuality ≤ m₂.matchQuality) (hm : m ∈ ms) :
    ∃ c ∈ claims ms, c.oldChildIndex = m.oldChildIndex ∧ c.matchQuality ≤ m.matchQuality := by
  induction ms with
  | nil => cases hm
  | cons first ms ih =>
    obtain ⟨hfirst, hsorted⟩ := pairwise_cons.mp hsorted
    by_cases hindex : first.oldChildIndex = m.oldChildIndex
    · refine ⟨first, mem_claims_cons.mpr (.inl rfl), hindex, ?_⟩
      rcases mem_cons.mp hm with rfl | hm
      · exact le_refl _
      · exact hfirst m hm
    · have hm' : m ∈ ms := (mem_cons.mp hm).resolve_left fun h => hindex (by rw [h])
      obtain ⟨c, hc, hcm, hle⟩ := ih hsorted hm'
      have hne : c.oldChildIndex ≠ first.oldChildIndex := fun h => hindex (h.symm.trans hcm)
      exact ⟨c, mem_claims_cons.mpr (.inr ⟨hc, hne⟩), hcm, hle⟩

/-- Claims are in the order of the matches. -/
lemma claims_sublist (ms : List (PersistedSurfaceMatch α S)) : claims ms <+ ms := by
  induction ms with
  | nil => exact .slnil
  | cons m ms ih => exact (filter_sublist.trans ih).cons_cons m

/-- Claims in different places of the list are for different old children. -/
lemma pairwise_claims (ms : List (PersistedSurfaceMatch α S)) :
    (claims ms).Pairwise fun c c' => c.oldChildIndex ≠ c'.oldChildIndex := by
  induction ms with
  | nil => exact .nil
  | cons m ms ih =>
    refine pairwise_cons.mpr ⟨fun c hc => ?_, ih.sublist filter_sublist⟩
    exact (of_decide_eq_true (mem_filter.mp hc).2).symm

omit S in
/-- Elements that are of no use may be left out of a search. -/
lemma findSome?_filter {γ : Type*} {l : List γ} {p : γ → Bool} {f g : γ → Option α}
    (hpos : ∀ c, p c → f c = g c) (hneg : ∀ c, ¬p c → g c = none) :
    (l.filter p).findSome? f = l.findSome? g := by
  induction l with
  | nil => rfl
  | cons c l ih =>
    by_cases hc : p c
    · rw [filter_cons_of_pos hc, findSome?_cons, findSome?_cons, hpos c hc, ih]
    · rw [filter_cons_of_neg hc, findSome?_cons, hneg c hc, ih]

/-- What the loop leaves for a new child: the old child of its last claim that was still there. -/
theorem claimMatches_eq [DecidableEq α] {oldChildren : List (Option α)} {result : α → Option α} :
    claimMatches ms oldChildren result n = ((claims ms).reverse.findSome? fun c =>
      if c.newChild = n then oldChildren[c.oldChildIndex]?.join else none).or (result n) := by
  induction ms generalizing oldChildren result with
  | nil => rfl
  | cons m ms ih =>
    have hrest {oldChildren' : List (Option α)}
        (hne : ∀ i, i ≠ m.oldChildIndex → oldChildren'[i]? = oldChildren[i]?)
        (hself : oldChildren'[m.oldChildIndex]?.join = none) :
        ((claims ms).filter fun c => c.oldChildIndex ≠ m.oldChildIndex).reverse.findSome? (fun c =>
          if c.newChild = n then oldChildren[c.oldChildIndex]?.join else none) =
        (claims ms).reverse.findSome? fun c =>
          if c.newChild = n then oldChildren'[c.oldChildIndex]?.join else none := by
      rw [← filter_reverse]
      refine findSome?_filter (fun c hc => ?_) fun c hc => ?_
      · rw [hne _ (of_decide_eq_true hc)]
      · rw [not_not.mp fun h => hc (decide_eq_true h), hself, ite_self]
    rw [claimMatches, claims, reverse_cons, findSome?_append]
    cases hslot : oldChildren[m.oldChildIndex]?.join with
    | none =>
      rw [hrest (fun _ _ => rfl) hslot]
      simp only [ih, findSome?_singleton, hslot, ite_self, Option.or_none]
    | some matchedChild =>
      have hself : (oldChildren.set m.oldChildIndex none)[m.oldChildIndex]?.join = none := by
        rw [getElem?_set_self']
        cases oldChildren[m.oldChildIndex]? <;> rfl
      rw [hrest (fun i hi => getElem?_set_ne hi.symm) hself]
      simp only [ih, findSome?_singleton, hslot, Option.or_assoc]
      congr 1
      by_cases hn : m.newChild = n
      · rw [if_pos hn, ← hn, Function.update_self]
        rfl
      · rw [if_neg hn, Function.update_of_ne (Ne.symm hn), Option.none_or]

end Claims

/-! ## Stability -/

section Stability

variable {α S : Type*} [DecidableEq α] [LinearOrder S] (sorting : MatchSort α S)
  (view : SurfaceView α S) (children oldSurface : List α)

/-- The matches of a container's children in the order in which they are tried. -/
def sortedMatches : List (PersistedSurfaceMatch α S) :=
  sorting.sort (allMatches view (children.filter view.isCreated) (oldSurface.filter view.isActive))

/-- A matching is injective, and no new child without an old layer and no old child would both
rather be matched with each other. -/
structure IsStableMatching (hasOldLayer : α → Bool) (result : α → Option α) : Prop where
  injective : ∀ n n' o, result n = some o → result n' = some o → n = n'
  stable : ∀ n ∈ children, view.isCreated n → ¬hasOldLayer n →
    ∀ o ∈ oldSurface, view.isActive o → view.canUpdateAsMatch n o →
      ¬((∀ o', result n = some o' → view.matchForUpdate n o < view.matchForUpdate n o') ∧
        ∀ n', result n' = some o → view.matchForUpdate n o < view.matchForUpdate n' o)

variable {sorting view children oldSurface} {m : PersistedSurfaceMatch α S} {n o : α}

omit [DecidableEq α] in
/-- Which matches are sorted. -/
lemma mem_sortedMatches : m ∈ sortedMatches sorting view children oldSurface ↔
      m.newChild ∈ children.filter view.isCreated ∧
        ∃ o, (oldSurface.filter view.isActive)[m.oldChildIndex]? = some o ∧
          view.canUpdateAsMatch m.newChild o ∧
          m.matchQuality = view.matchForUpdate m.newChild o := by
  rw [sortedMatches, (sorting.sort_perm _).mem_iff, mem_allMatches]

omit [DecidableEq α] in
/-- An old child with a claim is there. -/
lemma exists_oldChild_of_mem_claims
    (hm : m ∈ claims (sortedMatches sorting view children oldSurface)) :
    ∃ o, (oldSurface.filter view.isActive)[m.oldChildIndex]? = some o ∧
      m.matchQuality = view.matchForUpdate m.newChild o := by
  obtain ⟨-, o, ho, -, hquality⟩ := mem_sortedMatches.mp (mem_of_mem_claims hm)
  exact ⟨o, ho, hquality⟩

/-- A new child is matched with the old child of its last claim. -/
theorem matchChildren_eq : matchChildren sorting view children oldSurface n =
    (claims (sortedMatches sorting view children oldSurface)).reverse.findSome? fun c =>
      if c.newChild = n then (oldSurface.filter view.isActive)[c.oldChildIndex]? else none := by
  rw [matchChildren]
  split
  · next hnone =>
    have hmatches : sortedMatches sorting view children oldSurface = [] := by
      refine eq_nil_iff_forall_not_mem.mpr fun m hm => ?_
      obtain ⟨hn, o, ho, -⟩ := mem_sortedMatches.mp hm
      rcases hnone with hnone | hnone
      · rw [length_eq_zero_iff.mp hnone] at hn
        cases hn
      · rw [length_eq_zero_iff.mp hnone] at ho
        cases ho
    rw [hmatches]
    rfl
  · rw [claimMatches_eq, Option.or_none]
    refine congrArg (findSome? · _) (funext fun c => ?_)
    rw [getElem?_map]
    cases (oldSurface.filter view.isActive)[c.oldChildIndex]? <;> rfl

lemma matchChildren_eq_some_iff : matchChildren sorting view children oldSurface n = some o ↔
    ∃ before c after, claims (sortedMatches sorting view children oldSurface) =
      before ++ c :: after ∧ c.newChild = n ∧
      (oldSurface.filter view.isActive)[c.oldChildIndex]? = some o ∧
      ∀ c' ∈ after, c'.newChild ≠ n := by
  rw [matchChildren_eq, findSome?_eq_some_iff]
  constructor
  · rintro ⟨after, c, before, hsplit, hc, hafter⟩
    have hsplit' := reverse_eq_append_iff.mp hsplit
    rw [reverse_cons, append_assoc, singleton_append] at hsplit'
    obtain ⟨hn, hold⟩ := ite_none_right_eq_some.mp hc
    refine ⟨_, c, _, hsplit', hn, hold, fun c' hc' hn' => ?_⟩
    have hmem : c' ∈ claims (sortedMatches sorting view children oldSurface) :=
      hsplit' ▸ mem_append_right _ (mem_cons_of_mem c hc')
    obtain ⟨o', ho', -⟩ := exists_oldChild_of_mem_claims hmem
    have hnone := hafter c' (mem_reverse.mp hc')
    rw [if_pos hn', ho'] at hnone
    cases hnone
  · rintro ⟨before, c, after, hsplit, hn, hold, hafter⟩
    refine ⟨after.reverse, c, before.reverse, ?_, by rw [if_pos hn, hold], fun c' hc' => ?_⟩
    · rw [hsplit, reverse_append, reverse_cons, append_assoc, singleton_append]
    · exact if_neg (hafter c' (mem_reverse.mp hc'))

/-- A match comes from a claim. -/
lemma exists_claim_of_matchChildren
    (h : matchChildren sorting view children oldSurface n = some o) :
    ∃ c ∈ claims (sortedMatches sorting view children oldSurface), c.newChild = n ∧
      (oldSurface.filter view.isActive)[c.oldChildIndex]? = some o := by
  obtain ⟨before, c, after, hsplit, hn, hold, -⟩ := matchChildren_eq_some_iff.mp h
  exact ⟨c, hsplit ▸ mem_append_right before mem_cons_self, hn, hold⟩

omit [DecidableEq α] [LinearOrder S] in
/-- An old child is found at one index only. -/
theorem index_eq_of_nodup (hnodup : oldSurface.Nodup) {i i' : ℕ}
    (hi : (oldSurface.filter view.isActive)[i]? = some o)
    (hi' : (oldSurface.filter view.isActive)[i']? = some o) : i = i' := by
  have hlt := (List.getElem?_eq_some_iff.mp hi).1
  exact (getElem?_inj hlt (hnodup.filter _)).mp (hi.trans hi'.symm)

/-- No two new children are matched with the same old child. -/
theorem matchChildren_injective (hnodup : oldSurface.Nodup) {n' : α}
    (hn : matchChildren sorting view children oldSurface n = some o)
    (hn' : matchChildren sorting view children oldSurface n' = some o) : n = n' := by
  obtain ⟨c, hc, rfl, hco⟩ := exists_claim_of_matchChildren hn
  obtain ⟨c', hc', rfl, hco'⟩ := exists_claim_of_matchChildren hn'
  rw [eq_of_mem_claims hc hc' (index_eq_of_nodup hnodup hco hco')]

/-- An old child whose claim is followed by another one of the same new child is given up. -/
lemma matchChildren_ne_of_later (hnodup : oldSurface.Nodup)
    {before after : List (PersistedSurfaceMatch α S)} {later : PersistedSurfaceMatch α S}
    (hsplit : claims (sortedMatches sorting view children oldSurface) = before ++ m :: after)
    (hlater : later ∈ after) (hsame : later.newChild = m.newChild)
    (ho : (oldSurface.filter view.isActive)[m.oldChildIndex]? = some o) (n : α) :
    matchChildren sorting view children oldSurface n ≠ some o := by
  intro h
  obtain ⟨before', c, after', hsplit', rfl, hco, hlast⟩ := matchChildren_eq_some_iff.mp h
  have hpairwise := pairwise_claims (sortedMatches sorting view children oldSurface)
  have hc : c ∈ claims (sortedMatches sorting view children oldSurface) :=
    hsplit' ▸ mem_append_right before' mem_cons_self
  have hm : m ∈ claims (sortedMatches sorting view children oldSurface) :=
    hsplit ▸ mem_append_right before mem_cons_self
  obtain rfl : c = m := eq_of_mem_claims hc hm (index_eq_of_nodup hnodup hco ho)
  rw [hsplit', pairwise_append] at hpairwise
  obtain ⟨-, hcons, hbefore⟩ := hpairwise
  have hnotBefore : c ∉ before' := fun hmem => hbefore c hmem c mem_cons_self rfl
  have hnotAfter : c ∉ after' := fun hmem => (pairwise_cons.mp hcons).1 c hmem rfl
  obtain ⟨-, -, rfl⟩ := (append_cons_inj_of_notMem hnotBefore hnotAfter).mp
    (hsplit'.symm.trans hsplit)
  exact hlast later hlater hsame

/-- A new child has a match that is good enough exactly if it has a claim and all its claims
are. -/
lemma exists_match_le_iff {score : S} : (∃ o, matchChildren sorting view children oldSurface n =
      some o ∧ view.matchForUpdate n o ≤ score) ↔
    (∃ c ∈ claims (sortedMatches sorting view children oldSurface), c.newChild = n) ∧
      ∀ c ∈ claims (sortedMatches sorting view children oldSurface), c.newChild = n →
        c.matchQuality ≤ score := by
  constructor
  · rintro ⟨o, ho, hle⟩
    obtain ⟨before, c, after, hsplit, rfl, hco, hlast⟩ := matchChildren_eq_some_iff.mp ho
    have hc : c ∈ claims (sortedMatches sorting view children oldSurface) :=
      hsplit ▸ mem_append_right before mem_cons_self
    obtain ⟨o', ho', hquality⟩ := exists_oldChild_of_mem_claims hc
    obtain rfl : o = o' := some.inj (hco.symm.trans ho')
    refine ⟨⟨c, hc, rfl⟩, fun c' hc' hn' => ?_⟩
    -- The last claim of a new child is its worst one.
    have hsorted := (sorting.sort_sorted _).sublist
      (claims_sublist (sortedMatches sorting view children oldSurface))
    rw [hsplit] at hc' hsorted
    rcases mem_append.mp hc' with hc' | hc'
    · exact ((pairwise_append.mp hsorted).2.2 c' hc' c mem_cons_self).trans (hquality ▸ hle)
    · rcases mem_cons.mp hc' with rfl | hc'
      · exact hquality ▸ hle
      · exact absurd hn' (hlast c' hc')
  · rintro ⟨⟨c, hc, hn⟩, hle⟩
    cases hresult : matchChildren sorting view children oldSurface n with
    | none =>
      rw [matchChildren_eq, findSome?_eq_none_iff] at hresult
      obtain ⟨o, ho, -⟩ := exists_oldChild_of_mem_claims hc
      have hnone := hresult c (mem_reverse.mpr hc)
      rw [if_pos hn, ho] at hnone
      cases hnone
    | some o =>
      obtain ⟨c', hc', rfl, hco⟩ := exists_claim_of_matchChildren hresult
      obtain ⟨o', ho', hquality⟩ := exists_oldChild_of_mem_claims hc'
      obtain rfl : o = o' := some.inj (hco.symm.trans ho')
      exact ⟨o, rfl, hquality ▸ hle c' hc' rfl⟩

variable (hasOldLayer : α → Bool)

/-- The matching is stable exactly if, whenever two old children have the same first candidate, the
one that comes first in the sorted order is of no use: each new child without an old layer that fits
it is the first candidate of some old children, of which none is worse for it. -/
theorem isStableMatching_iff (hnodup : oldSurface.Nodup) :
    IsStableMatching view children oldSurface hasOldLayer
      (matchChildren sorting view children oldSurface) ↔
    ∀ before claim after,
      claims (sortedMatches sorting view children oldSurface) = before ++ claim :: after →
      (∃ later ∈ after, later.newChild = claim.newChild) →
      ∀ o, (oldSurface.filter view.isActive)[claim.oldChildIndex]? = some o →
      ∀ n ∈ children, view.isCreated n → ¬hasOldLayer n → view.canUpdateAsMatch n o →
        (∃ c ∈ claims (sortedMatches sorting view children oldSurface), c.newChild = n) ∧
          ∀ c ∈ claims (sortedMatches sorting view children oldSurface), c.newChild = n →
            c.matchQuality ≤ view.matchForUpdate n o := by
  constructor
  · rintro h before claim after hsplit ⟨later, hlater, hsame⟩ o ho n hn hcreated hlayer hcan
    obtain ⟨hold, hactive⟩ := mem_filter.mp (mem_of_getElem? ho)
    rw [← exists_match_le_iff]
    by_contra hnone
    push Not at hnone
    refine h.stable n hn hcreated hlayer o hold hactive hcan ⟨hnone, fun n' hn' => ?_⟩
    exact absurd hn' (matchChildren_ne_of_later hnodup hsplit hlater hsame ho n')
  · intro h
    refine ⟨fun n n' o hn hn' => matchChildren_injective hnodup hn hn', ?_⟩
    rintro n hn hcreated hlayer o hold hactive hcan ⟨hworse, hworse'⟩
    obtain ⟨i, hi⟩ := mem_iff_getElem?.mp (mem_filter.mpr ⟨hold, hactive⟩)
    have hmatch : ⟨n, i, view.matchForUpdate n o⟩ ∈
        sortedMatches sorting view children oldSurface :=
      mem_sortedMatches.mpr ⟨mem_filter.mpr ⟨hn, hcreated⟩, o, hi, hcan, rfl⟩
    obtain ⟨c, hc, rfl, hle⟩ := exists_mem_claims (sorting.sort_sorted _) hmatch
    obtain ⟨o', ho', hquality⟩ := exists_oldChild_of_mem_claims hc
    obtain rfl : o = o' := some.inj (hi.symm.trans ho')
    obtain ⟨before, after, hsplit⟩ := append_of_mem hc
    by_cases hlater : ∃ later ∈ after, later.newChild = c.newChild
    · obtain ⟨o', hn', hle'⟩ := exists_match_le_iff.mpr
        (h before c after hsplit hlater o hi n hn hcreated hlayer hcan)
      exact absurd hle' (not_le_of_gt (hworse _ hn'))
    · -- The old child has been kept by its first candidate, which it suits at least as well.
      push Not at hlater
      have hgot : matchChildren sorting view children oldSurface c.newChild = some o :=
        matchChildren_eq_some_iff.mpr ⟨before, c, after, hsplit, rfl, hi, hlater⟩
      have hlt := hworse' _ hgot
      rw [← hquality] at hlt
      exact absurd hle (not_le_of_gt hlt)

end Stability

/-! ## Two new and two old children -/

/-- Sorting by insertion. -/
def insertionMatchSort (α S : Type*) [LinearOrder S] : MatchSort α S where
  sort := List.insertionSort fun m₁ m₂ => m₁.matchQuality ≤ m₂.matchQuality
  sort_perm := perm_insertionSort _
  sort_sorted := by
    have : Std.Total fun m₁ m₂ : PersistedSurfaceMatch α S => m₁.matchQuality ≤ m₂.matchQuality :=
      ⟨fun m₁ m₂ => le_total m₁.matchQuality m₂.matchQuality⟩
    have : IsTrans (PersistedSurfaceMatch α S) fun m₁ m₂ => m₁.matchQuality ≤ m₂.matchQuality :=
      ⟨fun _ _ _ => le_trans⟩
    exact pairwise_insertionSort _

/-- The surfaces `0` and `1` are new and fit both of the old surfaces `2` and `3`. -/
def pairView (score : ℕ → ℕ → ℕ) : SurfaceView ℕ ℕ where
  isCreated n := n < 2
  isActive o := 2 ≤ o
  canUpdateAsMatch _ _ := true
  matchForUpdate := score

/-- The map for these children. -/
def pairMatches (score : ℕ → ℕ → ℕ) : ℕ → Option ℕ :=
  matchChildren (insertionMatchSort ℕ ℕ) (pairView score) [0, 1] [2, 3]

/-- How far the new child `n` is from the old child `n + 2`. -/
def distance (n o : ℕ) : ℕ := if n + 2 = o then 0 else 1

/-- Each new child fits another old one best. -/
theorem isStableMatching_pairs :
    [2, 3].Nodup ∧
      IsStableMatching (pairView distance) [0, 1] [2, 3] (fun _ => false)
        (pairMatches distance) := by
  refine ⟨by decide, (isStableMatching_iff _ (by decide)).mpr ?_⟩
  rintro before claim after hsplit ⟨later, hlater, hsame⟩
  have hpairwise : (claims (sortedMatches (insertionMatchSort ℕ ℕ) (pairView distance)
      [0, 1] [2, 3])).Pairwise fun c c' => c'.newChild ≠ c.newChild := by
    decide
  rw [hsplit, pairwise_append] at hpairwise
  exact absurd hsame ((pairwise_cons.mp hpairwise.2.1).1 later hlater)

/-- The new child `0` fits both old children better than the new child `1` does. It claims `2` and
then `3`, and keeps `3`, although `2` is better. -/
theorem not_isStableMatching_pairs :
    pairMatches (fun n o => 2 * n + o) 0 = some 3 ∧ pairMatches (fun n o => 2 * n + o) 1 = none ∧
      ¬IsStableMatching (pairView fun n o => 2 * n + o) [0, 1] [2, 3] (fun _ => false)
        (pairMatches fun n o => 2 * n + o) := by
  have hzero : pairMatches (fun n o => 2 * n + o) 0 = some 3 := by decide
  have hclaims : ∀ c ∈ claims (sortedMatches (insertionMatchSort ℕ ℕ)
      (pairView fun n o => 2 * n + o) [0, 1] [2, 3]), c.newChild = 0 := by decide
  refine ⟨hzero, by decide, ?_⟩
  intro h
  refine h.stable 0 (by decide) rfl (by decide) 2 (by decide) rfl rfl ⟨?_, ?_⟩
  · intro o' ho'
    obtain rfl : 3 = o' := some.inj (hzero.symm.trans ho')
    decide
  · -- nobody has got the old child `2`
    intro n' hn'
    obtain ⟨c, hc, rfl, -⟩ := exists_claim_of_matchChildren hn'
    rw [hclaims c hc] at hn'
    cases hzero.symm.trans hn'

end WebUi
