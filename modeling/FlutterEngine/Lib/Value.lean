import Mathlib.Data.List.Perm.Basic
import Mathlib.Order.Lattice

/-!
# Nested values

Values built from leaves with lists and with maps, whose keys are values too. A map is the list of
its entries.

* `Value.induct` is the induction principle: one hypothesis for each member of a list and for each
  key and value of a map.
* `Value.fold` is the recursion principle. `Value.depth`, the nesting depth, and `Value.mapLeaves`,
  which replaces the leaves, are instances of it.
* `Value.All P` says that `P` holds at every node.
* `Value.Rel R` lifts a relation of leaves to values: lists are related member by member, maps
  entry by entry after some reordering. Such relations can be reversed (`Rel.symm`) and composed
  (`Rel.trans`).
-/

namespace Lib

open List

variable {α β : Type} {l' : List β}

/-- Each element on the right has one on the left. -/
lemma exists_mem_of_forall₂ {R : α → β → Prop} {l : List α} (h : List.Forall₂ R l l') {b : β}
    (hb : b ∈ l') : ∃ a ∈ l, R a b := by
  induction h with
  | nil => cases hb
  | cons hab _ ih =>
    rcases mem_cons.mp hb with rfl | hb
    · exact ⟨_, mem_cons_self, hab⟩
    · obtain ⟨a, ha, hR⟩ := ih hb
      exact ⟨a, mem_cons_of_mem _ ha, hR⟩

/-- What holds between any two members of a list holds between those of a related list. -/
theorem pairwise_of_forall₂ {R : α → β → Prop} {S : α → α → Prop} {T : β → β → Prop} {l : List α}
    (h : List.Forall₂ R l l') (hS : l.Pairwise S)
    (hT : ∀ {a a' b b'}, R a b → R a' b' → S a a' → T b b') : l'.Pairwise T := by
  induction h with
  | nil => exact List.Pairwise.nil
  | cons hab hl ih =>
    obtain ⟨hS, hS'⟩ := pairwise_cons.mp hS
    refine pairwise_cons.mpr ⟨fun b' hb' => ?_, ih hS'⟩
    obtain ⟨a', ha', hab'⟩ := exists_mem_of_forall₂ hl hb'
    exact hT hab hab' (hS a' ha')

/-- A leaf, a list of values, or a map given by its entries. -/
inductive Value (L : Type) : Type
  | leaf (l : L)
  | list (l : List (Value L))
  | map (m : List (Value L × Value L))

namespace Value

variable {L L' γ : Type}
variable {P : Value L → Prop} {v' : Value L'}
variable {l : List (Value L)} {m : List (Value L × Value L)} {v : Value L} {n : ℕ}

/-! ## Induction and recursion -/

/-- Induction over values, with all elements and entries at once. -/
@[elab_as_elim]
lemma induct {motive : Value L → Prop} (leaf : ∀ l, motive (.leaf l))
    (list : ∀ l : List (Value L), (∀ v ∈ l, motive v) → motive (.list l))
    (map : ∀ m : List (Value L × Value L), (∀ e ∈ m, motive e.1 ∧ motive e.2) → motive (.map m))
    (v : Value L) : motive v := by
  refine @rec L motive (fun l => ∀ v ∈ l, motive v)
    (fun m => ∀ e ∈ m, motive e.1 ∧ motive e.2) (fun e => motive e.1 ∧ motive e.2)
    leaf list map ?_ ?_ ?_ ?_ ?_ v
  · exact nofun
  · intro v l hv hl
    exact forall_mem_cons.mpr ⟨hv, hl⟩
  · exact nofun
  · intro e m he hm
    exact forall_mem_cons.mpr ⟨he, hm⟩
  · intro k v hk hv
    exact ⟨hk, hv⟩

mutual

/-- Replace the constructors of a value by the given functions. -/
def fold (onLeaf : L → γ) (onList : List γ → γ) (onMap : List (γ × γ) → γ) : Value L → γ
  | .leaf l => onLeaf l
  | .list l => onList (foldList onLeaf onList onMap l)
  | .map m => onMap (foldEntries onLeaf onList onMap m)

/-- `fold` on every member of a list. -/
def foldList (onLeaf : L → γ) (onList : List γ → γ) (onMap : List (γ × γ) → γ) :
    List (Value L) → List γ
  | [] => []
  | v :: l => fold onLeaf onList onMap v :: foldList onLeaf onList onMap l

/-- `fold` on every key and value of a map. -/
def foldEntries (onLeaf : L → γ) (onList : List γ → γ) (onMap : List (γ × γ) → γ) :
    List (Value L × Value L) → List (γ × γ)
  | [] => []
  | (k, v) :: m =>
    (fold onLeaf onList onMap k, fold onLeaf onList onMap v) :: foldEntries onLeaf onList onMap m

end

attribute [simp] fold foldList foldEntries

section Fold

variable (onLeaf : L → γ) (onList : List γ → γ) (onMap : List (γ × γ) → γ)

lemma foldList_eq (l : List (Value L)) :
    foldList onLeaf onList onMap l = l.map (fold onLeaf onList onMap) := by
  induction l with
  | nil => rfl
  | cons v l ih => rw [foldList, ih, map_cons]

lemma foldEntries_eq (m : List (Value L × Value L)) : foldEntries onLeaf onList onMap m =
      m.map (Prod.map (fold onLeaf onList onMap) (fold onLeaf onList onMap)) := by
  induction m with
  | nil => rfl
  | cons e m ih => rw [foldEntries, ih, map_cons, Prod.map]

/-- A fold over a list. -/
lemma fold_list (l : List (Value L)) :
    fold onLeaf onList onMap (.list l) = onList (l.map (fold onLeaf onList onMap)) := by
  rw [fold, foldList_eq]

/-- A fold over a map. -/
lemma fold_map (m : List (Value L × Value L)) : fold onLeaf onList onMap (.map m) =
      onMap (m.map (Prod.map (fold onLeaf onList onMap) (fold onLeaf onList onMap))) := by
  rw [fold, foldEntries_eq]

end Fold

/-- How many lists and maps are nested inside each other. -/
def depth : Value L → ℕ :=
  fold (fun _ => 0) (fun l => l.foldr max 0 + 1)
    (fun m => (m.map fun e => max e.1 e.2).foldr max 0 + 1)

/-- No element exceeds the maximum. -/
private lemma lt_foldr_max {l : List ℕ} (h : n ∈ l) : n < l.foldr max 0 + 1 := by
  induction l with
  | nil => cases h
  | cons m l ih =>
    rw [foldr_cons]
    rcases mem_cons.mp h with rfl | h
    · omega
    · have := ih h
      omega

/-- The elements of a list are less deep. -/
lemma depth_lt_list (h : v ∈ l) : v.depth < (list l).depth := by
  rw [depth, fold_list]
  exact lt_foldr_max (mem_map_of_mem h)

/-- The entries of a map are less deep. -/
lemma depth_lt_map {e : Value L × Value L} (h : e ∈ m) :
    e.1.depth < (map m).depth ∧ e.2.depth < (map m).depth := by
  rw [depth, fold_map, map_map]
  have hmem : max e.1.depth e.2.depth ∈ m.map fun e => max e.1.depth e.2.depth := mem_map_of_mem h
  have hmax := lt_foldr_max hmem
  exact ⟨(le_max_left _ _).trans_lt hmax, (le_max_right _ _).trans_lt hmax⟩

/-- The maximum is below a common bound. -/
private lemma foldr_max_le {l : List ℕ} (h : ∀ m ∈ l, m ≤ n) : l.foldr max 0 ≤ n := by
  induction l with
  | nil => exact Nat.zero_le n
  | cons m l ih =>
    obtain ⟨hm, hl⟩ := forall_mem_cons.mp h
    exact max_le hm (ih hl)

/-- The depth of a list from a bound for its elements. -/
lemma depth_list_le (h : ∀ v ∈ l, v.depth ≤ n) : (list l).depth ≤ n + 1 := by
  rw [depth, fold_list]
  refine Nat.succ_le_succ (foldr_max_le ?_)
  exact forall_mem_map.mpr h

/-- The depth of a map from a bound for its entries. -/
lemma depth_map_le (h : ∀ e ∈ m, e.1.depth ≤ n ∧ e.2.depth ≤ n) : (map m).depth ≤ n + 1 := by
  rw [depth, fold_map, map_map]
  refine Nat.succ_le_succ (foldr_max_le ?_)
  exact forall_mem_map.mpr fun e he => max_le (h e he).1 (h e he).2

/-- The value with every leaf replaced. -/
def mapLeaves (f : L → L') : Value L → Value L' := fold (fun l => .leaf (f l)) .list .map

/-- Changing leaves in a list. -/
lemma mapLeaves_list (f : L → L') (l : List (Value L)) :
    mapLeaves f (.list l) = .list (l.map (mapLeaves f)) :=
  fold_list _ _ _ l

/-- Changing leaves in a map. -/
lemma mapLeaves_map (f : L → L') (m : List (Value L × Value L)) :
    mapLeaves f (.map m) = .map (m.map (Prod.map (mapLeaves f) (mapLeaves f))) :=
  fold_map _ _ _ m

/-! ## Properties of all nodes -/

mutual

/-- `P` holds at every node of a value. -/
def All (P : Value L → Prop) : Value L → Prop
  | .leaf l => P (.leaf l)
  | .list l => P (.list l) ∧ AllList P l
  | .map m => P (.map m) ∧ AllEntries P m

/-- `P` holds at every node of every member of a list. -/
def AllList (P : Value L → Prop) : List (Value L) → Prop
  | [] => True
  | v :: l => All P v ∧ AllList P l

/-- `P` holds at every node of every key and value of a map. -/
def AllEntries (P : Value L → Prop) : List (Value L × Value L) → Prop
  | [] => True
  | (k, v) :: m => (All P k ∧ All P v) ∧ AllEntries P m

end

attribute [simp] All AllList AllEntries

/-- What holds throughout a list. -/
lemma all_list : All P (.list l) ↔ P (.list l) ∧ ∀ v ∈ l, All P v := by
  have h : AllList P l ↔ ∀ v ∈ l, All P v := by
    induction l with
    | nil => simp
    | cons v l ih => rw [AllList, ih, forall_mem_cons]
  rw [All, h]

/-- What holds throughout a map. -/
lemma all_map : All P (.map m) ↔ P (.map m) ∧ ∀ e ∈ m, All P e.1 ∧ All P e.2 := by
  have h : AllEntries P m ↔ ∀ e ∈ m, All P e.1 ∧ All P e.2 := by
    induction m with
    | nil => simp
    | cons e m ih => rw [AllEntries, ih, forall_mem_cons]
  rw [All, h]

/-- `P` holds of a node that is a leaf. -/
def OnLeaf (P : L → Prop) : Value L → Prop
  | .leaf l => P l
  | .list _ => True
  | .map _ => True

/-- What holds of every value holds throughout. -/
lemma all_of_forall (h : ∀ v, P v) (v : Value L) : All P v := by
  induction v using induct with
  | leaf l => exact h _
  | list l ih => exact all_list.mpr ⟨h _, ih⟩
  | map m ih => exact all_map.mpr ⟨h _, ih⟩

/-- Induction over a value for which `P` holds at every node. -/
@[elab_as_elim]
theorem All.inductOn {motive : Value L → Prop} (hv : All P v)
    (leaf : ∀ l, P (.leaf l) → motive (.leaf l))
    (list : ∀ l, All P (.list l) → (∀ v ∈ l, motive v) → motive (.list l))
    (map : ∀ m, All P (.map m) → (∀ e ∈ m, motive e.1 ∧ motive e.2) → motive (.map m)) :
    motive v := by
  induction v using Value.induct with
  | leaf l => exact leaf l hv
  | list l ih => exact list l hv fun v hmem => ih v hmem ((all_list.mp hv).2 v hmem)
  | map m ih =>
    refine map m hv fun e hmem => ?_
    obtain ⟨hk, hv⟩ := (all_map.mp hv).2 e hmem
    exact ⟨(ih e hmem).1 hk, (ih e hmem).2 hv⟩

/-- A weaker property holds throughout. -/
lemma All.imp {Q : Value L → Prop} (h : ∀ v, P v → Q v) (hv : All P v) : All Q v := by
  refine hv.inductOn (fun l hl => h _ hl) (fun l hl ih => ?_) fun m hm ih => ?_
  · exact all_list.mpr ⟨h _ (all_list.mp hl).1, ih⟩
  · exact all_map.mpr ⟨h _ (all_map.mp hm).1, ih⟩

/-- Two properties that hold throughout. -/
lemma All.and {Q : Value L → Prop} (hP : All P v) (hQ : All Q v) : All (fun v => P v ∧ Q v) v := by
  induction v using Value.induct with
  | leaf l => exact ⟨hP, hQ⟩
  | list l ih =>
    obtain ⟨hnode, hmembers⟩ := all_list.mp hP
    obtain ⟨hnode', hmembers'⟩ := all_list.mp hQ
    exact all_list.mpr
      ⟨⟨hnode, hnode'⟩, fun v hmem => ih v hmem (hmembers v hmem) (hmembers' v hmem)⟩
  | map m ih =>
    obtain ⟨hnode, hmembers⟩ := all_map.mp hP
    obtain ⟨hnode', hmembers'⟩ := all_map.mp hQ
    exact all_map.mpr ⟨⟨hnode, hnode'⟩, fun e hmem =>
      ⟨(ih e hmem).1 (hmembers e hmem).1 (hmembers' e hmem).1,
        (ih e hmem).2 (hmembers e hmem).2 (hmembers' e hmem).2⟩⟩

variable {Q : Value L' → Prop} {f : L → L'} {m' : List (Value L' × Value L')}

/-- What holds at every node when the leaves have been replaced. -/
theorem All.mapLeaves (h : ∀ v, All P v → Q (Value.mapLeaves f v)) (hv : All P v) :
    All Q (Value.mapLeaves f v) := by
  refine hv.inductOn (fun l hl => h (.leaf l) hl) (fun l hl ih => ?_) fun m hm ih => ?_
  · have hnode := h _ hl
    rw [mapLeaves_list] at hnode ⊢
    exact all_list.mpr ⟨hnode, forall_mem_map.mpr ih⟩
  · have hnode := h _ hm
    rw [mapLeaves_map] at hnode ⊢
    exact all_map.mpr ⟨hnode, forall_mem_map.mpr ih⟩

mutual

instance All.decidable (P : Value L → Prop) [DecidablePred P] : (v : Value L) → Decidable (All P v)
  | .leaf l => inferInstanceAs (Decidable (P (.leaf l)))
  | .list l =>
    haveI := AllList.decidable P l
    inferInstanceAs (Decidable (P (.list l) ∧ AllList P l))
  | .map m =>
    haveI := AllEntries.decidable P m
    inferInstanceAs (Decidable (P (.map m) ∧ AllEntries P m))

instance AllList.decidable (P : Value L → Prop) [DecidablePred P] :
    (l : List (Value L)) → Decidable (AllList P l)
  | [] => inferInstanceAs (Decidable True)
  | v :: l =>
    haveI := All.decidable P v
    haveI := AllList.decidable P l
    inferInstanceAs (Decidable (All P v ∧ AllList P l))

instance AllEntries.decidable (P : Value L → Prop) [DecidablePred P] :
    (m : List (Value L × Value L)) → Decidable (AllEntries P m)
  | [] => inferInstanceAs (Decidable True)
  | (k, v) :: m =>
    haveI := All.decidable P k
    haveI := All.decidable P v
    haveI := AllEntries.decidable P m
    inferInstanceAs (Decidable ((All P k ∧ All P v) ∧ AllEntries P m))

end

/-! ## Relating values over two kinds of leaves -/

mutual

/-- Related leaves, lists related member by member, and maps whose entries, in some order, are
related entry by entry. -/
def Rel (R : L → L' → Prop) : Value L → Value L' → Prop
  | .leaf a, .leaf b => R a b
  | .list l, .list l' => RelList R l l'
  | .map m, .map m' => ∃ n, n.Perm m' ∧ RelEntries R m n
  | _, _ => False

/-- Lists related member by member. -/
def RelList (R : L → L' → Prop) : List (Value L) → List (Value L') → Prop
  | [], [] => True
  | v :: l, v' :: l' => Rel R v v' ∧ RelList R l l'
  | _, _ => False

/-- Entries related key by key and value by value. -/
def RelEntries (R : L → L' → Prop) :
    List (Value L × Value L) → List (Value L' × Value L') → Prop
  | [], [] => True
  | (k, v) :: m, (k', v') :: m' => (Rel R k k' ∧ Rel R v v') ∧ RelEntries R m m'
  | _, _ => False

end

attribute [simp] Rel RelList RelEntries

variable {R : L → L' → Prop}

/-- Lists are related element by element. -/
lemma rel_list {l' : List (Value L')} : Rel R (.list l) (.list l') ↔ List.Forall₂ (Rel R) l l' := by
  rw [Rel]
  induction l generalizing l' with
  | nil => cases l' <;> simp
  | cons v l ih => cases l' <;> simp [ih]

/-- Entries are related one by one. -/
lemma relEntries_iff :
    RelEntries R m m' ↔ List.Forall₂ (fun e e' => Rel R e.1 e'.1 ∧ Rel R e.2 e'.2) m m' := by
  induction m generalizing m' with
  | nil => cases m' <;> simp
  | cons e m ih => cases m' <;> simp [ih]

/-- Maps are related up to the order of their entries. -/
lemma rel_map : Rel R (.map m) (.map m') ↔
      ∃ n, n.Perm m' ∧ List.Forall₂ (fun e e' => Rel R e.1 e'.1 ∧ Rel R e.2 e'.2) m n := by
  simp only [Rel, relEntries_iff]

/-- What a leaf is related to. -/
lemma rel_leaf_left {a : L} {v : Value L'} (h : Rel R (.leaf a) v) : ∃ b, v = .leaf b ∧ R a b := by
  cases v with
  | leaf b => exact ⟨b, rfl, h⟩
  | list | map => exact h.elim

/-- What a list is related to. -/
lemma rel_list_left {v : Value L'} (h : Rel R (.list l) v) :
    ∃ l', v = .list l' ∧ List.Forall₂ (Rel R) l l' := by
  cases v with
  | list l' => exact ⟨l', rfl, rel_list.mp h⟩
  | leaf | map => exact h.elim

/-- What a map is related to. -/
lemma rel_map_left {v : Value L'} (h : Rel R (.map m) v) : ∃ m' n, v = .map m' ∧ n.Perm m' ∧
      List.Forall₂ (fun e e' => Rel R e.1 e'.1 ∧ Rel R e.2 e'.2) m n := by
  cases v with
  | map m' =>
    obtain ⟨n, hperm, hrel⟩ := rel_map.mp h
    exact ⟨m', n, rfl, hperm, hrel⟩
  | leaf | list => exact h.elim

/-- A value is related to the one with its leaves replaced. -/
theorem rel_mapLeaves (h : v.All (OnLeaf fun l => R l (f l))) : Rel R v (mapLeaves f v) := by
  refine h.inductOn (fun l hl => hl) (fun l _ ih => ?_) fun m _ ih => ?_
  · rw [mapLeaves_list, rel_list, forall₂_map_right_iff, forall₂_same]
    exact ih
  · rw [mapLeaves_map, rel_map]
    refine ⟨_, List.Perm.refl _, ?_⟩
    rw [forall₂_map_right_iff, forall₂_same]
    exact ih

/-- A value is related to itself. -/
lemma Rel.refl (v : Value L) : Rel Eq v v := by
  induction v using Value.induct with
  | leaf l => rfl
  | list l ih => exact rel_list.mpr (forall₂_same.mpr ih)
  | map m ih => exact rel_map.mpr ⟨m, List.Perm.refl m, forall₂_same.mpr ih⟩

section Relations

variable {L'' : Type} {S : L' → L'' → Prop} {T : L → L'' → Prop}

/-- The converse relation. -/
lemma Rel.symm (h : Rel R v v') : Rel (fun b a => R a b) v' v := by
  induction v using Value.induct generalizing v' with
  | leaf l =>
    obtain ⟨b, rfl, hR⟩ := rel_leaf_left h
    exact hR
  | list l ih =>
    obtain ⟨l', rfl, hl⟩ := rel_list_left h
    have hflip := ((forall₂_and_left l l').mpr ⟨ih, hl⟩).imp fun v v' hv => hv.1 hv.2
    exact rel_list.mpr hflip.flip
  | map m ih =>
    obtain ⟨m', n, rfl, hperm, hm⟩ := rel_map_left h
    have hflip : List.Forall₂
        (fun e e' => Rel (fun b a => R a b) e'.1 e.1 ∧ Rel (fun b a => R a b) e'.2 e.2) m n :=
      ((forall₂_and_left m n).mpr ⟨ih, hm⟩).imp fun e e' he => ⟨he.1.1 he.2.1, he.1.2 he.2.2⟩
    obtain ⟨m'', hrel, hperm'⟩ := perm_comp_forall₂ hperm.symm hflip.flip
    exact rel_map.mpr ⟨m'', hperm', hrel⟩

/-- Relations between lists compose. -/
private lemma forall₂_trans {γ : Type} {r : α → β → Prop} {s : β → γ → Prop} {t : α → γ → Prop}
    {l : List α} {m : List β} {n : List γ} (h : ∀ x ∈ l, ∀ {y z}, r x y → s y z → t x z)
    (hlm : List.Forall₂ r l m) (hmn : List.Forall₂ s m n) : List.Forall₂ t l n := by
  induction hlm generalizing n with
  | nil =>
    cases hmn
    exact List.Forall₂.nil
  | cons hxy _ ih =>
    cases hmn with
    | cons hyz hmn =>
      exact List.Forall₂.cons (h _ mem_cons_self hxy hyz)
        (ih (fun x hx => h x (mem_cons_of_mem _ hx)) hmn)

/-- Relations between values compose. -/
lemma Rel.trans (hT : ∀ a b c, R a b → S b c → T a c) {v'' : Value L''} (h : Rel R v v')
    (h' : Rel S v' v'') : Rel T v v'' := by
  induction v using Value.induct generalizing v' v'' with
  | leaf a =>
    obtain ⟨b, rfl, hR⟩ := rel_leaf_left h
    obtain ⟨c, rfl, hS⟩ := rel_leaf_left h'
    exact hT a b c hR hS
  | list l ih =>
    obtain ⟨l', rfl, hl⟩ := rel_list_left h
    obtain ⟨l'', rfl, hl'⟩ := rel_list_left h'
    exact rel_list.mpr (forall₂_trans ih hl hl')
  | map m ih =>
    obtain ⟨m', n, rfl, hperm, hm⟩ := rel_map_left h
    obtain ⟨m'', n', rfl, hperm', hm'⟩ := rel_map_left h'
    -- Reorder the entries of the third map like those of the first.
    obtain ⟨n'', hm'', hperm''⟩ := perm_comp_forall₂ hperm hm'
    refine rel_map.mpr ⟨n'', hperm''.trans hperm', forall₂_trans ?_ hm hm''⟩
    exact fun e he _ _ h h' => ⟨(ih e he).1 h.1 h'.1, (ih e he).2 h.2 h'.2⟩

end Relations

/-- A weaker relation. -/
lemma Rel.mono {S : L → L' → Prop} (hS : ∀ a b, R a b → S a b) (h : Rel R v v') : Rel S v v' :=
  h.trans (fun _ _ _ hR heq => heq ▸ hS _ _ hR) (Rel.refl v')

/-- What holds at every node of a value carries over to a related one. -/
theorem Rel.all (leaf : ∀ a b, P (.leaf a) → R a b → Q (.leaf b))
    (list : ∀ l l', All P (.list l) → List.Forall₂ (Rel R) l l' → Q (.list l'))
    (map : ∀ m m' n, All P (.map m) → n.Perm m' →
      List.Forall₂ (fun e e' => Rel R e.1 e'.1 ∧ Rel R e.2 e'.2) m n → Q (.map m'))
    (hv : All P v) (h : Rel R v v') : All Q v' := by
  induction v using Value.induct generalizing v' with
  | leaf a =>
    obtain ⟨b, rfl, hR⟩ := rel_leaf_left h
    exact leaf a b hv hR
  | list l ih =>
    obtain ⟨l', rfl, hl⟩ := rel_list_left h
    refine all_list.mpr ⟨list l l' hv hl, fun v' hv' => ?_⟩
    obtain ⟨v, hmem, hrel⟩ := exists_mem_of_forall₂ hl hv'
    exact ih v hmem ((all_list.mp hv).2 v hmem) hrel
  | map m ih =>
    obtain ⟨m', n, rfl, hperm, hm⟩ := rel_map_left h
    refine all_map.mpr ⟨map m m' n hv hperm hm, fun e' he' => ?_⟩
    obtain ⟨e, hmem, hrel⟩ := exists_mem_of_forall₂ hm (hperm.mem_iff.mpr he')
    have he := (all_map.mp hv).2 e hmem
    exact ⟨(ih e hmem).1 he.1 hrel.1, (ih e hmem).2 he.2 hrel.2⟩

end Value

end Lib
