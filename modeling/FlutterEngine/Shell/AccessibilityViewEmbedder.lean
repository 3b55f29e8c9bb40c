import FlutterEngine.Lib.Run
import Mathlib.Data.BitVec
import Mathlib.Logic.Function.Basic

/-!
# Accessibility ids of embedded views

`AccessibilityViewEmbedder` shows the accessibility nodes of embedded Android views as nodes of
Flutter's tree. It gives each origin node an id when it first sees it, as the child of a node or as
the source of an event, and the root of a view the id that the semantics tree has for it.

The module introduces:

* `AccessibilityViewEmbedder`, the two maps with the next id, and its calls; the fields that are
  copied from node to node, and the coordinates, are left out;
* `IsInverse`: the maps are inverse to each other;
* `Resolves`: the ids that a call hands out resolve to the origin nodes they stand for;
* `Allowed`, the calls that keep this so, and `Consistent`, what they keep.

The two maps stay inverse to each other, and what is handed out resolves, as long as `getRootNode`
agrees with the ids given so far (`isInverse_of_run`). An event of a root that comes before
`getRootNode` gives it a first id that the second one does not replace (`getRootNode_after_event`).
-/

namespace Flutter

open Lib Function

variable {View : Type} [DecidableEq View]

/-- `ViewAndId` -/
structure ViewAndId (View : Type) where
  view : View
  id : BitVec 32
deriving DecidableEq, Repr

/-- The packed ids that reflection reads from a node of an embedded view, `none` where it fails. -/
structure OriginNode where
  sourceNodeId : Option (BitVec 64)
  parentNodeId : Option (BitVec 64) := none
  childIds : List (Option (BitVec 64)) := []
deriving DecidableEq, Repr

/-- The ids of a node that is shown to Android. -/
structure FlutterNode where
  id : BitVec 32
  children : List (BitVec 32)
  parent : Option (BitVec 32)
deriving DecidableEq, Repr

/-- `AccessibilityViewEmbedder`; of the display bounds only which views have them -/
structure AccessibilityViewEmbedder (View : Type) where
  flutterIdToOrigin : BitVec 32 → Option (ViewAndId View) := fun _ => none
  originToFlutterId : ViewAndId View → Option (BitVec 32) := fun _ => none
  embeddedViewToDisplayBounds : View → Bool := fun _ => false
  nextFlutterId : BitVec 32

namespace AccessibilityViewEmbedder

/-- `getVirtualNodeId` -/
def getVirtualNodeId (nodeId : BitVec 64) : BitVec 32 := (nodeId.sshiftRight 32).setWidth 32

/-- The origin that a packed id of a view stands for. -/
def originOf (view : View) (nodeId : BitVec 64) : ViewAndId View := ⟨view, getVirtualNodeId nodeId⟩

section Operations

variable (self : AccessibilityViewEmbedder View)

/-- `cacheVirtualIdMappings` -/
def cacheVirtualIdMappings (origin : ViewAndId View) (flutterId : BitVec 32) :
    AccessibilityViewEmbedder View :=
  { self with
    originToFlutterId := update self.originToFlutterId origin (some flutterId)
    flutterIdToOrigin := update self.flutterIdToOrigin flutterId (some origin) }

/-- The id of an origin node, a new one if it has none. -/
def flutterIdOf (origin : ViewAndId View) : BitVec 32 × AccessibilityViewEmbedder View :=
  match self.originToFlutterId origin with
  | some flutterId => (flutterId, self)
  | none => (self.nextFlutterId, { self.cacheVirtualIdMappings origin self.nextFlutterId with
      nextFlutterId := self.nextFlutterId + 1 })

/-- `addChildrenToFlutterNode` -/
def addChildrenToFlutterNode (view : View) : List (Option (BitVec 64)) →
    AccessibilityViewEmbedder View → List (BitVec 32) × AccessibilityViewEmbedder View
  | [], self => ([], self)
  | none :: childIds, self => addChildrenToFlutterNode view childIds self
  | some nodeId :: childIds, self =>
    let (flutterId, self) := self.flutterIdOf (originOf view nodeId)
    let (children, self) := addChildrenToFlutterNode view childIds self
    (flutterId :: children, self)

/-- `convertToFlutterNode`, with `setFlutterNodeParent` -/
def convertToFlutterNode (originNode : OriginNode) (flutterId : BitVec 32) (view : View) :
    FlutterNode × AccessibilityViewEmbedder View :=
  let (children, self) := addChildrenToFlutterNode view originNode.childIds self
  (⟨flutterId, children,
    originNode.parentNodeId.bind fun nodeId => self.originToFlutterId (originOf view nodeId)⟩, self)

/-- `getRootNode`, of a view whose root node is `originNode` -/
def getRootNode (view : View) (originNode : OriginNode) (flutterId : BitVec 32) :
    Option FlutterNode × AccessibilityViewEmbedder View :=
  match originNode.sourceNodeId with
  | none => (none, self)
  | some nodeId =>
    let self := { self with
      embeddedViewToDisplayBounds := update self.embeddedViewToDisplayBounds view true }
    let self := self.cacheVirtualIdMappings (originOf view nodeId) flutterId
    (self.convertToFlutterNode originNode flutterId view).map some id

/-- `createAccessibilityNodeInfo`. `nodes` is what the provider of a view returns for an id, nothing
also for a view without provider. -/
def createAccessibilityNodeInfo (nodes : ViewAndId View → Option OriginNode)
    (flutterId : BitVec 32) : Option FlutterNode × AccessibilityViewEmbedder View :=
  match self.flutterIdToOrigin flutterId with
  | none => (none, self)
  | some origin =>
    if self.embeddedViewToDisplayBounds origin.view then
      match nodes origin with
      | none => (none, self)
      | some originNode => (self.convertToFlutterNode originNode flutterId origin.view).map some id
    else
      (none, self)

/-- `requestSendAccessibilityEvent`: the source of the event that is sent, and those of its
records -/
def requestSendAccessibilityEvent (view : View) (source : Option (BitVec 64))
    (records : List (Option (BitVec 64))) :
    Option (BitVec 32 × List (BitVec 32)) × AccessibilityViewEmbedder View :=
  match source with
  | none => (none, self)
  | some nodeId =>
    let (flutterId, self) := self.flutterIdOf (originOf view nodeId)
    let sources := records.mapM fun record =>
      record.bind fun nodeId => self.originToFlutterId (originOf view nodeId)
    (sources.map (flutterId, ·), self)

/-- The calls of the embedder. -/
inductive Call (View : Type) where
  | getRootNode (view : View) (originNode : OriginNode) (flutterId : BitVec 32)
  | createAccessibilityNodeInfo (nodes : ViewAndId View → Option OriginNode) (flutterId : BitVec 32)
  | requestSendAccessibilityEvent (view : View) (source : Option (BitVec 64))
      (records : List (Option (BitVec 64)))

/-- The embedder after a call. -/
def next : Call View → AccessibilityViewEmbedder View
  | .getRootNode view originNode flutterId => (self.getRootNode view originNode flutterId).2
  | .createAccessibilityNodeInfo nodes flutterId =>
    (self.createAccessibilityNodeInfo nodes flutterId).2
  | .requestSendAccessibilityEvent view source records =>
    (self.requestSendAccessibilityEvent view source records).2

/-! ## Inverse maps -/

/-- The maps are inverse to each other. -/
def IsInverse : Prop := ∀ origin flutterId,
  self.originToFlutterId origin = some flutterId ↔ self.flutterIdToOrigin flutterId = some origin

/-- A node that is shown for an origin node: its id and those of its children and its parent resolve
to them. Children whose ids cannot be read are left out. -/
structure Shows (s : AccessibilityViewEmbedder View) (origin : ViewAndId View)
    (originNode : OriginNode) (node : FlutterNode) : Prop where
  id : s.flutterIdToOrigin node.id = some origin
  children : node.children.map s.flutterIdToOrigin =
    originNode.childIds.reduceOption.map fun nodeId => some (originOf origin.view nodeId)
  parent : ∀ parent ∈ node.parent, ∃ nodeId ∈ originNode.parentNodeId,
    s.flutterIdToOrigin parent = some (originOf origin.view nodeId)

/-- The ids that a call hands out resolve, once it is made, to the nodes they stand for. -/
def Resolves : Call View → Prop
  | .getRootNode view originNode flutterId =>
    ∀ node ∈ (self.getRootNode view originNode flutterId).1, ∃ nodeId ∈ originNode.sourceNodeId,
      (self.getRootNode view originNode flutterId).2.Shows (originOf view nodeId) originNode node
  | .createAccessibilityNodeInfo nodes flutterId =>
    ∀ node ∈ (self.createAccessibilityNodeInfo nodes flutterId).1,
      ∃ origin ∈ self.flutterIdToOrigin flutterId, ∃ originNode ∈ nodes origin,
        (self.createAccessibilityNodeInfo nodes flutterId).2.Shows origin originNode node
  | .requestSendAccessibilityEvent view source records =>
    ∀ event ∈ (self.requestSendAccessibilityEvent view source records).1,
      let s := (self.requestSendAccessibilityEvent view source records).2
      s.flutterIdToOrigin event.1 = source.map (originOf view) ∧
        event.2.map s.flutterIdToOrigin = records.map (Option.map (originOf view))

/-- An id may be given to an origin: they belong to each other already, or are both new. -/
def Agrees (origin : ViewAndId View) (flutterId : BitVec 32) : Prop :=
  self.originToFlutterId origin = some flutterId ∨
    self.originToFlutterId origin = none ∧ self.flutterIdToOrigin flutterId = none

end Operations

variable {s : AccessibilityViewEmbedder View} {first : BitVec 32} {origin : ViewAndId View}
  {flutterId : BitVec 32}

/-- A call may be made: `getRootNode` has an id below the first virtual one that agrees with the
ids given so far, and the ids do not run out. -/
def Allowed (first : BitVec 32) (s : AccessibilityViewEmbedder View) : Call View → Prop
  | .getRootNode view originNode flutterId =>
    flutterId.toNat < first.toNat ∧
      (∀ nodeId ∈ originNode.sourceNodeId, s.Agrees (originOf view nodeId) flutterId) ∧
      s.nextFlutterId.toNat + originNode.childIds.length < 2 ^ 32
  | .createAccessibilityNodeInfo nodes _ => ∀ origin, ∀ originNode ∈ nodes origin,
    s.nextFlutterId.toNat + originNode.childIds.length < 2 ^ 32
  | .requestSendAccessibilityEvent .. => s.nextFlutterId.toNat + 1 < 2 ^ 32

/-- An id that agrees with the ids given so far keeps the maps inverse. -/
theorem IsInverse.cacheVirtualIdMappings (h : s.IsInverse) (hagrees : s.Agrees origin flutterId) :
    (s.cacheVirtualIdMappings origin flutterId).IsInverse := by
  intro origin' flutterId'
  have hother := h origin flutterId'
  have hother' := h origin' flutterId
  have hboth := h origin' flutterId'
  simp only [AccessibilityViewEmbedder.cacheVirtualIdMappings, update_apply]
  rcases hagrees with hknown | ⟨hnone, hnone'⟩
  · have hknown' := (h origin flutterId).mp hknown
    grind
  · grind

/-- The maps are inverse, and all ids are below the next one. -/
structure Consistent (first : BitVec 32) (s : AccessibilityViewEmbedder View) : Prop where
  isInverse : s.IsInverse
  below : ∀ origin flutterId, s.flutterIdToOrigin flutterId = some origin →
    flutterId.toNat < s.nextFlutterId.toNat
  first_le : first.toNat ≤ s.nextFlutterId.toNat

namespace Consistent

omit [DecidableEq View] in
/-- The next id may be given to a new origin. -/
lemma agrees_nextFlutterId (h : s.Consistent first) (hnew : s.originToFlutterId origin = none) :
    s.Agrees origin s.nextFlutterId := by
  refine .inr ⟨hnew, Option.eq_none_iff_forall_ne_some.mpr fun origin' horigin => ?_⟩
  exact absurd (h.below origin' _ horigin) (lt_irrefl _)

/-- The ids stay below a bound when one is given that is below it. -/
lemma below_cacheVirtualIdMappings (h : s.Consistent first) {bound : ℕ}
    (hnext : s.nextFlutterId.toNat ≤ bound) (hid : flutterId.toNat < bound)
    (origin' : ViewAndId View) (flutterId' : BitVec 32)
    (horigin : (s.cacheVirtualIdMappings origin flutterId).flutterIdToOrigin flutterId' =
      some origin') : flutterId'.toNat < bound := by
  rcases eq_or_ne flutterId' flutterId with rfl | hne
  · exact hid
  · simp only [AccessibilityViewEmbedder.cacheVirtualIdMappings, update_of_ne hne] at horigin
    exact (h.below origin' flutterId' horigin).trans_le hnext

/-- Giving an id to an origin keeps the maps consistent. -/
theorem flutterIdOf (h : s.Consistent first) (origin : ViewAndId View)
    (hroom : s.nextFlutterId.toNat + 1 < 2 ^ 32) :
    (s.flutterIdOf origin).2.Consistent first ∧
      (s.flutterIdOf origin).2.nextFlutterId.toNat ≤ s.nextFlutterId.toNat + 1 := by
  unfold AccessibilityViewEmbedder.flutterIdOf
  split
  · exact ⟨h, Nat.le_succ _⟩
  · next hnew =>
    have hnext : (s.nextFlutterId + 1).toNat = s.nextFlutterId.toNat + 1 := by
      rw [BitVec.toNat_add]
      exact Nat.mod_eq_of_lt hroom
    refine ⟨⟨h.isInverse.cacheVirtualIdMappings (h.agrees_nextFlutterId hnew), ?_, ?_⟩, hnext.le⟩
    · exact hnext ▸ h.below_cacheVirtualIdMappings (Nat.le_succ _) (Nat.lt_succ_self _)
    · exact hnext ▸ Nat.le_succ_of_le h.first_le

/-- The id that is given to an origin resolves to it. -/
lemma flutterIdToOrigin_flutterIdOf (h : s.Consistent first) (origin : ViewAndId View) :
    (s.flutterIdOf origin).2.flutterIdToOrigin (s.flutterIdOf origin).1 = some origin := by
  unfold AccessibilityViewEmbedder.flutterIdOf
  split
  · exact (h.isInverse _ _).mp ‹_›
  · exact update_self ..

/-- The ids that were given before resolve as they did. -/
lemma flutterIdToOrigin_of_some (h : s.Consistent first) (origin : ViewAndId View)
    {origin' : ViewAndId View} (hid : s.flutterIdToOrigin flutterId = some origin') :
    (s.flutterIdOf origin).2.flutterIdToOrigin flutterId = some origin' := by
  unfold AccessibilityViewEmbedder.flutterIdOf
  split
  · exact hid
  · have hne : flutterId ≠ s.nextFlutterId := fun heq =>
      absurd (h.below origin' flutterId hid) (heq ▸ lt_irrefl _)
    exact (update_of_ne hne ..).trans hid

/-- The children of a node get ids that resolve to them, and the other ids resolve as they did. -/
theorem addChildrenToFlutterNode (h : s.Consistent first) (view : View)
    (childIds : List (Option (BitVec 64)))
    (hroom : s.nextFlutterId.toNat + childIds.length < 2 ^ 32) :
    let t := (addChildrenToFlutterNode view childIds s).2
    t.Consistent first ∧
      (∀ flutterId origin, s.flutterIdToOrigin flutterId = some origin →
        t.flutterIdToOrigin flutterId = some origin) ∧
      (addChildrenToFlutterNode view childIds s).1.map t.flutterIdToOrigin =
        childIds.reduceOption.map fun nodeId => some (originOf view nodeId) := by
  induction childIds generalizing s with
  | nil => exact ⟨h, fun _ _ => id, rfl⟩
  | cons childId childIds ih =>
    rw [List.length_cons] at hroom
    cases childId with
    | none => exact ih h (by omega)
    | some nodeId =>
      obtain ⟨hnext, hle⟩ := h.flutterIdOf (originOf view nodeId) (by omega)
      obtain ⟨ht, hkept, hchildren⟩ := ih hnext (by omega)
      refine ⟨ht, fun flutterId origin hid => ?_, ?_⟩
      · exact hkept flutterId origin (h.flutterIdToOrigin_of_some _ hid)
      · have hcons : (some nodeId :: childIds).reduceOption = nodeId :: childIds.reduceOption := rfl
        rw [hcons, List.map_cons, ← hchildren]
        exact congrArg (· :: _) (hkept _ _ (h.flutterIdToOrigin_flutterIdOf _))

/-- A node that is shown under an id that resolves to its origin. -/
theorem convertToFlutterNode (h : s.Consistent first) (originNode : OriginNode)
    (hid : s.flutterIdToOrigin flutterId = some origin)
    (hroom : s.nextFlutterId.toNat + originNode.childIds.length < 2 ^ 32) :
    (s.convertToFlutterNode originNode flutterId origin.view).2.Consistent first ∧
      (s.convertToFlutterNode originNode flutterId origin.view).2.Shows origin originNode
        (s.convertToFlutterNode originNode flutterId origin.view).1 := by
  obtain ⟨ht, hkept, hchildren⟩ := h.addChildrenToFlutterNode origin.view originNode.childIds hroom
  refine ⟨ht, hkept _ _ hid, hchildren, fun parent hparent => ?_⟩
  obtain ⟨nodeId, hnode, hknown⟩ := Option.bind_eq_some_iff.mp hparent
  exact ⟨nodeId, hnode, (ht.isInverse _ _).mp hknown⟩

/-- The root of a view gets an id that agrees with the ids given so far. -/
theorem cacheVirtualIdMappings (h : s.Consistent first) (hagrees : s.Agrees origin flutterId)
    (hlt : flutterId.toNat < first.toNat) :
    (s.cacheVirtualIdMappings origin flutterId).Consistent first :=
  ⟨h.isInverse.cacheVirtualIdMappings hagrees,
    h.below_cacheVirtualIdMappings le_rfl (hlt.trans_le h.first_le), h.first_le⟩

omit [DecidableEq View] in
/-- The sources of the records of an event resolve. -/
lemma map_flutterIdToOrigin (h : s.Consistent first) (view : View)
    {records : List (Option (BitVec 64))} {sources : List (BitVec 32)}
    (hsources : (records.mapM fun record =>
      record.bind fun nodeId => s.originToFlutterId (originOf view nodeId)) = some sources) :
    sources.map s.flutterIdToOrigin = records.map (Option.map (originOf view)) := by
  induction records generalizing sources with
  | nil =>
    cases hsources
    rfl
  | cons record records ih =>
    rw [List.mapM_cons] at hsources
    obtain ⟨source, hsource, hbind⟩ := Option.bind_eq_some_iff.mp hsources
    obtain ⟨rest, hrest, heq⟩ := Option.bind_eq_some_iff.mp hbind
    cases heq
    obtain ⟨nodeId, rfl, hknown⟩ := Option.bind_eq_some_iff.mp hsource
    rw [List.map_cons, List.map_cons, ih hrest, (h.isInverse _ _).mp hknown]
    rfl

/-- Each allowed call keeps the maps consistent, and what it hands out resolves. -/
theorem next {call : Call View} (h : s.Consistent first) (hallowed : s.Allowed first call) :
    (s.next call).Consistent first ∧ s.Resolves call := by
  cases call with
  | getRootNode view originNode flutterId =>
    obtain ⟨hlt, hagrees, hroom⟩ := hallowed
    simp only [AccessibilityViewEmbedder.next, Resolves, AccessibilityViewEmbedder.getRootNode]
    cases hnode : originNode.sourceNodeId with
    | none => exact ⟨h, nofun⟩
    | some nodeId =>
      have hs : Consistent first { s with
          embeddedViewToDisplayBounds := update s.embeddedViewToDisplayBounds view true } :=
        { h with }
      have hroot := hs.cacheVirtualIdMappings (hagrees nodeId hnode) hlt
      obtain ⟨ht, hshows⟩ := hroot.convertToFlutterNode originNode (update_self ..) hroom
      refine ⟨ht, fun node hmem => ⟨nodeId, rfl, ?_⟩⟩
      cases hmem
      exact hshows
  | createAccessibilityNodeInfo nodes flutterId =>
    simp only [AccessibilityViewEmbedder.next, Resolves,
      AccessibilityViewEmbedder.createAccessibilityNodeInfo]
    cases hid : s.flutterIdToOrigin flutterId with
    | none => exact ⟨h, nofun⟩
    | some origin =>
      dsimp only
      split
      · cases hnode : nodes origin with
        | none => exact ⟨h, nofun⟩
        | some originNode =>
          obtain ⟨ht, hshows⟩ :=
            h.convertToFlutterNode originNode hid (hallowed origin originNode hnode)
          refine ⟨ht, fun node hmem => ⟨origin, rfl, originNode, hnode, ?_⟩⟩
          cases hmem
          exact hshows
      · exact ⟨h, nofun⟩
  | requestSendAccessibilityEvent view source records =>
    cases source with
    | none => exact ⟨h, nofun⟩
    | some nodeId =>
      obtain ⟨ht, -⟩ := h.flutterIdOf (originOf view nodeId) hallowed
      refine ⟨ht, fun event hevent => ?_⟩
      obtain ⟨sources, hsources, rfl⟩ := Option.map_eq_some_iff.mp hevent
      exact ⟨h.flutterIdToOrigin_flutterIdOf _, ht.map_flutterIdToOrigin view hsources⟩

end Consistent

/-- While every call is allowed, the two maps are inverse to each other, and the ids that the next
allowed call hands out resolve to the nodes they stand for. -/
theorem isInverse_of_run {calls : List (Call View)}
    (h : Run (fun s call => some (s.next call)) (Allowed first) { nextFlutterId := first }
      calls s) :
    s.IsInverse ∧ ∀ call, s.Allowed first call → (s.next call).IsInverse ∧ s.Resolves call := by
  have hs : s.Consistent first := by
    refine h.invariant ⟨by simp [IsInverse], by simp, le_rfl⟩ fun _ _ _ hs hallowed hnext => ?_
    exact Option.some.inj hnext ▸ (hs.next hallowed).1
  exact ⟨hs.isInverse, fun call hallowed => (hs.next hallowed).imp_left (·.isInverse)⟩

/-- The root of a view with one child is asked for, and then an event of the child comes, which has
got the id 65536. -/
theorem isInverse_of_run_child :
    let root : OriginNode := { sourceNodeId := some 0, childIds := [some (7 <<< 32)] }
    let s := next { nextFlutterId := 1 <<< 16 } (.getRootNode () root 5)
    s.IsInverse ∧ s.flutterIdToOrigin 65536 = some ⟨(), 7⟩ ∧
      s.Resolves (.requestSendAccessibilityEvent () (some (7 <<< 32)) []) := by
  intro root s
  have hroot : Allowed (1 <<< 16) { nextFlutterId := 1 <<< 16 } (.getRootNode () root 5) :=
    ⟨by decide, fun _ _ => .inr ⟨rfl, rfl⟩, by decide⟩
  have hevent : Allowed (1 <<< 16) s (.requestSendAccessibilityEvent () (some (7 <<< 32)) []) :=
    (by decide : 65538 < 2 ^ 32)
  obtain ⟨hinverse, hnext⟩ := isInverse_of_run (.snoc .nil hroot rfl)
  exact ⟨hinverse, by decide, (hnext _ hevent).2⟩

/-- An event of the root node of a view comes before `getRootNode`: the root has the ids 65536
and 5. -/
theorem getRootNode_after_event :
    let s := next (next { nextFlutterId := 1 <<< 16 }
      (.requestSendAccessibilityEvent () (some 0) []))
      (.getRootNode () { sourceNodeId := some 0 } 5)
    s.flutterIdToOrigin 65536 = some ⟨(), 0⟩ ∧ s.flutterIdToOrigin 5 = some ⟨(), 0⟩ := by
  decide

end AccessibilityViewEmbedder

end Flutter
