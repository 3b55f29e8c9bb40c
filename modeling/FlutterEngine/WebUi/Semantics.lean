import FlutterEngine.Lib.Dom
import FlutterEngine.Lib.LinkedMap
import FlutterEngine.WebUi.Semantics.LongestIncreasingSubsequence

/-!
# The semantics tree of the web engine

The framework sends updates of semantics nodes, and `EngineSemanticsOwner.updateSemantics` changes
the DOM elements of the last update into those of this one. A node that keeps its children for the
most part only moves some of them: those of a longest increasing subsequence are `stationaryIds`.
A node that loses its parent is removed at the end of the update, unless it has found another one.

* An object is known by the number of its element. Only the fields that decide which elements are
  where are modelled: roles, sizes and positions, gestures and callbacks are left out.
* The children of an object are put into a container element. Object and container are created when
  they are first needed.
* The glass pane and the scene host exist before semantics is enabled. Assertions are enabled, too.
  `validateTree` is the last one of `updateSemantics`, the consistency check of the whole tree.
-/

namespace WebUi.Semantics

open Lib

/-- `SemanticsNodeUpdate` -/
structure SemanticsNodeUpdate where
  id : ℤ
  childrenInTraversalOrder : Option (List ℤ)
deriving DecidableEq, Repr

/-- `SemanticsObject` -/
structure SemanticsObject where
  id : ℤ
  /-- `_childContainerElement` -/
  childContainerElement : Option ℕ
  /-- `_childrenInTraversalOrder` -/
  childrenInTraversalOrder : Option (List ℤ)
  /-- `_previousChildrenInTraversalOrder` -/
  previousChildrenInTraversalOrder : Option (List ℤ)
  /-- `_parent` -/
  parent : Option ℕ
deriving DecidableEq, Repr

/-- What an assertion is about. -/
inductive Assertion where
  | containsKey
  | childContainerElement
  | parent
  | id
  | missingChild
  | nullParent
  | otherParent
deriving DecidableEq, Repr

/-- Why an update is given up. -/
inductive Failure where
  | assertion (about : Assertion)
  | nullError
  | dom (e : DomException)
deriving DecidableEq, Repr

/-- `domRenderer.glassPaneElement` -/
def glassPaneElement : ℕ := 0

/-- `domRenderer.sceneHostElement` -/
def sceneHostElement : ℕ := 1

/-- `EngineSemanticsOwner`, with all the objects and elements. -/
structure EngineSemanticsOwner where
  dom : Dom
  objects : ℕ → SemanticsObject
  /-- `_semanticsTree` -/
  semanticsTree : LinkedMap ℤ ℕ
  /-- `_attachments` -/
  attachments : ℤ → Option ℕ
  /-- `_detachments` -/
  detachments : List ℕ
  /-- `_rootSemanticsElement` -/
  rootSemanticsElement : Option ℕ

namespace SemanticsObject

/-- The constructor of `SemanticsObject`. -/
def create (id : ℤ) : SemanticsObject := ⟨id, none, none, none, none⟩

/-- `_childrenInTraversalOrder`, where `null` counts as empty. -/
def children (object : SemanticsObject) : List ℤ := object.childrenInTraversalOrder.getD []

/-- `_previousChildrenInTraversalOrder`, where `null` counts as empty. -/
def previousChildren (object : SemanticsObject) : List ℤ :=
  object.previousChildrenInTraversalOrder.getD []

end SemanticsObject

/-! ## The children that stay -/

/-- Where two lists differ first. -/
def discrepancy : List ℤ → List ℤ → ℕ
  | x :: previous, y :: children => if x = y then discrepancy previous children + 1 else 0
  | _, _ => 0

/-- Indices into the old list of the children that also exist in the new one, in the order of the
new one. -/
def intersectionIndicesOld (previous children : List ℤ) : List ℕ :=
  let newIndex := discrepancy previous children
  List.range newIndex ++ (children.drop newIndex).filterMap fun id => previous.idxOf? id

/-- The children that need not be moved. -/
def stationaryIds (previous children : List ℤ) : List ℤ :=
  let indices := intersectionIndicesOld previous children
  (longestIncreasingSubsequence indices).map fun k => previous.getD (indices.getD k 0) 0

/-- The children that are no longer in the list. -/
def removedIds (previous children : List ℤ) : List ℤ :=
  previous.zipIdx.filterMap fun (id, i) =>
    if (intersectionIndicesOld previous children).contains i then none else some id

namespace EngineSemanticsOwner

/-- No update has been received. -/
def init : EngineSemanticsOwner where
  dom := Dom.empty.createElement.createElement.moveTo glassPaneElement sceneHostElement none
    (by decide)
  objects _ := .create 0
  semanticsTree := .empty
  attachments _ := none
  detachments := []
  rootSemanticsElement := none

variable (s : EngineSemanticsOwner)

/-- Change the fields of an object. -/
def modify (e : ℕ) (f : SemanticsObject → SemanticsObject) : EngineSemanticsOwner :=
  { s with objects := Function.update s.objects e (f (s.objects e)) }

/-- An operation of the browser. -/
def onDom : Except DomException Dom → Except Failure EngineSemanticsOwner
  | .ok dom => .ok { s with dom }
  | .error e => .error (.dom e)

/-- A new object in `_semanticsTree`. -/
def createObject (id : ℤ) : EngineSemanticsOwner :=
  { s with
    dom := s.dom.createElement
    objects := Function.update s.objects s.dom.size (.create id)
    semanticsTree := s.semanticsTree.insert id s.dom.size }

/-- `getOrCreateObject` -/
def getOrCreateObject (id : ℤ) : ℕ × EngineSemanticsOwner :=
  match s.semanticsTree.get id with
  | some e => (e, s)
  | none => (s.dom.size, s.createObject id)

/-- `_attachObject` -/
def attachObject (parent child : ℕ) : EngineSemanticsOwner :=
  { s.modify child ({ · with parent := some parent }) with
    attachments := Function.update s.attachments (s.objects child).id (some parent) }

/-- `_detachObject` -/
def detachObject (id : ℤ) : Except Failure EngineSemanticsOwner :=
  match s.semanticsTree.get id with
  | some object => .ok { s with detachments := s.detachments ++ [object] }
  | none => .error (.assertion .containsKey)

/-- `getOrCreateChildContainer` -/
def getOrCreateChildContainer (e : ℕ) : Except Failure (ℕ × EngineSemanticsOwner) :=
  match (s.objects e).childContainerElement with
  | some container => .ok (container, s)
  | none => do
    let container := s.dom.size
    let s := { s with dom := s.dom.createElement }.modify e
      ({ · with childContainerElement := some container })
    let s ← s.onDom (s.dom.append e container)
    return (container, s)

/-- The children of an object that had none. -/
def appendChildren (e container : ℕ) (s : EngineSemanticsOwner) (ids : List ℤ) :
    Except Failure EngineSemanticsOwner :=
  ids.foldlM (fun s id => do
    let (child, s) := s.getOrCreateObject id
    let s ← s.onDom (s.dom.append container child)
    return s.attachObject e child) s

/-- The loop over the children of an object that had others, from the last to the first. -/
def insertChildren (e container : ℕ) (stationaryIds : List ℤ) :
    List ℤ → Option ℕ → EngineSemanticsOwner → Except Failure EngineSemanticsOwner
  | [], _, s => .ok s
  | id :: ids, refNode, s => do
    let (child, s) := s.getOrCreateObject id
    let s ←
      if stationaryIds.contains id then do
        assertThat (.assertion .parent) ((s.objects child).parent = some e)
        pure s
      else do
        let s ← s.onDom (s.dom.insertBefore container child refNode)
        pure (s.attachObject e child)
    insertChildren e container stationaryIds ids (some child) s

/-- `_updateChildrenInTraversalOrder` -/
def updateChildrenInTraversalOrder (e : ℕ) : Except Failure EngineSemanticsOwner :=
  let object := s.objects e
  let finish (s : EngineSemanticsOwner) := s.modify e
    ({ · with previousChildrenInTraversalOrder := object.childrenInTraversalOrder })
  if object.children.isEmpty then
    if object.previousChildren.isEmpty then do
      -- there were no children, and there are none
      assertThat (.assertion .childContainerElement) (object.childContainerElement = none)
      return finish s
    else
      match object.childContainerElement with
      | none => .error (.assertion .childContainerElement)
      | some container => do
        -- there were children, but they are gone
        let s ← object.previousChildren.foldlM detachObject s
        let s := { s with dom := s.dom.remove container }
        return finish (s.modify e ({ · with childContainerElement := none }))
  else do
    let (container, s) ← s.getOrCreateChildContainer e
    if object.previousChildren.isEmpty then
      appendChildren e container (finish s) object.children
    else
      let newIndex := discrepancy object.previousChildren object.children
      if object.previousChildren.length = object.children.length ∧
          newIndex = object.children.length then
        -- the same children in the same order; `_previousChildrenInTraversalOrder` equals them
        -- already
        return s
      else do
        let s ← (removedIds object.previousChildren object.children).foldlM detachObject s
        -- from the last child to the first one, so that each is inserted before one that is in
        -- place
        let s ← insertChildren e container
          (stationaryIds object.previousChildren object.children) object.children.reverse none s
        return finish s

/-- `updateWith` -/
def updateWith (e : ℕ) (update : SemanticsNodeUpdate) : Except Failure EngineSemanticsOwner := do
  let s := s.modify e ({ · with childrenInTraversalOrder := update.childrenInTraversalOrder })
  let s ← s.updateChildrenInTraversalOrder e
  assertThat (.assertion .childContainerElement)
    ((s.objects e).childContainerElement = none ∨ ¬(s.objects e).children.isEmpty)
  return s

/-- The body of the loop over all node updates. -/
def updateNode (update : SemanticsNodeUpdate) : Except Failure EngineSemanticsOwner :=
  let (e, s) := s.getOrCreateObject update.id
  s.updateWith e update

/-- The root element is inserted when there is a root for the first time. -/
def insertRoot : Except Failure EngineSemanticsOwner :=
  match s.rootSemanticsElement with
  | some _ => .ok s
  | none =>
    match s.semanticsTree.get 0 with
    | none => .error .nullError
    | some root =>
      { s with rootSemanticsElement := some root }.onDom
        (s.dom.insertBefore glassPaneElement root (some sceneHostElement))

/-- The body of the loop of `_finalizeTree`. -/
def finalizeObject (e : ℕ) : Except Failure EngineSemanticsOwner :=
  match s.attachments (s.objects e).id with
  -- nobody has attached the object again: it is removed for good
  | none =>
    .ok { s.modify e ({ · with parent := none }) with
      semanticsTree := s.semanticsTree.erase (s.objects e).id
      dom := s.dom.remove e }
  | some parent => do
    assertThat (.assertion .parent) ((s.objects e).parent = some parent)
    assertThat (.assertion .parent) (s.dom.parent e = (s.objects parent).childContainerElement)
    return s

/-- `_finalizeTree` -/
def finalizeTree : Except Failure EngineSemanticsOwner := do
  let s ← s.detachments.foldlM finalizeObject s
  return { s with detachments := [], attachments := fun _ => none }

/-- `updateSemantics`, up to the consistency check. -/
def updateSemantics (updates : List SemanticsNodeUpdate) : Except Failure EngineSemanticsOwner := do
  let s ← updates.foldlM updateNode s
  let s ← s.insertRoot
  let s ← s.finalizeTree
  assertThat (.assertion .containsKey) (s.semanticsTree.get 0).isSome
  return s

/-- The check of a child in a child ID list. -/
def validateChild (e : ℕ) (id : ℤ) : Except Failure Unit :=
  match s.semanticsTree.get id with
  | none => .error (.assertion .missingChild)
  | some child =>
    match (s.objects child).parent with
    | none => .error (.assertion .nullParent)
    | some parent => assertThat (.assertion .otherParent) (parent = e)

/-- The check of an entry of `_semanticsTree`. -/
def validateObject (id : ℤ) : Except Failure Unit :=
  match s.semanticsTree.get id with
  | none => .ok ()
  | some e => do
    assertThat (.assertion .id) (id = (s.objects e).id)
    (s.objects e).children.forM (s.validateChild e)

/-- The consistency check at the end of `updateSemantics`. -/
def validateTree (updates : List SemanticsNodeUpdate) : Except Failure Unit := do
  s.semanticsTree.keys.forM s.validateObject
  updates.forM fun update =>
    assertThat (.assertion .containsKey) (s.semanticsTree.get update.id).isSome

/-- All updates so far. -/
def updateAll (updates : List (List SemanticsNodeUpdate)) :
    Except Failure EngineSemanticsOwner :=
  updates.foldlM updateSemantics init

end EngineSemanticsOwner

end WebUi.Semantics
