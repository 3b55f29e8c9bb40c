import FlutterEngine.Flow.EmbeddedViews

/-!
# The layers that are presented to the embedder

`shell/platform/embedder/embedder_layers.cc`: the description of a frame for the embedder is a list
of layers, each of which is a backing store or a platform view with its mutations.

The product of the transformations among the mutations should map a platform view to the root
surface, and clips and opacities should apply in the coordinates of the transformations in front of
them (`placed`). It would be so if the mutations were listed from the outermost to the innermost
layer, but they are listed the other way round, after the root surface transformation and the device
pixel ratio (`mutations_eq`). `composed_iff` says when this makes no difference.

Matrices are the elements of a monoid.
-/

namespace Flutter

open Flow Lib List SkMatrix MutatorsStack

variable {K M S : Type*} [Field K] [LinearOrder K] [Monoid M] [DecidableEq M]

/-- What is used of matrices, apart from their product. -/
structure MatrixOperations (K M : Type*) where
  /-- `MakeScale` -/
  makeScale : K → M
  /-- `mapRect` -/
  mapRect : M → SkRect K → SkRect K

/-- `FlutterPlatformViewMutation` -/
inductive FlutterPlatformViewMutation (K M : Type*) where
  | opacity (opacity : K)
  | clipRect (rect : SkRect K)
  | clipRoundedRect (rect : SkRect K) (upperLeft upperRight lowerRight lowerLeft : K × K)
  | transformation (matrix : M)

/-- What a `FlutterLayer` shows: a backing store, or a `FlutterPlatformView`. -/
inductive FlutterLayerContent (K M S : Type*) where
  | backingStore (store : S)
  | platformView (identifier : ℤ) (mutations : List (FlutterPlatformViewMutation K M))

/-- `FlutterLayer` -/
structure FlutterLayer (K M S : Type*) where
  content : FlutterLayerContent K M S
  offset : K × K
  size : K × K

/-- The parts of `EmbedderLayers` that do not change. -/
structure EmbedderLayers (K M : Type*) where
  frameSize : K × K
  devicePixelRatio : K
  rootSurfaceTransformation : M

/-- `ConvertMutation`, and the cases in which there is no mutation for a mutator -/
def convertMutation : Mutator K M → Option (FlutterPlatformViewMutation K M)
  | .clipRect rect => some (.clipRect rect)
  | .clipRRect rrect =>
    some (.clipRoundedRect rrect.bounds rrect.upperLeft rrect.upperRight rrect.lowerRight
      rrect.lowerLeft)
  | .clipPath _ => none
  | .transform matrix => if matrix = 1 then none else some (.transformation matrix)
  | .opacity alpha =>
    let opacity : K := max 0 (min (getAlphaFloat alpha) 1)
    if opacity < 1 then some (.opacity opacity) else none

namespace EmbedderLayers

variable (ops : MatrixOperations K M) (layers : EmbedderLayers K M)

/-- A layer whose bounds are mapped to the root surface. -/
def makeLayer (content : FlutterLayerContent K M S) (layerBounds : SkRect K) :
    FlutterLayer K M S :=
  let transformedLayerBounds := ops.mapRect layers.rootSurfaceTransformation layerBounds
  ⟨content, (transformedLayerBounds.left, transformedLayerBounds.top),
    (transformedLayerBounds.right - transformedLayerBounds.left,
      transformedLayerBounds.bottom - transformedLayerBounds.top)⟩

/-- The layer that `PushBackingStoreLayer` adds -/
def backingStoreLayer (store : S) : FlutterLayer K M S :=
  layers.makeLayer ops (.backingStore store) (SkRect.makeXYWH 0 layers.frameSize)

/-- `base_xformation` -/
def baseTransformation : M :=
  layers.rootSurfaceTransformation * ops.makeScale layers.devicePixelRatio

/-- `mutations_array` of `PushPlatformViewLayer` -/
def mutations (stack : MutatorsStack K M) : List (FlutterPlatformViewMutation K M) :=
  (if stack.bottomToTop.length > 0 ∧ layers.baseTransformation ops ≠ 1 then
    [.transformation (layers.baseTransformation ops)] else []) ++
    stack.bottomToTop.filterMap convertMutation

/-- The layer that `PushPlatformViewLayer` adds -/
def platformViewLayer (identifier : ℤ) (params : EmbeddedViewParams K M) : FlutterLayer K M S :=
  layers.makeLayer ops (.platformView identifier (layers.mutations ops params.mutatorsStack))
    (SkRect.makeXYWH params.offsetPixels
      (params.sizePoints.1 * layers.devicePixelRatio,
        params.sizePoints.2 * layers.devicePixelRatio))

end EmbedderLayers

/-! ## The product of the transformations -/

/-- The transformation of a mutation, if it is one. -/
def FlutterPlatformViewMutation.matrix? : FlutterPlatformViewMutation K M → Option M
  | .transformation matrix => some matrix
  | _ => none

/-- The product of all transformations, in the order of the list. -/
def totalTransformation (mutations : List (FlutterPlatformViewMutation K M)) : M :=
  (mutations.filterMap (·.matrix?)).prod

/-- The matrix of a mutator, if it is a transform. -/
def mutatorMatrix? : Mutator K M → Option M
  | .transform matrix => some matrix
  | .clipRect _ | .clipRRect _ | .clipPath _ | .opacity _ => none

/-- The transforms on a stack, the outermost first. -/
def transforms (stack : MutatorsStack K M) : List M := stack.filterMap mutatorMatrix?

/-- The clips and opacities of a list in their order, each with the product of `product` and the
transformations in front of it. -/
def placed (product : M) :
    List (FlutterPlatformViewMutation K M) → List (M × FlutterPlatformViewMutation K M)
  | [] => []
  | .transformation matrix :: mutations => placed (product * matrix) mutations
  | mutation :: mutations => (product, mutation) :: placed product mutations

namespace EmbedderLayers

variable {ops : MatrixOperations K M} {layers : EmbedderLayers K M}

/-- The transformations compose to the one of the platform view, and clips and opacities are listed
from the outermost to the innermost, each behind the transformations that are outside of it. -/
structure Composed (ops : MatrixOperations K M) (layers : EmbedderLayers K M)
    (stack : MutatorsStack K M) : Prop where
  total : totalTransformation (layers.mutations ops stack) =
    layers.rootSurfaceTransformation * ops.makeScale layers.devicePixelRatio *
      (transforms stack).prod
  order : placed 1 (layers.mutations ops stack) =
    placed (layers.rootSurfaceTransformation * ops.makeScale layers.devicePixelRatio)
      (stack.filterMap convertMutation)

omit [Field K] [LinearOrder K] [DecidableEq M] in
lemma totalTransformation_append (front back : List (FlutterPlatformViewMutation K M)) :
    totalTransformation (front ++ back) = totalTransformation front * totalTransformation back := by
  rw [totalTransformation, filterMap_append, prod_append]
  rfl

/-- What is left out does not change the product. -/
theorem totalTransformation_filterMap (stack : List (Mutator K M)) :
    totalTransformation (stack.filterMap convertMutation) = (transforms stack).prod := by
  induction stack with
  | nil => rfl
  | cons mutator stack ih =>
    rw [← singleton_append, filterMap_append, totalTransformation_append, ih, transforms,
      transforms, filterMap_append, prod_append]
    congr 1
    cases mutator with
    | transform matrix =>
      by_cases h : matrix = 1
      · simp [convertMutation, mutatorMatrix?, totalTransformation, h]
      · simp [convertMutation, mutatorMatrix?, totalTransformation, h,
          FlutterPlatformViewMutation.matrix?]
    | opacity alpha =>
      change totalTransformation _ = 1
      by_cases h : max 0 (min (getAlphaFloat alpha : K) 1) < 1
      · simp [convertMutation, totalTransformation, h, FlutterPlatformViewMutation.matrix?]
      · simp [convertMutation, totalTransformation, h]
    | clipRect => rfl
    | clipRRect => rfl
    | clipPath => rfl

variable {stack : MutatorsStack K M}

/-- The base transformation is followed by the mutations from the innermost to the outermost. -/
theorem mutations_eq (hne : stack ≠ []) : layers.mutations ops stack =
      (if layers.baseTransformation ops = 1 then []
        else [.transformation (layers.baseTransformation ops)]) ++
        (stack.filterMap convertMutation).reverse := by
  have hlength : stack.bottomToTop.length > 0 := by
    rw [bottomToTop, length_reverse]
    exact length_pos_of_ne_nil hne
  rw [mutations, bottomToTop, filterMap_reverse]
  by_cases hbase : layers.baseTransformation ops = 1
  · rw [if_neg (fun h => h.2 hbase), if_pos hbase]
  · rw [if_pos ⟨hlength, hbase⟩, if_neg hbase]

lemma totalTransformation_mutations (hne : stack ≠ []) :
    totalTransformation (layers.mutations ops stack) =
      layers.baseTransformation ops * (transforms stack.reverse).prod := by
  rw [mutations_eq hne, totalTransformation_append, ← filterMap_reverse,
    totalTransformation_filterMap]
  congr 1
  split
  · next h => exact h.symm
  · exact prod_singleton

/-- The base transformation is in front of every mutation. -/
lemma placed_mutations (hne : stack ≠ []) : placed 1 (layers.mutations ops stack) =
    placed (layers.baseTransformation ops) (stack.filterMap convertMutation).reverse := by
  rw [mutations_eq hne]
  split
  · next hbase => rw [nil_append, hbase]
  · rw [singleton_append, placed, one_mul]

/-- The mutations are as they should be exactly if reading the stack backwards makes no difference:
neither to the product of the transforms below the base transformation, nor to the clips and
opacities with the transforms in front of them. -/
theorem composed_iff (ops : MatrixOperations K M) (layers : EmbedderLayers K M)
    {stack : MutatorsStack K M} (hne : stack ≠ []) :
    Composed ops layers stack ↔
      layers.baseTransformation ops * (transforms stack).reverse.prod =
          layers.baseTransformation ops * (transforms stack).prod ∧
        placed (layers.baseTransformation ops) (stack.filterMap convertMutation).reverse =
          placed (layers.baseTransformation ops) (stack.filterMap convertMutation) := by
  have hreverse : (transforms stack).reverse = transforms stack.reverse :=
    filterMap_reverse.symm
  constructor
  · rintro ⟨htotal, horder⟩
    rw [totalTransformation_mutations hne] at htotal
    rw [placed_mutations hne] at horder
    exact ⟨hreverse ▸ htotal, horder⟩
  · rintro ⟨htotal, horder⟩
    refine ⟨?_, ?_⟩
    · rw [totalTransformation_mutations hne, ← hreverse, htotal, baseTransformation]
    · rw [placed_mutations hne, horder, baseTransformation]

end EmbedderLayers

/-! ## Matrices of Skia -/

/-- The matrices of Skia form a monoid. -/
def skMatrixOperations (skia : Skia K) : MatrixOperations K (SkMatrix K) where
  makeScale ratio := ⟨ratio, 0, 0, 0, ratio, 0, 0, 0, 1⟩
  mapRect := skia.mapRect

/-- Matrices without perspective, to whose rectangles nothing is done. -/
def plainOperations : MatrixOperations ℚ (SkMatrix ℚ) :=
  skMatrixOperations ⟨fun _ rect => rect, fun _ _ => true, fun _ => true⟩

/-- A clip between two translations that are the same. -/
theorem composed_clipBetweenTranslations :
    EmbedderLayers.Composed plainOperations ⟨(800, 600), 2, makeTrans (0, 5)⟩
      [.transform (makeTrans (10, 20)), .clipRect ⟨0, 0, 100, 100⟩,
        .transform (makeTrans (10, 20))] := by
  refine (EmbedderLayers.composed_iff plainOperations _ (cons_ne_nil _ _)).mpr ⟨rfl, ?_⟩
  have hne : makeTrans (10, 20) ≠ (1 : SkMatrix ℚ) := by decide +kernel
  simp only [filterMap_cons, filterMap_nil, convertMutation, if_neg hne]
  rfl

/-- A translation above a scaling. -/
theorem not_composed_translationAboveScaling :
    ∃ (calls : List (MutatorsStack.Call ℚ (SkMatrix ℚ))) (stack : MutatorsStack ℚ (SkMatrix ℚ)),
      stack = [.transform (makeTrans (10, 0)), .transform ⟨2, 0, 0, 0, 2, 0, 0, 0, 1⟩] ∧
      Run perform unguarded [] calls stack ∧
      totalTransformation ((⟨(800, 600), 1, 1⟩ : EmbedderLayers ℚ (SkMatrix ℚ)).mutations
        plainOperations stack) = ⟨2, 0, 20, 0, 2, 0, 0, 0, 1⟩ ∧
      1 * plainOperations.makeScale 1 * (transforms stack).prod = ⟨2, 0, 10, 0, 2, 0, 0, 0, 1⟩ ∧
      ¬EmbedderLayers.Composed plainOperations ⟨(800, 600), 1, 1⟩ stack := by
  refine ⟨[.push (.transform (makeTrans (10, 0))),
    .push (.transform ⟨2, 0, 0, 0, 2, 0, 0, 0, 1⟩)], _, rfl, run_iff_exec.mpr rfl, ?_, ?_,
    fun h => ?_⟩
  · decide +kernel
  · decide +kernel
  · exact absurd h.total (by decide +kernel)

end Flutter
