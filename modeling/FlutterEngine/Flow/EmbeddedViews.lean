import FlutterEngine.Flow.Skia
import FlutterEngine.Lib.Run

/-!
# Embedded views

`flow/embedded_views.cc`: what the layers above a platform view do to it is collected on a stack of
mutators while the tree is prerolled. The list of a stack has the mutator that was pushed first at
its front, and `pop` removes the one that was pushed last.
-/

namespace Flow

open Lib

variable {K M : Type*} [LinearOrder K]

/-- `Mutator`. Matrices are of the type `M`. -/
inductive Mutator (K M : Type*) [LinearOrder K] where
  | clipRect (rect : SkRect K)
  | clipRRect (rrect : SkRRect K)
  | clipPath (path : SkPath K)
  | transform (matrix : M)
  | opacity (alpha : ℤ)

/-- `GetAlphaFloat` -/
def getAlphaFloat [Field K] (alpha : ℤ) : K := alpha / 255

/-- `MutatorsStack` -/
abbrev MutatorsStack (K M : Type*) [LinearOrder K] := List (Mutator K M)

/-- `EmbeddedViewParams` -/
structure EmbeddedViewParams (K M : Type*) [LinearOrder K] where
  offsetPixels : K × K
  sizePoints : K × K
  mutatorsStack : MutatorsStack K M

namespace MutatorsStack

/-- The calls that change a stack: `PushClipRect` and the others, and `Pop`. -/
inductive Call (K M : Type*) [LinearOrder K] where
  | push (mutator : Mutator K M)
  | pop

/-- What a call does. To pop an empty stack is undefined. -/
def perform (stack : MutatorsStack K M) : Call K M → Option (MutatorsStack K M)
  | .push mutator => some (stack ++ [mutator])
  | .pop => if stack.isEmpty then none else some stack.dropLast

/-- The iterators from `Bottom`, which is `rbegin`, to `Top`, which is `rend`. -/
def bottomToTop (stack : MutatorsStack K M) : List (Mutator K M) := stack.reverse

end MutatorsStack

end Flow
