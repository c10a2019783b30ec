import ActivationOrder.Batch.Pass
import ActivationOrder.Batch.View

/-!
Sorting a batch: all reads come first, in ascending order and up to the first failure; what follows
is decided by what was read. So a failure hides any cycle, and the source is never read for a unit
outside the batch.
-/

namespace ActivationOrder

/-- Why a batch cannot be sorted. -/
inductive SortError where
  | unreadable (unit : UnitId) (cause : UnreadableCause)
  | cycle (cycle : Cycle)
  | unavailable (cause : MetadataError)
  deriving DecidableEq

/-- The error of a sort whose source has no answer. -/
def SortError.ofMetadata : MetadataError → SortError
  | .unreadable unit cause => .unreadable unit cause
  | cause => .unavailable cause

/-- What stopped the sort. -/
def SortError.message : SortError → String
  | .unreadable unit cause => (MetadataError.unreadable unit cause).message
  | .cycle found =>
    "ordering cycle detected between " ++ found.unit.text ++ " and " ++ found.predecessor.text
  | .unavailable cause => "metadata unavailable: " ++ cause.message

/-- The activation order of units, in which duplicates count once, and the source after it. -/
def sort {σ : Type} [Source σ] (source : σ) (units : List UnitId) :
    Except SortError (List UnitId) × σ :=
  match (View.ofUnits units).getBatch source with
  | (.error cause, _, source) => (.error (.ofMetadata cause), source)
  | (.ok (), view, source) =>
    match (Relations.of view.batch view.memo).resolve with
    | .ok order => (.ok order, source)
    | .error cycle => (.error (.cycle cycle), source)

end ActivationOrder
