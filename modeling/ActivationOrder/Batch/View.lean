import ActivationOrder.Batch.Relations
import ActivationOrder.Source.Basic

/-!
Views of a source for one batch. A view reads each unit once, when it is first needed, and keeps the
metadata; a failed read keeps nothing and is tried again. The `before` declarations of the batch are
collected once, when predecessors are first asked for, after the whole batch has been read in
ascending order; a failure on the way leaves them uncollected.
-/

namespace ActivationOrder

/-- What has been seen of a source for one batch. -/
structure View where
  batch : UnitSet
  /-- The metadata of the units read so far. -/
  memo : UnitMap Metadata := ∅
  /-- What `declaredBefore` found, once the whole batch has been read for it. -/
  declared : Option (UnitMap UnitSet) := none

namespace View

variable {σ : Type} [Source σ]

/-- A view of nothing yet, for these units. -/
def ofUnits (units : List UnitId) : View :=
  { batch := units.foldl (·.insert ·) ∅ }

/-- The metadata of a unit, read from the source the first time. -/
def get (view : View) (source : σ) (unit : UnitId) : Except MetadataError Metadata × View × σ :=
  match view.memo[unit]? with
  | some metadata => (.ok metadata, view, source)
  | none =>
    match Source.read source unit with
    | (.ok metadata, source) =>
      (.ok metadata, { view with memo := view.memo.insert unit metadata }, source)
    | (.error cause, source) => (.error cause, view, source)

/-- Gets the metadata of units one after the other, up to the first failure. -/
def getAll (view : View) (source : σ) : List UnitId → Except MetadataError Unit × View × σ
  | [] => (.ok (), view, source)
  | unit :: units =>
    match view.get source unit with
    | (.ok _, view, source) => view.getAll source units
    | (.error cause, view, source) => (.error cause, view, source)

/-- Gets the metadata of the whole batch in ascending order. -/
def getBatch (view : View) (source : σ) : Except MetadataError Unit × View × σ :=
  view.getAll source view.batch.toList

/-- The `before` declarations of the batch, collected the first time. -/
def collect (view : View) (source : σ) : Except MetadataError (UnitMap UnitSet) × View × σ :=
  match view.declared with
  | some declared => (.ok declared, view, source)
  | none =>
    match view.getBatch source with
    | (.error cause, view, source) => (.error cause, view, source)
    | (.ok (), view, source) =>
      let declared := declaredBefore view.batch view.memo
      (.ok declared, { view with declared := some declared }, source)

/-- The effective predecessors of a unit, in the batch or not. -/
def predecessors (view : View) (source : σ) (unit : UnitId) :
    Except MetadataError UnitSet × View × σ :=
  match view.collect source with
  | (.error cause, view, source) => (.error cause, view, source)
  | (.ok declared, view, source) =>
    match view.get source unit with
    | (.error cause, view, source) => (.error cause, view, source)
    | (.ok metadata, view, source) => (.ok (metadata.after ∪ declared.getD unit ∅), view, source)

/-- The references of the batch to units outside it. -/
def external (view : View) (source : σ) :
    Except MetadataError (List ExternalReference) × View × σ :=
  match view.getBatch source with
  | (.error cause, view, source) => (.error cause, view, source)
  | (.ok (), view, source) => (.ok (externalReferences view.batch view.memo), view, source)

end View

end ActivationOrder
