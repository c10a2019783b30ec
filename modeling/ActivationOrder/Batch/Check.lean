import ActivationOrder.Batch.Sort

/-!
Checking a batch: the references that lead out of it, and whether it can be sorted. The two parts
read the source one after the other. A unit that cannot be read fails the check; a cycle is part of
its report.
-/

namespace ActivationOrder

/-- What a check found. -/
structure CheckReport where
  order : Except SortError (List UnitId)
  external : List ExternalReference

/-- Whether the batch can be sorted. -/
def CheckReport.valid (report : CheckReport) : Bool := report.order.isOk

/-- Checks units, in which duplicates count once, and gives the source after it. -/
def check {σ : Type} [Source σ] (source : σ) (units : List UnitId) :
    Except MetadataError CheckReport × σ :=
  match (View.ofUnits units).external source with
  | (.error cause, _, source) => (.error cause, source)
  | (.ok external, _, source) =>
    match sort source units with
    | (.error (.unreadable unit cause), source) => (.error (.unreadable unit cause), source)
    | (order, source) => (.ok ⟨order, external⟩, source)

end ActivationOrder
