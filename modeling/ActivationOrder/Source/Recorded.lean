import ActivationOrder.Source.Basic

/-!
Sources that keep account of their reads. A recorded source answers as the source inside does, and
keeps every read with its answer, a failed one included. So which units were asked for, how often
and with what success, is part of its state.
-/

namespace ActivationOrder

/-- One read of a source. -/
structure Read where
  unit : UnitId
  answer : Except MetadataError Metadata

/-- A source, and the reads that it has answered, the first one first. -/
structure Recorded (σ : Type) where
  source : σ
  reads : List Read := []

instance {σ : Type} [Source σ] : Source (Recorded σ) where
  covers recorded unit := Source.covers recorded.source unit
  read recorded unit :=
    let (answer, source) := Source.read recorded.source unit
    (answer, ⟨source, recorded.reads ++ [⟨unit, answer⟩]⟩)

/-- A read goes on record with its answer. -/
theorem Recorded.read_eq {σ : Type} [Source σ] {recorded : Recorded σ}
    {unit : UnitId} {answer : Except MetadataError Metadata} {next : σ}
    (h : Source.read recorded.source unit = (answer, next)) :
    Source.read recorded unit = (answer, ⟨next, recorded.reads ++ [⟨unit, answer⟩]⟩) := by
  simp only [Source.read, h]

end ActivationOrder
