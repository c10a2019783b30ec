import ActivationOrder.Proofs.Settled

/-!
Constraints of a sort. A sort that gives an order lists the batch, each unit once, and every unit
after all units of the batch that have to stand before it. A sort whose reads succeed fails exactly
when the constraints run in a circle, and the pair that it reports is a constraint of such a circle.
-/

open Relation (TransGen ReflTransGen)

namespace ActivationOrder

variable {σ : Type} [Source σ] {source : σ} {units : List UnitId}

/-- An order lists the units of the request once each, and respects what they declare. -/
theorem sort_respects_constraints {order : List UnitId} (h : (sort source units).1 = .ok order) :
    ∃ metadata, Source.Answers source (batchOf units).toList metadata ∧
      order.Nodup ∧ (∀ x, x ∈ order ↔ x ∈ units) ∧
      ∀ later ∈ units, ∀ earlier ∈ units,
        earlier ∈ (metadata later).after ∨ later ∈ (metadata earlier).before →
        order.idxOf earlier < order.idxOf later := by
  obtain ⟨metadata, hanswers, hfirst⟩ := depthFirst_of_sort h
  obtain ⟨hsettled, hmem⟩ := settled_of_depthFirst hfirst
  refine ⟨metadata, hanswers, hsettled.nodup, fun x => (hmem x).trans mem_batchOf, ?_⟩
  intro later hlater earlier hearlier hdeclared
  have hprecedes : Precedes metadata (batchOf units) earlier later :=
    ⟨mem_batchOf.mpr hearlier, mem_batchOf.mpr hlater, hdeclared⟩
  exact (hsettled.idxOf_lt ((hmem later).mpr (mem_batchOf.mpr hlater)) hprecedes).2

/-- The chain comes out from its end, and a unit that is named twice comes out once. -/
theorem sort_respects_chain :
    (sort Sample.chain [Sample.a, Sample.b, Sample.c, Sample.a]).1 =
        .ok [Sample.c, Sample.b, Sample.a] ∧
      ∃ metadata, Source.Answers Sample.chain
          (batchOf [Sample.a, Sample.b, Sample.c, Sample.a]).toList metadata ∧
        [Sample.c, Sample.b, Sample.a].Nodup ∧
        (∀ x, x ∈ [Sample.c, Sample.b, Sample.a] ↔
          x ∈ [Sample.a, Sample.b, Sample.c, Sample.a]) ∧
        ∀ later ∈ [Sample.a, Sample.b, Sample.c, Sample.a],
          ∀ earlier ∈ [Sample.a, Sample.b, Sample.c, Sample.a],
          earlier ∈ (metadata later).after ∨ later ∈ (metadata earlier).before →
          [Sample.c, Sample.b, Sample.a].idxOf earlier <
            [Sample.c, Sample.b, Sample.a].idxOf later := by
  have h : (sort Sample.chain [Sample.a, Sample.b, Sample.c, Sample.a]).1 =
      .ok [Sample.c, Sample.b, Sample.a] := by cbv
  exact ⟨h, sort_respects_constraints h⟩

variable {metadata : UnitId → Metadata}

/-- Reads that succeed leave one way to fail: constraints that run in a circle, of which the
reported pair is one. -/
theorem sort_cycle_iff (h : Source.Answers source (batchOf units).toList metadata) :
    ((∃ cycle, (sort source units).1 = .error (.cycle cycle)) ↔
      ∃ x, TransGen (Precedes metadata (batchOf units)) x x) ∧
    ∀ cycle, (sort source units).1 = .error (.cycle cycle) →
      cycle.unit ∈ units ∧ cycle.predecessor ∈ units ∧
      (cycle.predecessor ∈ (metadata cycle.unit).after ∨
        cycle.unit ∈ (metadata cycle.predecessor).before) ∧
      (cycle.unit = cycle.predecessor ∨
        TransGen (Precedes metadata (batchOf units)) cycle.unit cycle.predecessor) := by
  obtain ⟨memo, hmemo, hsort⟩ := sort_of_answers h
  simp only [hsort, Relations.resolve_eq hmemo, mapError_eq_cycle]
  refine ⟨depthFirst_error_iff, fun cycle hcycle => ?_⟩
  obtain ⟨hprecedes, hreach⟩ := onCycle_of_visitRoots hcycle
  refine ⟨mem_batchOf.mp hprecedes.2.1, mem_batchOf.mp hprecedes.1, hprecedes.2.2, ?_⟩
  exact (Relation.reflTransGen_iff_eq_or_transGen.mp hreach).imp_left Eq.symm

/-- `c` waits for `a`, which waits for `b`, which waits for `c`. -/
theorem sort_cycle_circle :
    Source.Answers Sample.circle (batchOf [Sample.a, Sample.b, Sample.c]).toList
        Sample.circle.metadataOf ∧
      (sort Sample.circle [Sample.a, Sample.b, Sample.c]).1 =
        .error (.cycle ⟨Sample.c, Sample.a⟩) ∧
      (∃ x, TransGen (Precedes Sample.circle.metadataOf
        (batchOf [Sample.a, Sample.b, Sample.c])) x x) ∧
      (Sample.c = Sample.a ∨ TransGen (Precedes Sample.circle.metadataOf
        (batchOf [Sample.a, Sample.b, Sample.c])) Sample.c Sample.a) := by
  have h := Index.answers Sample.circle (batchOf [Sample.a, Sample.b, Sample.c]).toList
  have hsort : (sort Sample.circle [Sample.a, Sample.b, Sample.c]).1 =
      .error (.cycle ⟨Sample.c, Sample.a⟩) := by cbv
  have hcycle := sort_cycle_iff h
  exact ⟨h, hsort, hcycle.1.mp ⟨_, hsort⟩, (hcycle.2 _ hsort).2.2.2⟩

end ActivationOrder
