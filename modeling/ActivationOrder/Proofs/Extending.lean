import ActivationOrder.Proofs.Demands
import ActivationOrder.Proofs.Settled

/-!
Longer batches. When units are added that come behind a batch, all of them after it by priority and
none of them demanded by a unit of it, the search begins as it does for the batch alone: its first
roots are those of the batch, and what has to stand before them is the same. So a cycle of the batch
is found again, at the same pair, and an order of the batch is only continued.

    roots    batch by priority ──────────▶ added units by priority
    order    order of the batch, or cycle ──▶ … continued, or cycle
-/

namespace ActivationOrder

/-- The units that are added to a batch come behind it: after all units of the batch by priority,
and no unit of the batch has to wait for one of them. -/
structure Behind (metadata : UnitId → Metadata) (batch longer : UnitSet) : Prop where
  subset : ∀ unit ∈ batch, unit ∈ longer
  ahead : ∀ added ∈ longer, added ∉ batch → ∀ unit ∈ batch, Ahead metadata unit added
  inert : ∀ added ∈ longer, added ∉ batch → ∀ unit ∈ batch,
    added ∉ (metadata unit).after ∧ unit ∉ (metadata added).before

namespace Behind

variable {metadata : UnitId → Metadata} {batch longer : UnitSet} (h : Behind metadata batch longer)
include h

/-- What has to stand before a unit of the batch is in the batch. -/
theorem mem_of_precedes {earlier later : UnitId} (hlater : later ∈ batch)
    (hprecedes : Precedes metadata longer earlier later) : earlier ∈ batch := by
  obtain ⟨hearlier, -, hdeclared⟩ := hprecedes
  refine Decidable.not_not.mp fun hout => ?_
  obtain ⟨hafter, hbefore⟩ := h.inert earlier hearlier hout later hlater
  exact hdeclared.elim hafter hbefore

/-- The longer batch asks the same of the units of the batch. -/
theorem agreeOn : AgreeOn (· ∈ batch) metadata batch metadata longer := by
  refine ⟨fun later hlater earlier => ⟨?_, fun hprecedes => ?_⟩,
    fun later _ earlier hprecedes => ?_⟩
  · rintro ⟨hearlier, -, hdeclared⟩
    exact ⟨h.subset earlier hearlier, h.subset later hlater, hdeclared⟩
  · exact ⟨h.mem_of_precedes hlater hprecedes, hlater, hprecedes.2.2⟩
  · exact hprecedes.1

/-- The roots of the longer batch are those of the batch, and then others. -/
theorem exists_priorityOrder :
    ∃ rest, priorityOrder metadata longer = priorityOrder metadata batch ++ rest := by
  let rest := (priorityOrder metadata longer).filter (decide <| · ∉ batch)
  have hrest : ∀ {x}, x ∈ rest ↔ x ∈ longer ∧ x ∉ batch := by
    intro x
    simp only [rest, List.mem_filter, mem_priorityOrder, decide_eq_true_eq]
  refine ⟨rest, eq_of_pairwise_ahead pairwise_priorityOrder ?_ ?_⟩
  · refine List.pairwise_append.mpr
      ⟨pairwise_priorityOrder, pairwise_priorityOrder.filter _, fun unit hunit added hadded => ?_⟩
    obtain ⟨hlonger, hout⟩ := hrest.mp hadded
    exact h.ahead added hlonger hout unit (mem_priorityOrder.mp hunit)
  · have hdisjoint : (priorityOrder metadata batch).Disjoint rest := fun x hx hx' =>
      (hrest.mp hx').2 (mem_priorityOrder.mp hx)
    have hnodup := nodup_priorityOrder.append (nodup_priorityOrder.filter _) hdisjoint
    refine (List.perm_ext_iff_of_nodup nodup_priorityOrder hnodup).mpr fun x => ?_
    rw [List.mem_append, mem_priorityOrder, mem_priorityOrder, hrest]
    by_cases hx : x ∈ batch
    · simp [hx, h.subset x hx]
    · simp [hx]

/-- From the roots of the batch, the two searches are one. -/
theorem visitRoots_eq :
    visitRoots metadata longer (priorityOrder metadata batch) [] = depthFirst metadata batch :=
  (visitRoots_congr h.agreeOn fun _ hroot => mem_priorityOrder.mp hroot).symm

/-- The search of the longer batch goes on from where the search of the batch ends. -/
theorem exists_depthFirst :
    ∃ rest : List UnitId, (∀ root ∈ rest, root ∈ longer) ∧
      depthFirst metadata longer =
        (depthFirst metadata batch).bind (visitRoots metadata longer rest) := by
  obtain ⟨rest, hroots⟩ := h.exists_priorityOrder
  refine ⟨rest, fun root hroot => ?_, ?_⟩
  · exact mem_priorityOrder.mp (hroots ▸ List.mem_append_right _ hroot)
  · rw [depthFirst, hroots, visitRoots_append, h.visitRoots_eq]

/-- An order of the batch is continued, if the longer batch has an order. -/
theorem prefix_of_depthFirst {order after : List UnitId}
    (horder : depthFirst metadata batch = .ok order)
    (hafter : depthFirst metadata longer = .ok after) : order <+: after := by
  have hbatch : ∀ root ∈ priorityOrder metadata batch, root ∈ longer :=
    fun root hroot => h.subset root (mem_priorityOrder.mp hroot)
  obtain ⟨hsettled, hcovers, -⟩ :=
    covers_of_visitRoots hbatch .nil covers_nil (h.visitRoots_eq.trans horder)
  obtain ⟨rest, hrest, heq⟩ := h.exists_depthFirst
  rw [horder, hafter] at heq
  exact (covers_of_visitRoots hrest hsettled hcovers heq.symm).2.2

end Behind

variable {σ τ : Type} [Source σ] [Source τ] {source : σ} {source' : τ}
  {metadata : UnitId → Metadata}
  {units longer : List UnitId}

/-- Adding units at the end does not disturb a batch. The added units come after those of the batch
by priority, no unit of the batch names one of them as one to come after, and none of them names a
unit of the batch as one to come before. Then an order of the batch is the beginning of every order
of the longer one, which may also have a cycle; a cycle of the batch is the one that is found in the
longer one. -/
theorem sort_extends (hsubset : ∀ unit ∈ units, unit ∈ longer)
    (hahead : ∀ added ∈ longer, added ∉ units → ∀ unit ∈ units, Ahead metadata unit added)
    (hinert : ∀ added ∈ longer, added ∉ units → ∀ unit ∈ units,
      added ∉ (metadata unit).after ∧ unit ∉ (metadata added).before)
    (hunits : Source.Answers source (batchOf units).toList metadata)
    (hlonger : Source.Answers source' (batchOf longer).toList metadata) :
    (∀ order, (sort source units).1 = .ok order →
      (∃ cycle, (sort source' longer).1 = .error (.cycle cycle)) ∨
        ∃ more, (sort source' longer).1 = .ok (order ++ more)) ∧
    ∀ cycle, (sort source units).1 = .error (.cycle cycle) →
      (sort source' longer).1 = .error (.cycle cycle) := by
  have hbehind : Behind metadata (batchOf units) (batchOf longer) := by
    constructor <;> simpa only [mem_batchOf]
  rw [sort_eq_depthFirst hunits, sort_eq_depthFirst hlonger]
  refine ⟨fun order horder => ?_, fun cycle hcycle => ?_⟩
  · rw [mapError_eq_ok] at horder
    cases hafter : depthFirst metadata (batchOf longer) with
    | error cycle => exact .inl ⟨cycle, rfl⟩
    | ok after =>
      obtain ⟨more, rfl⟩ := hbehind.prefix_of_depthFirst horder hafter
      exact .inr ⟨more, rfl⟩
  · obtain ⟨rest, -, heq⟩ := hbehind.exists_depthFirst
    rw [mapError_eq_cycle] at hcycle ⊢
    rw [heq, hcycle]
    rfl

/-- `a` comes behind `b` and `c`, whose order is continued; `d` comes behind a circle of the others,
which is found again. -/
theorem sort_extends_late :
    ((sort Sample.late [Sample.b, Sample.c]).1 = .ok [Sample.c, Sample.b] ∧
      ∃ more, (sort Sample.late [Sample.a, Sample.b, Sample.c]).1 =
        .ok ([Sample.c, Sample.b] ++ more)) ∧
    (sort Sample.circle [Sample.a, Sample.b, Sample.c]).1 = .error (.cycle ⟨Sample.c, Sample.a⟩) ∧
      (sort Sample.circle [Sample.a, Sample.b, Sample.c, Sample.d]).1 =
        .error (.cycle ⟨Sample.c, Sample.a⟩) := by
  have horder : (sort Sample.late [Sample.b, Sample.c]).1 = .ok [Sample.c, Sample.b] := by cbv
  have hcycle : (sort Sample.circle [Sample.a, Sample.b, Sample.c]).1 =
      .error (.cycle ⟨Sample.c, Sample.a⟩) := by cbv
  have hlate : ∀ unit ∈ [Sample.b, Sample.c], unit ∈ [Sample.a, Sample.b, Sample.c] := by decide
  have hcircle : ∀ unit ∈ [Sample.a, Sample.b, Sample.c],
      unit ∈ [Sample.a, Sample.b, Sample.c, Sample.d] := by decide
  refine ⟨⟨horder, ?_⟩, hcycle, ?_⟩
  · have hsorts : (sort Sample.late [Sample.a, Sample.b, Sample.c]).1.isOk = true := by cbv
    refine ((sort_extends hlate (by decide +kernel) (by decide +kernel)
      (Index.answers Sample.late _) (Index.answers Sample.late _)).1 _ horder).resolve_left ?_
    rintro ⟨cycle, hfound⟩
    rw [hfound] at hsorts
    cases hsorts
  · exact (sort_extends hcircle (by decide +kernel) (by decide +kernel)
      (Index.answers Sample.circle _) (Index.answers Sample.circle _)).2 _ hcycle

end ActivationOrder
