import ActivationOrder.Proofs.Constraints

/-!
Priority of a sort. The order is put together root by root in the order of priority, so for any
number of first units by priority it begins with just these units and what has to stand before them.
Two consequences say the same without prefixes: a unit gets ahead of one with priority only when
something that is due by then waits for it, and constraints that priority already satisfies change
nothing.
-/

open Relation (TransGen ReflTransGen)

namespace ActivationOrder

variable {metadata : UnitId → Metadata} {batch : UnitSet} {order : List UnitId}

/-- The last root comes last, unless an earlier one waits for it. -/
theorem getLast?_of_visitRoots {first : List UnitId} {last : UnitId}
    (hbatch : ∀ root ∈ first ++ [last], root ∈ batch) (hnodup : (first ++ [last]).Nodup)
    (hlast : ∀ root ∈ first, ¬ TransGen (Precedes metadata batch) last root)
    (h : visitRoots metadata batch (first ++ [last]) [] = .ok order) :
    order.getLast? = some last := by
  obtain ⟨mid, hmid, hvisit⟩ := exists_of_visitRoots_append h
  obtain ⟨hsettled, hcovers, -⟩ := covers_of_visitRoots
    (fun root hroot => hbatch root (List.mem_append_left _ hroot)) .nil covers_nil hmid
  have hfresh : last ∉ mid := by
    intro hmem
    obtain ⟨root, hroot, hreach⟩ := (hcovers last).mp hmem
    rcases Relation.reflTransGen_iff_eq_or_transGen.mp hreach with rfl | hreach
    · exact List.disjoint_of_nodup_append hnodup hroot (by simp)
    · exact hlast root hroot hreach
  rw [visitRoots_visit hfresh] at hvisit
  obtain ⟨visited, hvisited, hend⟩ := bind_eq_ok.mp hvisit
  obtain ⟨-, -, new, rfl⟩ :=
    covers_of_visit (hbatch last (by simp)) hsettled hcovers hfresh hvisited
  cases hend
  exact List.getLast?_concat

/-- The order begins with the first units by priority and what has to stand before them; the last of
these units comes last, unless an earlier one waits for it. -/
theorem exists_front (h : depthFirst metadata batch = .ok order) (k : Nat) :
    ∃ front, front <+: order ∧
      Covers metadata batch ((priorityOrder metadata batch).take k) front ∧
      ∀ first last, (priorityOrder metadata batch).take k = first ++ [last] →
        (∀ root ∈ first, ¬ TransGen (Precedes metadata batch) last root) →
        front.getLast? = some last := by
  have hroots : ∀ root ∈ priorityOrder metadata batch, root ∈ batch :=
    fun root hroot => mem_priorityOrder.mp hroot
  rw [depthFirst, ← List.take_append_drop k (priorityOrder metadata batch)] at h
  obtain ⟨front, hfront, hrest⟩ := exists_of_visitRoots_append h
  obtain ⟨hsettled, hcovers, -⟩ := covers_of_visitRoots
    (fun root hroot => hroots root (List.mem_of_mem_take hroot)) .nil covers_nil hfront
  obtain ⟨-, -, hstart⟩ := covers_of_visitRoots
    (fun root hroot => hroots root (List.mem_of_mem_drop hroot)) hsettled hcovers hrest
  refine ⟨front, hstart, hcovers, fun first last htake hlast => ?_⟩
  have hnodup : (first ++ [last]).Nodup :=
    htake ▸ nodup_priorityOrder.sublist (List.take_sublist k _)
  have hbatch : ∀ root ∈ first ++ [last], root ∈ batch :=
    fun root hroot => hroots root (List.mem_of_mem_take (htake ▸ hroot))
  exact getLast?_of_visitRoots hbatch hnodup hlast (htake ▸ hfront)

/-- A unit gets ahead of one with priority only when that one, or one with still more priority,
waits for it. -/
theorem exists_waiting (h : depthFirst metadata batch = .ok order) {x y : UnitId}
    (horder : order.idxOf x < order.idxOf y)
    (hpriority : (priorityOrder metadata batch).idxOf y < (priorityOrder metadata batch).idxOf x) :
    ∃ root ∈ priorityOrder metadata batch,
      (priorityOrder metadata batch).idxOf root ≤ (priorityOrder metadata batch).idxOf y ∧
      TransGen (Precedes metadata batch) x root := by
  obtain ⟨front, hstart, hcovers, -⟩ :=
    exists_front h ((priorityOrder metadata batch).idxOf y + 1)
  have hy : y ∈ priorityOrder metadata batch :=
    List.idxOf_lt_length_iff.mp (Nat.lt_of_lt_of_le hpriority List.idxOf_le_length)
  have hyfront : y ∈ front := by
    refine (hcovers y).mpr ⟨y, ?_, .refl⟩
    exact (List.mem_take_iff_idxOf_lt hy).mpr (Nat.lt_succ_self _)
  have hxfront : x ∈ front := by
    rw [hstart.mem_iff_idxOf_lt_length] at hyfront ⊢
    exact Nat.lt_trans horder hyfront
  obtain ⟨root, hroot, hreach⟩ := (hcovers x).mp hxfront
  have hmem : root ∈ priorityOrder metadata batch := List.mem_of_mem_take hroot
  have hle := Nat.le_of_lt_succ ((List.mem_take_iff_idxOf_lt hmem).mp hroot)
  refine ⟨root, hmem, hle, ?_⟩
  rcases Relation.reflTransGen_iff_eq_or_transGen.mp hreach with rfl | hreach
  · exact absurd hle (Nat.not_le_of_lt hpriority)
  · exact hreach

theorem pairwise_idxOf {l : List UnitId} (h : l.Nodup) :
    l.Pairwise fun x y => l.idxOf x < l.idxOf y := by
  rw [List.pairwise_iff_getElem]
  intro i j hi hj hij
  rwa [h.idxOf_getElem, h.idxOf_getElem]

/-- Constraints that priority satisfies change nothing. -/
theorem eq_priorityOrder (h : depthFirst metadata batch = .ok order)
    (hkept : ∀ earlier later, Precedes metadata batch earlier later →
      (priorityOrder metadata batch).idxOf earlier < (priorityOrder metadata batch).idxOf later) :
    order = priorityOrder metadata batch := by
  obtain ⟨hsettled, hmem⟩ := settled_of_depthFirst h
  have hwaits : ∀ {x y}, TransGen (Precedes metadata batch) x y →
      (priorityOrder metadata batch).idxOf x < (priorityOrder metadata batch).idxOf y := by
    intro x y hxy
    induction hxy with
    | single hxy => exact hkept _ _ hxy
    | tail _ hyz ih => exact Nat.lt_trans ih (hkept _ _ hyz)
  have horder : order.Pairwise fun x y =>
      (priorityOrder metadata batch).idxOf x ≤ (priorityOrder metadata batch).idxOf y := by
    refine (pairwise_idxOf hsettled.nodup).imp fun {x y} hxy => Nat.le_of_not_lt fun hyx => ?_
    obtain ⟨root, -, hroot, hreach⟩ := exists_waiting h hxy hyx
    have := hwaits hreach
    omega
  have hperm : order.Perm (priorityOrder metadata batch) :=
    (List.perm_ext_iff_of_nodup hsettled.nodup nodup_priorityOrder).mpr fun x =>
      (hmem x).trans mem_priorityOrder.symm
  refine hperm.eq_of_pairwise (fun x y hx hy hxy hyx => ?_) horder
    ((pairwise_idxOf nodup_priorityOrder).imp Nat.le_of_lt)
  exact (List.idxOf_inj (hperm.mem_iff.mp hx)).mp (Nat.le_antisymm hxy hyx)

/-- How far an order may depart from priority. -/
structure KeepsPriority (metadata : UnitId → Metadata) (batch : UnitSet)
    (priority order : List UnitId) : Prop where
  /-- The first units by priority and what has to stand before them begin the order, and the last of
  these units comes last, unless an earlier one waits for it. -/
  begins : ∀ k, ∃ front, front <+: order ∧
    (∀ x, x ∈ front ↔ ∃ root ∈ priority.take k, ReflTransGen (Precedes metadata batch) x root) ∧
    ∀ first last, priority.take k = first ++ [last] →
      (∀ root ∈ first, ¬ TransGen (Precedes metadata batch) last root) →
      front.getLast? = some last
  /-- A unit gets ahead of another only when something with as much priority waits for it. -/
  waits : ∀ x y, order.idxOf x < order.idxOf y → priority.idxOf y < priority.idxOf x →
    ∃ root ∈ priority, priority.idxOf root ≤ priority.idxOf y ∧
      TransGen (Precedes metadata batch) x root
  /-- Priority that satisfies all constraints is the order. -/
  unchanged : (∀ earlier later, Precedes metadata batch earlier later →
    priority.idxOf earlier < priority.idxOf later) → order = priority

variable {σ : Type} [Source σ] {source : σ} {units : List UnitId}

/-- Priority is disturbed only by constraints. -/
theorem sort_keeps_priority (h : (sort source units).1 = .ok order) :
    ∃ metadata, Source.Answers source (batchOf units).toList metadata ∧
      KeepsPriority metadata (batchOf units) (priorityOrder metadata (batchOf units)) order := by
  obtain ⟨metadata, hanswers, hfirst⟩ := depthFirst_of_sort h
  exact ⟨metadata, hanswers, exists_front hfirst, fun _ _ => exists_waiting hfirst,
    eq_priorityOrder hfirst⟩

/-- `b` and `c` have priority over `a`, and `c` goes ahead of `b`, which waits for it. -/
theorem sort_keeps_priority_late :
    (sort Sample.late [Sample.a, Sample.b, Sample.c]).1 =
        .ok [Sample.c, Sample.b, Sample.a] ∧
      ∃ metadata, Source.Answers Sample.late
          (batchOf [Sample.a, Sample.b, Sample.c]).toList metadata ∧
        KeepsPriority metadata (batchOf [Sample.a, Sample.b, Sample.c])
          (priorityOrder metadata (batchOf [Sample.a, Sample.b, Sample.c]))
          [Sample.c, Sample.b, Sample.a] := by
  have h : (sort Sample.late [Sample.a, Sample.b, Sample.c]).1 =
      .ok [Sample.c, Sample.b, Sample.a] := by cbv
  exact ⟨h, sort_keeps_priority h⟩

end ActivationOrder
