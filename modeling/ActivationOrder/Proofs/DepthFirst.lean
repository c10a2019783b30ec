import Mathlib
import ActivationOrder.Batch.Sort
import ActivationOrder.Proofs.Precedence
import ActivationOrder.Proofs.Reading

/-!
The constraint pass as a recursion. `visit` puts a unit at the end of the order, after it has
visited the units that have to stand before it. `Pass.run` keeps the same search on a stack of its
own, with what is left of every predecessor set on the way; `Relations.resolve_eq` shows that the
two give one result, the order or the first cycle met.

    visit unit   ── each candidate in ascending order ──▶ does not precede, or in the order: skip
                 │                                        on the path:     cycle
                 │                                        otherwise:       visit candidate
                 ▼
            append unit
-/

namespace ActivationOrder

/-- The units of the batch off the path. -/
def offPath (batch path : UnitSet) : Nat := batch.toList.countP fun unit => decide (unit ∉ path)

theorem offPath_insert_lt {batch path : UnitSet} {unit : UnitId} (hbatch : unit ∈ batch)
    (hpath : unit ∉ path) : offPath batch (path.insert unit) < offPath batch path := by
  refine Pass.countP_lt (fun x _ hx => ?_) (Std.ExtTreeSet.mem_toList.mpr hbatch) ?_ ?_
  · simp only [decide_eq_true_eq, Std.ExtTreeSet.mem_insert, not_or] at hx ⊢
    exact hx.2
  · simp [hpath]
  · simp

section
variable (metadata : UnitId → Metadata) (batch : UnitSet)

mutual

/-- Visits what has to stand before a unit, and puts the unit at the end of the order. The path
holds the units that are being visited. -/
def visit (path : UnitSet) (order : List UnitId) (unit : UnitId) :
    Except Cycle (List UnitId) := do
  let order ← visitEach (path.insert unit) unit batch.toList order
  .ok (order ++ [unit])
termination_by (offPath batch (path.insert unit), batch.toList.length + 1)

/-- Visits the candidates that have to stand before a unit, as far as they are not in the order yet.
One that is being visited closes a cycle. -/
def visitEach (path : UnitSet) (unit : UnitId) :
    List UnitId → List UnitId → Except Cycle (List UnitId)
  | [], order => .ok order
  | candidate :: candidates, order =>
    if Precedes metadata batch candidate unit ∧ candidate ∉ order then
      if candidate ∈ path then .error ⟨unit, candidate⟩
      else do
        let order ← visit path order candidate
        visitEach path unit candidates order
    else visitEach path unit candidates order
termination_by candidates => (offPath batch path, candidates.length)
decreasing_by
  · rename_i hprecedes hpath
    exact Prod.Lex.left _ _ (offPath_insert_lt hprecedes.1.1 hpath)
  · exact Prod.Lex.right _ (Nat.lt_succ_self _)
  · exact Prod.Lex.right _ (Nat.lt_succ_self _)

end

/-- Visits the roots that are not in the order yet. -/
def visitRoots : List UnitId → List UnitId → Except Cycle (List UnitId)
  | [], order => .ok order
  | root :: roots, order =>
    if root ∈ order then visitRoots roots order
    else do
      let order ← visit metadata batch ∅ order root
      visitRoots roots order

/-- The batch in activation order, found by visiting it in the order of priority. -/
def depthFirst : Except Cycle (List UnitId) :=
  visitRoots metadata batch (priorityOrder metadata batch) []

end

/-! One equation for each branch, and what a sequence of two visits gives. -/

section
variable {metadata : UnitId → Metadata} {batch path : UnitSet} {unit candidate root : UnitId}
  {candidates roots order : List UnitId}

theorem visit_eq : visit metadata batch path order unit =
    (visitEach metadata batch (path.insert unit) unit batch.toList order).bind fun order =>
      .ok (order ++ [unit]) := by
  rw [visit]
  rfl

theorem visitEach_skip (h : Precedes metadata batch candidate unit → candidate ∈ order) :
    visitEach metadata batch path unit (candidate :: candidates) order =
      visitEach metadata batch path unit candidates order := by
  rw [visitEach, if_neg fun hand => hand.2 (h hand.1)]

theorem visitEach_cycle (h : Precedes metadata batch candidate unit) (horder : candidate ∉ order)
    (hpath : candidate ∈ path) :
    visitEach metadata batch path unit (candidate :: candidates) order =
      .error ⟨unit, candidate⟩ := by
  rw [visitEach, if_pos ⟨h, horder⟩, if_pos hpath]

theorem visitEach_visit (h : Precedes metadata batch candidate unit) (horder : candidate ∉ order)
    (hpath : candidate ∉ path) :
    visitEach metadata batch path unit (candidate :: candidates) order =
      (visit metadata batch path order candidate).bind
        (visitEach metadata batch path unit candidates) := by
  rw [visitEach, if_pos ⟨h, horder⟩, if_neg hpath]
  rfl

theorem visitRoots_skip (h : root ∈ order) :
    visitRoots metadata batch (root :: roots) order = visitRoots metadata batch roots order := by
  rw [visitRoots, if_pos h]

theorem visitRoots_visit (h : root ∉ order) :
    visitRoots metadata batch (root :: roots) order =
      (visit metadata batch ∅ order root).bind (visitRoots metadata batch roots) := by
  rw [visitRoots, if_neg h]
  rfl

end

theorem bind_eq_ok {ε α β : Type} {x : Except ε α} {f : α → Except ε β} {b : β} :
    x.bind f = .ok b ↔ ∃ a, x = .ok a ∧ f a = .ok b := by
  cases x <;> simp [Except.bind]

theorem bind_eq_error {ε α β : Type} {x : Except ε α} {f : α → Except ε β} {e : ε} :
    x.bind f = .error e ↔ x = .error e ∨ ∃ a, x = .ok a ∧ f a = .error e := by
  cases x <;> simp [Except.bind]

theorem erase_insert {set : UnitSet} {unit : UnitId} (h : unit ∉ set) :
    (set.insert unit).erase unit = set := by
  refine Std.ExtTreeSet.ext_mem fun u => ?_
  rw [Std.ExtTreeSet.mem_erase, mem_insert_iff, Ne, Std.LawfulEqCmp.compare_eq_iff_eq]
  grind

/-! ### The stack as a recursion -/

namespace Pass

/-- The configuration with these frames and this order so far. -/
def reached (roots : List UnitId) (stack : List Frame) (path : UnitSet) (order : List UnitId) :
    Pass :=
  ⟨roots, stack, path, order.foldl (·.insert ·) ∅, order.reverse⟩

variable {relations : Relations} {roots : List UnitId} {stack : List Frame} {path : UnitSet}
  {order pending : List UnitId} {unit predecessor : UnitId}

@[simp] theorem mem_reached_done : unit ∈ (reached roots stack path order).done ↔ unit ∈ order := by
  simp [reached, mem_foldl_insert]

theorem run_of_step_next {p q : Pass} (h : p.step relations = .next q) :
    run relations p = run relations q := by
  rw [run]
  split <;> simp_all

theorem run_of_step_cycle {p : Pass} {cycle : Cycle} (h : p.step relations = .cycle cycle) :
    run relations p = .error cycle := by
  rw [run]
  split <;> simp_all

theorem run_of_step_finished {p : Pass} {resolved : List UnitId}
    (h : p.step relations = .finished resolved) : run relations p = .ok resolved := by
  rw [run]
  split <;> simp_all

/-! One step each. -/

theorem run_leave :
    run relations (reached roots (⟨unit, []⟩ :: stack) path order) =
      run relations (reached roots stack (path.erase unit) (order ++ [unit])) := by
  refine run_of_step_next ?_
  simp [step, reached]

theorem run_skip (h : predecessor ∈ relations.batch → predecessor ∈ order) :
    run relations (reached roots (⟨unit, predecessor :: pending⟩ :: stack) path order) =
      run relations (reached roots (⟨unit, pending⟩ :: stack) path order) := by
  refine run_of_step_next (if_pos ?_)
  exact or_iff_not_imp_left.mpr fun hb => mem_reached_done.mpr (h (Decidable.not_not.mp hb))

theorem run_cycle (hbatch : predecessor ∈ relations.batch) (horder : predecessor ∉ order)
    (hpath : predecessor ∈ path) :
    run relations (reached roots (⟨unit, predecessor :: pending⟩ :: stack) path order) =
      .error ⟨unit, predecessor⟩ := by
  refine run_of_step_cycle ((if_neg ?_).trans (if_pos hpath))
  exact fun h => h.elim (absurd hbatch) fun hd => horder (mem_reached_done.mp hd)

theorem run_enter (hbatch : predecessor ∈ relations.batch) (horder : predecessor ∉ order)
    (hpath : predecessor ∉ path) :
    run relations (reached roots (⟨unit, predecessor :: pending⟩ :: stack) path order) =
      run relations (reached roots (⟨predecessor, (relations.predecessors predecessor).toList⟩ ::
        ⟨unit, pending⟩ :: stack) (path.insert predecessor) order) := by
  refine run_of_step_next ((if_neg ?_).trans (if_neg hpath))
  exact fun h => h.elim (absurd hbatch) fun hd => horder (mem_reached_done.mp hd)

theorem run_root_skip (h : unit ∈ order) :
    run relations (reached (unit :: roots) [] path order) =
      run relations (reached roots [] path order) :=
  run_of_step_next (if_pos (mem_reached_done.mpr h))

theorem run_root_enter (h : unit ∉ order) :
    run relations (reached (unit :: roots) [] path order) =
      run relations (reached roots [⟨unit, (relations.predecessors unit).toList⟩]
        (path.insert unit) order) :=
  run_of_step_next (if_neg fun hd => h (mem_reached_done.mp hd))

theorem run_finished : run relations (reached [] [] path order) = .ok order := by
  rw [run_of_step_finished rfl]
  simp [reached]

/-- Units outside the batch are looked at and passed by. -/
theorem run_skip_all (h : ∀ p ∈ pending, p ∉ relations.batch) (rest : List UnitId) :
    run relations (reached roots (⟨unit, pending ++ rest⟩ :: stack) path order) =
      run relations (reached roots (⟨unit, rest⟩ :: stack) path order) := by
  induction pending with
  | nil => rfl
  | cons p pending ih =>
    rw [List.cons_append, run_skip fun hp => absurd hp (h p List.mem_cons_self)]
    exact ih fun q hq => h q (List.mem_cons_of_mem p hq)

end Pass

section
variable {metadata : UnitId → Metadata} {batch : UnitSet} {memo : UnitMap Metadata}

/-- The next candidate that precedes is the next predecessor in the batch. -/
theorem exists_next {unit candidate : UnitId} {pending candidates : List UnitId}
    (h : Precedes metadata batch candidate unit)
    (hpending : pending.filter (decide <| · ∈ batch) =
      (candidate :: candidates).filter (decide <| Precedes metadata batch · unit)) :
    ∃ skipped rest, pending = skipped ++ candidate :: rest ∧
      (∀ p ∈ skipped, p ∉ (Relations.of batch memo).batch) ∧
      rest.filter (decide <| · ∈ batch) =
        candidates.filter (decide <| Precedes metadata batch · unit) := by
  rw [List.filter_cons_of_pos (by simpa using h), List.filter_eq_cons_iff] at hpending
  obtain ⟨skipped, rest, rfl, hout, -, hrest⟩ := hpending
  exact ⟨skipped, rest, rfl, fun p hp => by simpa using hout p hp, hrest⟩

variable (hmemo : ∀ unit ∈ batch, memo.getD unit {} = metadata unit)
include hmemo

/-- A frame on top of the stack does what its visit does, and then the frames below it go on. What
is left of a predecessor set and the candidates left agree up to units that both pass by. -/
theorem run_eq_visit :
    (∀ (path : UnitSet) (order : List UnitId) (unit : UnitId), unit ∈ batch → unit ∉ path →
      ∀ roots stack, Pass.run (.of batch memo)
        (.reached roots (⟨unit, ((Relations.of batch memo).predecessors unit).toList⟩ :: stack)
          (path.insert unit) order) =
        (visit metadata batch path order unit).bind fun order =>
          Pass.run (.of batch memo) (.reached roots stack path order)) ∧
    (∀ (path : UnitSet) (unit : UnitId) (candidates order : List UnitId), unit ∈ batch →
      ∀ roots stack pending, pending.filter (decide <| · ∈ batch) =
          candidates.filter (decide <| Precedes metadata batch · unit) →
        Pass.run (.of batch memo) (.reached roots (⟨unit, pending⟩ :: stack) path order) =
          (visitEach metadata batch path unit candidates order).bind fun order =>
            Pass.run (.of batch memo)
              (.reached roots stack (path.erase unit) (order ++ [unit]))) := by
  refine visit.mutual_induct metadata batch _ _ ?_ ?_ ?_ ?_ ?_
  · -- A visit: what is pending is what precedes.
    intro path order unit ih hunit hpath roots stack
    rw [ih hunit roots stack _ (filter_predecessors hmemo hunit), visit_eq, erase_insert hpath]
    cases visitEach metadata batch (path.insert unit) unit batch.toList order <;> rfl
  · -- No candidate is left, so the frame holds units outside the batch only, and is left.
    intro path unit order hunit roots stack pending hpending
    have hout : ∀ p ∈ pending, p ∉ (Relations.of batch memo).batch := by
      simpa using List.filter_eq_nil_iff.mp hpending
    rw [← List.append_nil pending, Pass.run_skip_all hout, Pass.run_leave, visitEach]
    rfl
  · -- The candidate is on the path.
    rintro path unit candidate candidates order ⟨hprecedes, horder⟩ hpath hunit roots stack pending
      hpending
    obtain ⟨skipped, rest, rfl, hout, -⟩ := exists_next hprecedes hpending
    rw [Pass.run_skip_all hout, Pass.run_cycle hprecedes.1 horder hpath,
      visitEach_cycle hprecedes horder hpath]
    rfl
  · -- The candidate is visited: a frame of its own, and then the rest of this one.
    rintro path unit candidate candidates order ⟨hprecedes, horder⟩ hpath ihvisit iheach hunit roots
      stack pending hpending
    obtain ⟨skipped, rest, rfl, hout, hrest⟩ := exists_next hprecedes hpending
    rw [Pass.run_skip_all hout, Pass.run_enter hprecedes.1 horder hpath,
      ihvisit hprecedes.1 hpath, visitEach_visit hprecedes horder hpath]
    cases visit metadata batch path order candidate with
    | error cycle => rfl
    | ok order => exact iheach order hunit roots stack rest hrest
  · -- The candidate is passed by: only one that precedes is in the frame too.
    intro path unit candidate candidates order hskip ih hunit roots stack pending hpending
    rw [not_and_not_right] at hskip
    rw [visitEach_skip hskip]
    by_cases hprecedes : Precedes metadata batch candidate unit
    · obtain ⟨skipped, rest, rfl, hout, hrest⟩ := exists_next hprecedes hpending
      rw [Pass.run_skip_all hout, Pass.run_skip fun _ => hskip hprecedes]
      exact ih hunit roots stack rest hrest
    · rw [List.filter_cons_of_neg (by simpa using hprecedes)] at hpending
      exact ih hunit roots stack pending hpending

theorem run_roots : ∀ {roots order : List UnitId}, (∀ root ∈ roots, root ∈ batch) →
    Pass.run (.of batch memo) (.reached roots [] ∅ order) = visitRoots metadata batch roots order
  | [], order, _ => by rw [Pass.run_finished, visitRoots]
  | root :: roots, order, hroots => by
    have hrest : ∀ r ∈ roots, r ∈ batch := fun r hr => hroots r (List.mem_cons_of_mem root hr)
    by_cases h : root ∈ order
    · rw [Pass.run_root_skip h, visitRoots_skip h, run_roots hrest]
    · rw [Pass.run_root_enter h, visitRoots_visit h, (run_eq_visit hmemo).1 ∅ order root
        (hroots root List.mem_cons_self) (by simp)]
      cases visit metadata batch ∅ order root with
      | error cycle => rfl
      | ok order => exact run_roots hrest

/-- The constraint pass is the recursion. -/
theorem Relations.resolve_eq : (Relations.of batch memo).resolve = depthFirst metadata batch := by
  have hroots : ∀ root ∈ priorityOrder metadata batch, root ∈ batch :=
    fun root hroot => mem_priorityOrder.mp hroot
  rw [depthFirst, ← run_roots hmemo hroots, ← byPriority_eq hmemo]
  rfl

end

/-! ### Sorting by recursion -/

section
variable {σ : Type} [Source σ] {source : σ} {units : List UnitId} {metadata : UnitId → Metadata}

theorem mapError_eq_ok {result : Except Cycle (List UnitId)} {order : List UnitId} :
    result.mapError SortError.cycle = .ok order ↔ result = .ok order := by
  cases result <;> simp [Except.mapError]

theorem mapError_eq_cycle {result : Except Cycle (List UnitId)} {cycle : Cycle} :
    result.mapError SortError.cycle = .error (.cycle cycle) ↔ result = .error cycle := by
  cases result <;> simp [Except.mapError]

/-- When the source answers for the batch, the constraint pass decides what a sort gives. -/
theorem sort_of_answers (h : Source.Answers source (batchOf units).toList metadata) :
    ∃ memo : UnitMap Metadata, (∀ unit ∈ batchOf units, memo.getD unit {} = metadata unit) ∧
      (sort source units).1 = (Relations.of (batchOf units) memo).resolve.mapError .cycle := by
  obtain ⟨view, next, hget, hbatch, hmemo⟩ := View.getBatch_of_answers h
  refine ⟨view.memo, hmemo, ?_⟩
  rw [sort, hget, ← hbatch]
  cases hresolve : (Relations.of view.batch view.memo).resolve <;> simp [hresolve, Except.mapError]

/-- A sort that gives an order had answers for the batch. -/
theorem depthFirst_of_sort {order : List UnitId} (h : (sort source units).1 = .ok order) :
    ∃ metadata, Source.Answers source (batchOf units).toList metadata ∧
      depthFirst metadata (batchOf units) = .ok order := by
  have hread : ((View.ofUnits units).getBatch source).1 = .ok () := by
    rw [sort] at h
    rcases hget : (View.ofUnits units).getBatch source with ⟨cause | _, view, next⟩
    · rw [hget] at h
      cases h
    · rfl
  obtain ⟨metadata, hanswers⟩ := View.answers_of_getBatch hread
  obtain ⟨memo, hmemo, hsort⟩ := sort_of_answers hanswers
  rw [hsort, Relations.resolve_eq hmemo] at h
  exact ⟨metadata, hanswers, mapError_eq_ok.mp h⟩

/-- Sorting on a stack of frames gives what the recursion gives: the same order, or the same unit
and the same predecessor of a cycle. -/
theorem sort_eq_depthFirst (h : Source.Answers source (batchOf units).toList metadata) :
    (sort source units).1 = (depthFirst metadata (batchOf units)).mapError .cycle := by
  obtain ⟨memo, hmemo, hsort⟩ := sort_of_answers h
  rw [hsort, Relations.resolve_eq hmemo]

/-- A circle of three units: the stack and the recursion stop at one edge. -/
theorem sort_eq_depthFirst_circle :
    Source.Answers Sample.circle (batchOf [Sample.a, Sample.b, Sample.c]).toList
        Sample.circle.metadataOf ∧
      (sort Sample.circle [Sample.a, Sample.b, Sample.c]).1 =
        (depthFirst Sample.circle.metadataOf
          (batchOf [Sample.a, Sample.b, Sample.c])).mapError .cycle ∧
      depthFirst Sample.circle.metadataOf (batchOf [Sample.a, Sample.b, Sample.c]) =
        .error ⟨Sample.c, Sample.a⟩ := by
  have h := Index.answers Sample.circle (batchOf [Sample.a, Sample.b, Sample.c]).toList
  have hsort : (sort Sample.circle [Sample.a, Sample.b, Sample.c]).1 =
      .error (.cycle ⟨Sample.c, Sample.a⟩) := by cbv
  have heq := sort_eq_depthFirst h
  exact ⟨h, heq, mapError_eq_cycle.mp (heq.symm.trans hsort)⟩

end

end ActivationOrder
