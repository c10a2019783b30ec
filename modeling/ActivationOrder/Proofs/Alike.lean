import Mathlib.Logic.Basic
import ActivationOrder.Batch.Check
import ActivationOrder.Proofs.Reading

/-!
Sources that cannot be told apart. Two sources are alike on some units when they answer for these
units alike, whatever each of them was asked for before. Being alike is an invariant: reading these
units keeps it, so a view goes through the same states over both, and sorts and checks give the same
answers. To show that sources are alike, `Alike.of_invariant` asks for a relation that reads keep on
either side.
-/

namespace ActivationOrder

section
variable {σ τ : Type} [Source σ] [Source τ]

namespace Source

/-- The source after reads of these units. -/
def after (source : σ) : List UnitId → σ
  | [] => source
  | unit :: units => after (read source unit).2 units

/-- Two sources that answer for some units alike, after any reads of such units on either side. -/
structure Alike (on : UnitId → Prop) (source : σ) (source' : τ) : Prop where
  covers_after : ∀ reads reads' : List UnitId, (∀ u ∈ reads, on u) → (∀ u ∈ reads', on u) →
    ∀ unit, on unit → covers (after source reads) unit = covers (after source' reads') unit
  read_after : ∀ reads reads' : List UnitId, (∀ u ∈ reads, on u) → (∀ u ∈ reads', on u) →
    ∀ unit, on unit → (read (after source reads) unit).1 = (read (after source' reads') unit).1

namespace Alike

variable {on : UnitId → Prop} {source : σ} {source' : τ} {unit : UnitId}

theorem symm (h : Alike on source source') : Alike on source' source := by
  constructor
  · intro reads reads' hreads hreads' unit hunit
    exact (h.covers_after reads' reads hreads' hreads unit hunit).symm
  · intro reads reads' hreads hreads' unit hunit
    exact (h.read_after reads' reads hreads' hreads unit hunit).symm

theorem covers_eq (h : Alike on source source') (hunit : on unit) :
    covers source unit = covers source' unit :=
  h.covers_after [] [] (by simp) (by simp) unit hunit

theorem read_eq (h : Alike on source source') (hunit : on unit) :
    (read source unit).1 = (read source' unit).1 :=
  h.read_after [] [] (by simp) (by simp) unit hunit

/-- A read on the first side. -/
theorem left (h : Alike on source source') (hunit : on unit) :
    Alike on (read source unit).2 source' := by
  constructor
  · intro reads reads' hreads hreads'
    exact h.covers_after (unit :: reads) reads' (List.forall_mem_cons.mpr ⟨hunit, hreads⟩) hreads'
  · intro reads reads' hreads hreads'
    exact h.read_after (unit :: reads) reads' (List.forall_mem_cons.mpr ⟨hunit, hreads⟩) hreads'

/-- One answer on both sides, and alike again. -/
theorem exists_read (h : Alike on source source') (hunit : on unit) :
    ∃ answer next next', read source unit = (answer, next) ∧ read source' unit = (answer, next') ∧
      Alike on next next' :=
  ⟨(read source unit).1, (read source unit).2, (read source' unit).2, rfl,
    Prod.ext (h.read_eq hunit).symm rfl, ((h.left hunit).symm.left hunit).symm⟩

/-- A relation that reads keep on either side, and that relates only sources with the same answers,
relates only sources that are alike. -/
theorem of_invariant (R : σ → τ → Prop)
    (hcovers : ∀ s t unit, R s t → on unit → covers s unit = covers t unit)
    (hread : ∀ s t unit, R s t → on unit → (read s unit).1 = (read t unit).1)
    (hleft : ∀ s t unit, R s t → on unit → R (read s unit).2 t)
    (hright : ∀ s t unit, R s t → on unit → R s (read t unit).2)
    (h : R source source') : Alike on source source' := by
  have hafter : ∀ (reads : List UnitId) (s : σ) (t : τ), (∀ u ∈ reads, on u) → R s t →
      R (after s reads) t := by
    intro reads
    induction reads with
    | nil => exact fun _ _ _ h => h
    | cons unit reads ih =>
      intro s t hreads h
      rw [List.forall_mem_cons] at hreads
      exact ih _ t hreads.2 (hleft s t unit h hreads.1)
  have hafter' : ∀ (reads : List UnitId) (s : σ) (t : τ), (∀ u ∈ reads, on u) → R s t →
      R s (after t reads) := by
    intro reads
    induction reads with
    | nil => exact fun _ _ _ h => h
    | cons unit reads ih =>
      intro s t hreads h
      rw [List.forall_mem_cons] at hreads
      exact ih s _ hreads.2 (hright s t unit h hreads.1)
  have hboth : ∀ reads reads' : List UnitId, (∀ u ∈ reads, on u) → (∀ u ∈ reads', on u) →
      R (after source reads) (after source' reads') := by
    intro reads reads' hreads hreads'
    exact hafter' reads' _ _ hreads' (hafter reads _ _ hreads h)
  constructor
  · intro reads reads' hreads hreads' unit hunit
    exact hcovers _ _ unit (hboth reads reads' hreads hreads') hunit
  · intro reads reads' hreads hreads' unit hunit
    exact hread _ _ unit (hboth reads reads' hreads hreads') hunit

/-- Sources that reads leave as they are need only be compared once. -/
theorem of_constant (hcovers : ∀ unit, on unit → covers source unit = covers source' unit)
    (hread : ∀ unit, on unit → (read source unit).1 = (read source' unit).1)
    (hsource : ∀ unit, (read source unit).2 = source)
    (hsource' : ∀ unit, (read source' unit).2 = source') : Alike on source source' := by
  refine of_invariant (fun s t => s = source ∧ t = source') ?_ ?_ ?_ ?_ ⟨rfl, rfl⟩
  · rintro s t unit ⟨rfl, rfl⟩ hunit
    exact hcovers unit hunit
  · rintro s t unit ⟨rfl, rfl⟩ hunit
    exact hread unit hunit
  · rintro s t unit ⟨rfl, rfl⟩ -
    exact ⟨hsource unit, rfl⟩
  · rintro s t unit ⟨rfl, rfl⟩ -
    exact ⟨rfl, hsource' unit⟩

end Alike

end Source

open Source (Alike)

variable {on : UnitId → Prop} {source : σ} {source' : τ} {view : View} {unit : UnitId}
  {units : List UnitId}

/-! ### Views over sources that are alike -/

/-- Two outcomes of looking through a view: one answer and one view, and sources that are alike. -/
def SameOutcome {α : Type} (on : UnitId → Prop) (outcome : α × View × σ)
    (outcome' : α × View × τ) : Prop :=
  ∃ answer view source source', outcome = (answer, view, source) ∧
    outcome' = (answer, view, source') ∧ Alike on source source'

theorem SameOutcome.map {α β : Type} {outcome : α × View × σ} {outcome' : α × View × τ} (f : α → β)
    (h : SameOutcome on outcome outcome') :
    SameOutcome on (f outcome.1, outcome.2) (f outcome'.1, outcome'.2) := by
  obtain ⟨answer, view, next, next', rfl, rfl, hnext⟩ := h
  exact ⟨f answer, view, next, next', rfl, rfl, hnext⟩

namespace View

theorem get_alike (h : Alike on source source') (hunit : on unit) :
    SameOutcome on (view.get source unit) (view.get source' unit) := by
  rw [get, get]
  cases view.memo[unit]? with
  | some metadata => exact ⟨_, _, _, _, rfl, rfl, h⟩
  | none =>
    obtain ⟨answer, next, next', hread, hread', hnext⟩ := h.exists_read hunit
    rw [hread, hread']
    cases answer <;> exact ⟨_, _, _, _, rfl, rfl, hnext⟩

theorem getAll_alike : ∀ {units : List UnitId} {view : View} {source : σ} {source' : τ},
    Alike on source source' → (∀ u ∈ units, on u) →
    SameOutcome on (view.getAll source units) (view.getAll source' units)
  | [], _, _, _, h, _ => ⟨_, _, _, _, rfl, rfl, h⟩
  | unit :: units, view, source, source', h, hunits => by
    rw [List.forall_mem_cons] at hunits
    obtain ⟨answer, seen, next, next', hget, hget', hnext⟩ := view.get_alike h hunits.1
    rw [getAll, getAll, hget, hget']
    cases answer with
    | ok metadata => exact getAll_alike hnext hunits.2
    | error cause => exact ⟨_, _, _, _, rfl, rfl, hnext⟩

variable (hbatch : ∀ u ∈ view.batch, on u)
include hbatch

theorem getBatch_alike (h : Alike on source source') :
    SameOutcome on (view.getBatch source) (view.getBatch source') :=
  getAll_alike h fun u hu => hbatch u (Std.ExtTreeSet.mem_toList.mp hu)

theorem collect_alike (h : Alike on source source') :
    SameOutcome on (view.collect source) (view.collect source') := by
  rw [collect, collect]
  cases view.declared with
  | some declared => exact ⟨_, _, _, _, rfl, rfl, h⟩
  | none =>
    obtain ⟨answer, seen, next, next', hget, hget', hnext⟩ := getBatch_alike hbatch h
    rw [hget, hget']
    cases answer <;> exact ⟨_, _, _, _, rfl, rfl, hnext⟩

theorem predecessors_alike (h : Alike on source source') (hunit : on unit) :
    SameOutcome on (view.predecessors source unit) (view.predecessors source' unit) := by
  rw [predecessors, predecessors]
  obtain ⟨answer, seen, next, next', hcollect, hcollect', hnext⟩ := collect_alike hbatch h
  rw [hcollect, hcollect']
  cases answer with
  | error cause => exact ⟨_, _, _, _, rfl, rfl, hnext⟩
  | ok declared =>
    obtain ⟨answer, last, next, next', hget, hget', hlast⟩ := seen.get_alike hnext hunit
    simp only [hget, hget']
    cases answer <;> exact ⟨_, _, _, _, rfl, rfl, hlast⟩

theorem external_alike (h : Alike on source source') :
    SameOutcome on (view.external source) (view.external source') := by
  rw [external, external]
  obtain ⟨answer, seen, next, next', hget, hget', hnext⟩ := getBatch_alike hbatch h
  rw [hget, hget']
  cases answer <;> exact ⟨_, _, _, _, rfl, rfl, hnext⟩

end View

/-! ### Sorts and checks of sources that are alike -/

/-- Sorts of sources that are alike give one answer, and leave sources that are alike. -/
theorem sort_alike (h : Alike on source source') (hunits : ∀ u ∈ units, on u) :
    ∃ answer next next', sort source units = (answer, next) ∧
      sort source' units = (answer, next') ∧ Alike on next next' := by
  have hbatch : ∀ u ∈ batchOf units, on u := fun u hu => hunits u (mem_batchOf.mp hu)
  obtain ⟨answer, seen, next, next', hget, hget', hnext⟩ := View.getBatch_alike hbatch h
  rw [sort, sort, hget, hget']
  cases answer with
  | error cause => exact ⟨_, _, _, rfl, rfl, hnext⟩
  | ok _ =>
    dsimp only
    cases (Relations.of seen.batch seen.memo).resolve <;> exact ⟨_, _, _, rfl, rfl, hnext⟩

/-- Checks of sources that are alike give one answer, and leave sources that are alike. -/
theorem check_alike (h : Alike on source source') (hunits : ∀ u ∈ units, on u) :
    ∃ answer next next', check source units = (answer, next) ∧
      check source' units = (answer, next') ∧ Alike on next next' := by
  have hbatch : ∀ u ∈ batchOf units, on u := fun u hu => hunits u (mem_batchOf.mp hu)
  obtain ⟨answer, seen, next, next', hexternal, hexternal', hnext⟩ :=
    View.external_alike hbatch h
  rw [check, check, hexternal, hexternal']
  cases answer with
  | error cause => exact ⟨_, _, _, rfl, rfl, hnext⟩
  | ok references =>
    obtain ⟨answer, last, last', hsort, hsort', hlast⟩ := sort_alike hnext hunits
    simp only [hsort, hsort']
    rcases answer with (_ | _ | _) | _ <;> exact ⟨_, _, _, rfl, rfl, hlast⟩

theorem results_eq_of_alike (h : Alike on source source') (hunits : ∀ u ∈ units, on u) :
    (sort source units).1 = (sort source' units).1 ∧
      (check source units).1 = (check source' units).1 := by
  obtain ⟨order, _, _, hsort, hsort', -⟩ := sort_alike h hunits
  obtain ⟨report, _, _, hcheck, hcheck', -⟩ := check_alike h hunits
  rw [hsort, hsort', hcheck, hcheck']
  exact ⟨rfl, rfl⟩

end

end ActivationOrder
