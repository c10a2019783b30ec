import ActivationOrder.Batch.Sort

/-!
Searching through a view. The constraint pass goes by relations that are there when it starts; a
search through a view asks for the predecessors of a unit when it enters the unit, and so reads the
source where the view does not know them yet. A read on the way may fail, and ends the search. Its
steps are otherwise those of the constraint pass, whatever the view tells, so it ends as that does.
-/

namespace ActivationOrder

namespace View

variable {σ : Type} [Source σ]

/-- Puts a unit on the stack, with the predecessors that the view tells. -/
def enter (view : View) (source : σ) (pass : Pass) (unit : UnitId) :
    Except MetadataError Move × View × σ :=
  match view.predecessors source unit with
  | (.error cause, view, source) => (.error cause, view, source)
  | (.ok predecessors, view, source) =>
    (.ok (.next { pass with
      stack := ⟨unit, predecessors.toList⟩ :: pass.stack
      visiting := pass.visiting.insert unit }), view, source)

/-- One step of a search. -/
def step (view : View) (source : σ) (pass : Pass) : Except MetadataError Move × View × σ :=
  match pass.stack with
  | [] =>
    match pass.roots with
    | [] => (.ok (.finished pass.resolved.reverse), view, source)
    | root :: roots =>
      if root ∈ pass.done then (.ok (.next { pass with roots }), view, source)
      else view.enter source { pass with roots } root
  | ⟨unit, []⟩ :: stack =>
    (.ok (.next { pass with
      stack
      visiting := pass.visiting.erase unit
      done := pass.done.insert unit
      resolved := unit :: pass.resolved }), view, source)
  | ⟨unit, predecessor :: pending⟩ :: stack =>
    let advanced := { pass with stack := ⟨unit, pending⟩ :: stack }
    if predecessor ∉ view.batch ∨ predecessor ∈ pass.done then (.ok (.next advanced), view, source)
    else if predecessor ∈ pass.visiting then (.ok (.cycle ⟨unit, predecessor⟩), view, source)
    else view.enter source advanced predecessor

/-! ### The search ends -/

/-- Getting metadata leaves the batch and the index as they are. -/
theorem get_keeps (view : View) (source : σ) (unit : UnitId) :
    (view.get source unit).2.1.batch = view.batch ∧
      (view.get source unit).2.1.declared = view.declared := by
  rw [get]
  split
  · exact ⟨rfl, rfl⟩
  · split <;> exact ⟨rfl, rfl⟩

theorem getAll_keeps (units : List UnitId) (view : View) (source : σ) :
    (view.getAll source units).2.1.batch = view.batch ∧
      (view.getAll source units).2.1.declared = view.declared := by
  induction units generalizing view source with
  | nil => exact ⟨rfl, rfl⟩
  | cons unit units ih =>
    obtain ⟨hbatch, hdeclared⟩ := view.get_keeps source unit
    rw [getAll]
    split
    · next seen next h =>
      rw [h] at hbatch hdeclared
      exact ⟨(ih seen next).1.trans hbatch, (ih seen next).2.trans hdeclared⟩
    · next seen next h =>
      rw [h] at hbatch hdeclared
      exact ⟨hbatch, hdeclared⟩

theorem collect_batch (view : View) (source : σ) :
    (view.collect source).2.1.batch = view.batch := by
  have hget := (getAll_keeps view.batch.toList view source).1
  rw [← getBatch] at hget
  rw [collect]
  split
  · rfl
  · split
    · next h =>
      rw [h] at hget
      exact hget
    · next h =>
      rw [h] at hget
      exact hget

theorem predecessors_batch (view : View) (source : σ) (unit : UnitId) :
    (view.predecessors source unit).2.1.batch = view.batch := by
  have hcollect := view.collect_batch source
  rw [predecessors]
  split
  · next h =>
    rw [h] at hcollect
    exact hcollect
  · next seen next h =>
    rw [h] at hcollect
    have hget := (seen.get_keeps next unit).1
    split
    · next h' =>
      rw [h'] at hget
      exact hget.trans hcollect
    · next h' =>
      rw [h'] at hget
      exact hget.trans hcollect

/-- Relations in which a unit has the predecessors that were told of it. -/
def told (view : View) (unit : UnitId) (predecessors : UnitSet) : Relations :=
  ⟨view.batch, (∅ : UnitMap Metadata).insert unit { after := predecessors }, ∅⟩

theorem predecessors_told (view : View) (unit : UnitId) (predecessors : UnitSet) :
    (view.told unit predecessors).predecessors unit = predecessors := by
  refine Std.ExtTreeSet.ext_mem fun x => ?_
  simp [told, Relations.predecessors]

/-- Entering a unit is entering it in relations with what the view tells. -/
theorem enter_next {view seen : View} {source next : σ} {pass after : Pass} {unit : UnitId}
    (h : view.enter source pass unit = (.ok (.next after), seen, next)) :
    seen.batch = view.batch ∧ ∃ relations : Relations,
      relations.batch = view.batch ∧ pass.enter relations unit = after := by
  have hbatch := view.predecessors_batch source unit
  rw [enter] at h
  split at h
  · cases h
  · next predecessors told source' htold =>
    rw [htold] at hbatch
    cases h
    exact ⟨hbatch, view.told unit predecessors, rfl, by rw [Pass.enter, predecessors_told]⟩

/-- A step of a search is a step of the constraint pass. -/
theorem step_next {view seen : View} {source next : σ} {pass after : Pass}
    (h : view.step source pass = (.ok (.next after), seen, next)) :
    seen.batch = view.batch ∧ ∃ relations : Relations,
      relations.batch = view.batch ∧ pass.step relations = .next after := by
  let bare : Relations := ⟨view.batch, ∅, ∅⟩
  rw [step] at h
  split at h
  · next hstack =>
    split at h
    · cases h
    · next root roots hroots =>
      split at h
      · next hdone =>
        cases h
        exact ⟨rfl, bare, rfl, by simp [Pass.step, hstack, hroots, hdone]⟩
      · next hdone =>
        obtain ⟨hbatch, relations, hrelations, henter⟩ := enter_next h
        refine ⟨hbatch, relations, hrelations, ?_⟩
        rw [← henter]
        simp [Pass.step, hstack, hroots, hdone]
  · next unit stack hstack =>
    cases h
    exact ⟨rfl, bare, rfl, by simp [Pass.step, hstack]⟩
  · next unit predecessor pending stack hstack =>
    dsimp only at h
    split at h
    · next hskip =>
      cases h
      refine ⟨rfl, bare, rfl, ?_⟩
      simp only [Pass.step, hstack]
      rw [if_pos hskip]
    · next hskip =>
      split at h
      · cases h
      · next hvisiting =>
        obtain ⟨hbatch, relations, hrelations, henter⟩ := enter_next h
        refine ⟨hbatch, relations, hrelations, ?_⟩
        simp only [Pass.step, hstack]
        rw [hrelations, if_neg hskip, if_neg hvisiting, henter]

/-- Every step makes what is left to do smaller, as it does in the constraint pass. -/
theorem step_lt {view seen : View} {source next : σ} {pass after : Pass}
    (h : view.step source pass = (.ok (.next after), seen, next)) :
    Prod.Lex (· < ·) (Prod.Lex (· < ·) (· < ·))
      (after.roots.length, after.untouched ⟨seen.batch, ∅, ∅⟩, after.work)
      (pass.roots.length, pass.untouched ⟨view.batch, ∅, ∅⟩, pass.work) := by
  obtain ⟨hbatch, relations, hrelations, hstep⟩ := step_next h
  have hlt := Pass.step_lt hstep
  simp only [Pass.untouched, hrelations] at hlt
  simp only [Pass.untouched, hbatch]
  exact hlt

/-- The outcome of a search from a configuration. -/
def search (view : View) (source : σ) (pass : Pass) :
    Except SortError (List UnitId) × View × σ :=
  match _h : view.step source pass with
  | (.error cause, view, source) => (.error (.ofMetadata cause), view, source)
  | (.ok (.cycle cycle), view, source) => (.error (.cycle cycle), view, source)
  | (.ok (.finished order), view, source) => (.ok order, view, source)
  | (.ok (.next next), view, source) => search view source next
termination_by (pass.roots.length, pass.untouched ⟨view.batch, ∅, ∅⟩, pass.work)
decreasing_by exact step_lt _h

end View

/-- The activation order of units, found by a search through a view, and the source after it. -/
def sortBySearch {σ : Type} [Source σ] (source : σ) (units : List UnitId) :
    Except SortError (List UnitId) × σ :=
  match (View.ofUnits units).getBatch source with
  | (.error cause, _, source) => (.error (.ofMetadata cause), source)
  | (.ok (), view, source) =>
    let (order, _, source) :=
      view.search source { roots := (Relations.of view.batch view.memo).byPriority }
    (order, source)

end ActivationOrder
