import ActivationOrder.Proofs.Replaying
import ActivationOrder.Source.Tree

/-!
Sources that mirror other sources. A map between the states of two sources is a mirror when the
source it leads to answers as the source it comes from, and the states after the read are mirrored
again. Nothing is asked of the answers themselves, which may change with every read. The same reads
lead a source and its mirror on, so whatever comes down to reads sees of a source what it sees of
its mirror. Forgetting the account of a recorded source is a mirror, and so is standing as a leaf in
a tree of sources.
-/

namespace ActivationOrder

variable {σ τ : Type} [Source σ] [Source τ]

/-- A map to the states of another source, which answers alike at every state that is reached. -/
structure Source.Mirrors (f : σ → τ) : Prop where
  covers_eq : ∀ source unit, covers (f source) unit = covers source unit
  read_eq : ∀ source unit, read (f source) unit = ((read source unit).1, f (read source unit).2)

open Source (Leads Mirrors)

theorem Recorded.mirrors : Mirrors (Recorded.source (σ := σ)) :=
  ⟨fun _ _ => rfl, fun _ _ => rfl⟩

theorem SourceTree.mirrors_leaf : Mirrors (SourceTree.leaf (α := σ)) :=
  ⟨fun _ _ => rfl, fun _ _ => rfl⟩

/-- A tree over mirrored leaves mirrors the tree. -/
theorem SourceTree.mirrors_map {f : σ → τ} (h : Mirrors f) : Mirrors (SourceTree.map f) := by
  have hcovers : ∀ (tree : SourceTree σ) unit, (tree.map f).covers unit = tree.covers unit := by
    intro tree unit
    induction tree with
    | leaf source => exact h.covers_eq source unit
    | layered index fallback ihindex ihfallback => rw [map, covers, covers, ihindex, ihfallback]
    | cached _ _ ih => exact ih
    | narrowed => rfl
  refine ⟨hcovers, fun tree unit => ?_⟩
  change (tree.map f).read unit = ((tree.read unit).1, (tree.read unit).2.map f)
  induction tree with
  | leaf source =>
    rw [map, read, read, h.read_eq]
    rfl
  | layered index fallback ihindex ihfallback =>
    rw [map, read, read, hcovers, ihindex, ihfallback]
    split <;> rfl
  | cached entries inner ih =>
    rw [map, read, read, ih]
    cases entries[unit]? with
    | some metadata => rfl
    | none => rcases inner.read unit with ⟨_ | _, _⟩ <;> rfl
  | narrowed covered inner ih =>
    rw [map, read, read, ih]
    rfl

/-- Mirrored sources are led on by the same reads. -/
theorem Source.Leads.mirrors {f : σ → τ} (h : Mirrors f) : ∀ {source last : σ} {reads : List Read},
    Leads source reads last → Leads (f source) reads (f last)
  | _, _, [], rfl => rfl
  | source, _, r :: _, ⟨next, hread, hrest⟩ => by
    refine ⟨f next, ?_, hrest.mirrors h⟩
    rw [h.read_eq, hread]

/-- An outcome of looking through a view, with the mirror of the source. -/
def View.mirrored {α : Type} (f : σ → τ) (outcome : α × View × σ) : α × View × τ :=
  (outcome.1, outcome.2.1, f outcome.2.2)

variable {f : σ → τ} (h : Mirrors f) (source : σ)
include h

/-- What comes down to reads has one outcome for a source and its mirror. -/
theorem ByReads.exists_mirrors {α : Type} {yields : ∀ {τ : Type} [Source τ], τ → α → τ → Prop}
    (hreads : ByReads yields) :
    ∃ outcome next, yields source outcome next ∧ yields (f source) outcome (f next) := by
  obtain ⟨reads, next, outcome, hleads, hyields⟩ := hreads σ source
  exact ⟨outcome, next, hyields hleads, hyields (hleads.mirrors h)⟩

namespace View

theorem ByReads.mirrors {α : Type} {look : ∀ {τ : Type} [Source τ], τ → α × View × τ}
    (hlook : ByReads look) : look (f source) = mirrored f (look source) := by
  obtain ⟨outcome, next, hsource, hmirror⟩ := hlook.exists_mirrors h source
  dsimp only at hsource hmirror
  rw [hmirror, hsource]
  rfl

variable (view : View)

theorem get_mirrors (unit : UnitId) :
    view.get (f source) unit = mirrored f (view.get source unit) :=
  (view.byReads_get unit).mirrors h source

theorem getAll_mirrors (units : List UnitId) :
    view.getAll (f source) units = mirrored f (view.getAll source units) :=
  (view.byReads_getAll units).mirrors h source

theorem predecessors_mirrors (unit : UnitId) :
    view.predecessors (f source) unit = mirrored f (view.predecessors source unit) :=
  (view.byReads_predecessors unit).mirrors h source

theorem external_mirrors : view.external (f source) = mirrored f (view.external source) :=
  view.byReads_external.mirrors h source

end View

variable (units : List UnitId)

theorem sort_mirrors :
    sort (f source) units = ((sort source units).1, f (sort source units).2) := by
  obtain ⟨answer, next, hsource, hmirror⟩ := (byReads_sort units).exists_mirrors h source
  rw [hmirror, hsource]

theorem check_mirrors :
    check (f source) units = ((check source units).1, f (check source units).2) := by
  obtain ⟨answer, next, hsource, hmirror⟩ := (byReads_check units).exists_mirrors h source
  rw [hmirror, hsource]

omit h

/-! ### Without the account -/

variable {units} {recorded last : Recorded σ}

/-- A sort gives the same when no account of its reads is kept. -/
theorem sort_of_recorded {answer : Except SortError (List UnitId)}
    (h : sort recorded units = (answer, last)) :
    sort recorded.source units = (answer, last.source) := by
  rw [sort_mirrors Recorded.mirrors recorded, h]

theorem check_of_recorded {answer : Except MetadataError CheckReport}
    (h : check recorded units = (answer, last)) :
    check recorded.source units = (answer, last.source) := by
  rw [check_mirrors Recorded.mirrors recorded, h]

end ActivationOrder
