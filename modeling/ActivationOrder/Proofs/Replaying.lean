import ActivationOrder.Batch.Check
import ActivationOrder.Proofs.Reading
import ActivationOrder.Source.Recorded

/-!
What is done with a source comes down to reads. Views, sorts and checks do nothing with a source but
read it, so the answers to their reads, in their order, decide what they give. `Leads` is a list of
reads as a way from one state of a source to another. `ByReads` says of what is done with a source
that it goes such a way, and that every other source which answers these reads alike yields the
same.
-/

namespace ActivationOrder

variable {σ : Type} [Source σ]

namespace Source

/-- The reads are answered in this way, one after the other, and lead to this state. -/
def Leads : σ → List Read → σ → Prop
  | source, [], last => source = last
  | source, r :: reads, last =>
    ∃ next, read source r.unit = (r.answer, next) ∧ Leads next reads last

theorem leads_append {reads' : List Read} {last : σ} : ∀ {source : σ} {reads : List Read},
    Leads source (reads ++ reads') last ↔ ∃ mid, Leads source reads mid ∧ Leads mid reads' last
  | source, [] => by simp [Leads]
  | source, r :: reads => by
    rw [List.cons_append, Leads]
    constructor
    · rintro ⟨next, hread, hrest⟩
      obtain ⟨mid, hmid, hlast⟩ := leads_append.mp hrest
      exact ⟨mid, ⟨next, hread, hmid⟩, hlast⟩
    · rintro ⟨mid, ⟨next, hread, hmid⟩, hlast⟩
      exact ⟨next, hread, leads_append.mpr ⟨mid, hmid, hlast⟩⟩

/-- One more read at the end. -/
theorem leads_concat {source last : σ} {reads : List Read} {r : Read} :
    Leads source (reads ++ [r]) last ↔
      ∃ mid, Leads source reads mid ∧ read mid r.unit = (r.answer, last) := by
  simp [leads_append, Leads]

end Source

open Source (Leads)

/-- An account of reads grows by the reads that lead on. -/
theorem Recorded.reads_eq : ∀ {reads : List Read} {recorded last : Recorded σ},
    Leads recorded reads last → last.reads = recorded.reads ++ reads
  | [], _, _, rfl => by simp
  | r :: reads, recorded, last, ⟨next, hread, hrest⟩ => by
    rw [reads_eq hrest]
    rcases hsource : Source.read recorded.source r.unit with ⟨answer, source⟩
    rw [read_eq hsource] at hread
    cases hread
    exact List.append_assoc ..

/-- What is done with a source comes down to reads: in whatever state the source is, there are reads
that lead on, and every other source that they lead on yields the same outcome. -/
def ByReads {α : Type} (yields : ∀ {τ : Type} [Source τ], τ → α → τ → Prop) : Prop :=
  ∀ (σ : Type) [Source σ] (source : σ), ∃ reads next outcome, Leads source reads next ∧
    ∀ {τ : Type} [Source τ] {other last : τ}, Leads other reads last → yields other outcome last

namespace View

/-- The same of a look through a view, which may have become another view by it. -/
def ByReads {α : Type} (look : ∀ {τ : Type} [Source τ], τ → α × View × τ) : Prop :=
  ActivationOrder.ByReads fun other (outcome : α × View) last =>
    look other = (outcome.1, outcome.2, last)

theorem byReads_get (view : View) (unit : UnitId) :
    ByReads (view.get · unit) := by
  intro σ _ source
  cases hmemo : view.memo[unit]? with
  | some metadata =>
    refine ⟨[], source, (.ok metadata, view), rfl, ?_⟩
    rintro τ _ other _ rfl
    simp only [get, hmemo]
  | none =>
    rcases hread : Source.read source unit with ⟨cause | metadata, next⟩
    · refine ⟨[⟨unit, .error cause⟩], next, (.error cause, view), ⟨next, hread, rfl⟩, ?_⟩
      rintro τ _ other _ ⟨last, hother, rfl⟩
      simp only [get, hmemo, hother]
    · refine ⟨[⟨unit, .ok metadata⟩], next, (.ok metadata, view.remember unit metadata),
        ⟨next, hread, rfl⟩, ?_⟩
      rintro τ _ other _ ⟨last, hother, rfl⟩
      simp only [get, hmemo, hother, remember]

theorem byReads_getAll (units : List UnitId) (view : View) :
    ByReads (view.getAll · units) := by
  intro σ _ source
  induction units generalizing view source with
  | nil =>
    refine ⟨[], source, (.ok (), view), rfl, ?_⟩
    rintro τ _ other _ rfl
    rfl
  | cons unit units ih =>
    obtain ⟨reads, next, ⟨answer, seen⟩, hleads, hget⟩ := byReads_get view unit σ source
    cases answer with
    | error cause =>
      refine ⟨reads, next, (.error cause, seen), hleads, fun h => ?_⟩
      simp only [getAll, hget h]
    | ok metadata =>
      obtain ⟨more, last, outcome, hmore, hrest⟩ := ih seen next
      refine ⟨reads ++ more, last, outcome, Source.leads_append.mpr ⟨next, hleads, hmore⟩,
        fun h => ?_⟩
      obtain ⟨mid, hfirst, hsecond⟩ := Source.leads_append.mp h
      simp only [getAll, hget hfirst, hrest hsecond]

theorem byReads_getBatch (view : View) :
    ByReads (view.getBatch ·) :=
  byReads_getAll view.batch.toList view

theorem byReads_collect (view : View) :
    ByReads (view.collect ·) := by
  intro σ _ source
  cases hdeclared : view.declared with
  | some declared =>
    refine ⟨[], source, (.ok declared, view), rfl, ?_⟩
    rintro τ _ other _ rfl
    simp only [collect, hdeclared]
  | none =>
    obtain ⟨reads, next, ⟨answer, seen⟩, hleads, hget⟩ := byReads_getBatch view σ source
    cases answer with
    | error cause =>
      refine ⟨reads, next, (.error cause, seen), hleads, fun h => ?_⟩
      simp only [collect, hdeclared, hget h]
    | ok _ =>
      let declared := declaredBefore seen.batch seen.memo
      refine ⟨reads, next, (.ok declared, { seen with declared := some declared }), hleads,
        fun h => ?_⟩
      simp only [collect, hdeclared, hget h, declared]

theorem byReads_predecessors (view : View) (unit : UnitId) :
    ByReads (view.predecessors · unit) := by
  intro σ _ source
  obtain ⟨reads, next, ⟨answer, seen⟩, hleads, hcollect⟩ := byReads_collect view σ source
  cases answer with
  | error cause =>
    refine ⟨reads, next, (.error cause, seen), hleads, fun h => ?_⟩
    simp only [predecessors, hcollect h]
  | ok declared =>
    obtain ⟨more, last, ⟨answer, final⟩, hmore, hget⟩ := byReads_get seen unit σ next
    have hway := Source.leads_append.mpr ⟨next, hleads, hmore⟩
    cases answer with
    | error cause =>
      refine ⟨reads ++ more, last, (.error cause, final), hway, fun h => ?_⟩
      obtain ⟨mid, hfirst, hsecond⟩ := Source.leads_append.mp h
      simp only [predecessors, hcollect hfirst, hget hsecond]
    | ok metadata =>
      refine ⟨reads ++ more, last, (.ok (metadata.after ∪ declared.getD unit ∅), final), hway,
        fun h => ?_⟩
      obtain ⟨mid, hfirst, hsecond⟩ := Source.leads_append.mp h
      simp only [predecessors, hcollect hfirst, hget hsecond]

theorem byReads_external (view : View) :
    ByReads (view.external ·) := by
  intro σ _ source
  obtain ⟨reads, next, ⟨answer, seen⟩, hleads, hget⟩ := byReads_getBatch view σ source
  cases answer with
  | error cause =>
    refine ⟨reads, next, (.error cause, seen), hleads, fun h => ?_⟩
    simp only [View.external, hget h]
  | ok _ =>
    refine ⟨reads, next, (.ok (externalReferences seen.batch seen.memo), seen), hleads,
      fun h => ?_⟩
    simp only [View.external, hget h]

end View

theorem byReads_sort (units : List UnitId) :
    ByReads fun other answer last => sort other units = (answer, last) := by
  intro σ _ source
  obtain ⟨reads, next, ⟨answer, seen⟩, hleads, hget⟩ :=
    View.byReads_getBatch (.ofUnits units) σ source
  cases answer with
  | error cause =>
    refine ⟨reads, next, .error (.ofMetadata cause), hleads, fun h => ?_⟩
    simp only [sort, hget h]
  | ok _ =>
    refine ⟨reads, next, (Relations.of seen.batch seen.memo).resolve.mapError .cycle, hleads,
      fun h => ?_⟩
    simp only [sort, hget h]
    cases (Relations.of seen.batch seen.memo).resolve <;> rfl

theorem byReads_check (units : List UnitId) :
    ByReads fun other answer last => check other units = (answer, last) := by
  intro σ _ source
  obtain ⟨reads, next, ⟨answer, seen⟩, hleads, hexternal⟩ :=
    View.byReads_external (.ofUnits units) σ source
  cases answer with
  | error cause =>
    refine ⟨reads, next, .error cause, hleads, fun h => ?_⟩
    simp only [check, hexternal h]
  | ok external =>
    obtain ⟨more, last, order, hmore, hsort⟩ := byReads_sort units σ next
    have hway := Source.leads_append.mpr ⟨next, hleads, hmore⟩
    -- a unit that cannot be read fails the check, every other outcome of the sort is reported
    by_cases hunread : ∃ unit cause, order = .error (.unreadable unit cause)
    · obtain ⟨unit, cause, rfl⟩ := hunread
      refine ⟨reads ++ more, last, .error (.unreadable unit cause), hway, fun h => ?_⟩
      obtain ⟨mid, hfirst, hsecond⟩ := Source.leads_append.mp h
      simp only [check, hexternal hfirst, hsort hsecond]
    · refine ⟨reads ++ more, last, .ok ⟨order, external⟩, hway, fun h => ?_⟩
      obtain ⟨mid, hfirst, hsecond⟩ := Source.leads_append.mp h
      simp only [check, hexternal hfirst, hsort hsecond]
      rcases order with (⟨unit, cause⟩ | _ | _) | _
      · exact absurd ⟨unit, cause, rfl⟩ hunread
      all_goals rfl

end ActivationOrder
