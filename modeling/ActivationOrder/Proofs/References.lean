import ActivationOrder.Proofs.Alike
import ActivationOrder.Proofs.Checking
import ActivationOrder.Proofs.Demands
import ActivationOrder.Proofs.Settled

/-!
What becomes of each declared reference. A check of a source whose answers do not change looks at
one and the same metadata twice: the first look sorts out the references that lead out of the batch,
the second sorts the batch by those that do not. So each reference either is in the report or is
honoured by the order, and the two parts do not meet: without the references of the report, the
order is the same, and nothing is left to report.
-/

namespace ActivationOrder

/-! ### Sources whose answers do not change -/

section
variable {σ : Type} [Source σ] {source : σ} {metadata : UnitId → Metadata} {units : List UnitId}

/-- The source answers with this metadata whenever it is asked for one of these units, as long as it
is asked for them alone. -/
def Source.Repeats (source : σ) (units : List UnitId) (metadata : UnitId → Metadata) : Prop :=
  ∀ reads : List UnitId, (∀ unit ∈ reads, unit ∈ units) → Answers source reads metadata

/-- The answers that are left after some reads. -/
theorem Source.Answers.after {later : List UnitId} : ∀ {source : σ} {reads : List UnitId},
    Answers source (reads ++ later) metadata → Answers (after source reads) later metadata
  | _, [], h => h
  | source, unit :: reads, ⟨_, hrest⟩ => by
    have hrest : Answers (read source unit).2 (reads ++ later) metadata := hrest
    exact hrest.after

/-- Reads leave the answers as they are. -/
theorem Source.Repeats.after (h : Repeats source units metadata) {reads : List UnitId}
    (hreads : ∀ unit ∈ reads, unit ∈ units) : Repeats (after source reads) units metadata :=
  fun later hlater =>
    Answers.after (h (reads ++ later) (List.forall_mem_append.mpr ⟨hreads, hlater⟩))

/-- An index answers for every unit, over and over. -/
theorem Index.repeats (index : Index) (units : List UnitId) :
    Source.Repeats index units index.metadataOf :=
  fun reads _ => index.answers reads

/-- Getting distinct units that are not remembered reads each of them. -/
theorem View.source_getAll : ∀ {view : View} {source : σ} {units : List UnitId}, units.Nodup →
    (∀ u ∈ units, view.memo[u]? = none) → (view.getAll source units).1 = .ok () →
    (view.getAll source units).2.2 = Source.after source units
  | _, _, [], _, _, _ => rfl
  | view, source, unit :: units, hnodup, hfresh, h => by
    have hunit : view.memo[unit]? = none := hfresh unit List.mem_cons_self
    rcases hread : Source.read source unit with ⟨cause | answer, next⟩
    · rw [getAll_cons_error hunit hread] at h
      cases h
    · rw [getAll_cons hunit hread] at h ⊢
      rw [source_getAll (List.nodup_cons.mp hnodup).2 (fresh_tail answer hnodup hfresh) h,
        Source.after, hread]

/-- A fresh view gets its batch, and leaves a source that gives the same answers again. -/
theorem View.getBatch_of_repeats (h : Source.Repeats source units metadata) :
    ∃ seen next, (ofUnits units).getBatch source = (.ok (), seen, next) ∧
      seen.batch = batchOf units ∧ seen.Knows metadata ∧ Source.Repeats next units metadata := by
  have hbatch : ∀ unit ∈ (batchOf units).toList, unit ∈ units := fun unit hunit =>
    mem_batchOf.mp (Std.ExtTreeSet.mem_toList.mp hunit)
  obtain ⟨seen, next, hget, hseen, hmemo⟩ := getBatch_of_answers (h _ hbatch)
  obtain ⟨metadata', hknows⟩ := knows_of_getBatch hget
  refine ⟨seen, next, hget, hseen, fun unit hunit => ?_, ?_⟩
  · rw [hknows unit hunit, ← hknows.getD_eq hunit, hmemo unit (hseen ▸ hunit)]
  · have hnext := source_getAll (nodup_toList _) (fun u _ => memo_ofUnits units u)
      (congrArg Prod.fst hget)
    rw [← getBatch, hget] at hnext
    obtain rfl : next = Source.after source (batchOf units).toList := hnext
    exact h.after hbatch

/-- A check of a source whose answers do not change is one search and one list of references, both
taken from these answers. -/
theorem check_of_repeats (h : Source.Repeats source units metadata) :
    ∃ memo next, (∀ u ∈ batchOf units, memo.getD u {} = metadata u) ∧
      check source units = (.ok ⟨(depthFirst metadata (batchOf units)).mapError .cycle,
        externalReferences (batchOf units) memo⟩, next) := by
  obtain ⟨seen, between, hget, hbatch, hknows, hbetween⟩ := View.getBatch_of_repeats h
  obtain ⟨seen', next, hget', hbatch', hknows', -⟩ := View.getBatch_of_repeats hbetween
  refine ⟨seen.memo, next, fun u hu => hknows.getD_eq (hbatch ▸ hu), ?_⟩
  rw [check, View.external, hget]
  simp only [sort_of_getBatch_ok hbatch' hknows' hget', hbatch]
  cases depthFirst metadata (batchOf units) <;> rfl

end

/-! ### The references of a report -/

namespace ExternalReference

/-- The first reference is listed earlier: its unit is, or it is of the same unit and declared as
`before` against `after`, or on the same side and its target is earlier. -/
def Earlier (a b : ExternalReference) : Prop :=
  compare a.unit b.unit = .lt ∨
    a.unit = b.unit ∧ (a.relation = .before ∧ b.relation = .after ∨
      a.relation = b.relation ∧ compare a.target b.target = .lt)

theorem Earlier.ne {a b : ExternalReference} (h : a.Earlier b) : a ≠ b := by
  rintro rfl
  have hself : ∀ unit : UnitId, compare unit unit ≠ .lt := by simp
  rcases h with hunit | ⟨-, ⟨hbefore, hafter⟩ | ⟨-, htarget⟩⟩
  · exact hself _ hunit
  · rw [hbefore] at hafter
    cases hafter
  · exact hself _ htarget

/-- The order puts the two units as the reference wants them. -/
def HonouredBy (reference : ExternalReference) (order : List UnitId) : Prop :=
  reference.unit ∈ order ∧ reference.target ∈ order ∧
    match reference.relation with
    | .before => order.idxOf reference.unit < order.idxOf reference.target
    | .after => order.idxOf reference.target < order.idxOf reference.unit

end ExternalReference

/-- References come by unit, then by side, then by target. -/
theorem pairwise_externalReferences (batch : UnitSet) (memo : UnitMap Metadata) :
    (externalReferences batch memo).Pairwise ExternalReference.Earlier := by
  rw [externalReferences, List.pairwise_flatMap]
  constructor
  · -- Of one unit.
    intro unit _
    rw [List.pairwise_flatMap]
    constructor
    · -- On one side.
      intro relation _
      have hascending : ((relation.targets (memo.getD unit {})).toList.filter
          (· ∉ batch)).Pairwise (compare · · = .lt) := Std.ExtTreeSet.ordered_toList.filter _
      exact List.pairwise_map.mpr (hascending.imp fun hlt => .inr ⟨rfl, .inr ⟨rfl, hlt⟩⟩)
    · rw [List.pairwise_pair]
      simp only [List.mem_map]
      rintro _ ⟨target, -, rfl⟩ _ ⟨target', -, rfl⟩
      exact .inr ⟨rfl, .inl ⟨rfl, rfl⟩⟩
  · refine Std.ExtTreeSet.ordered_toList.imp fun {unit unit'} hlt => ?_
    simp only [List.mem_flatMap, List.mem_map]
    rintro _ ⟨relation, -, target, -, rfl⟩ _ ⟨relation', -, target', -, rfl⟩
    exact .inl hlt

/-- What a unit declares when these references are deleted. -/
def Metadata.without (metadata : Metadata) (unit : UnitId) (references : List ExternalReference) :
    Metadata :=
  { metadata with
    before := metadata.before.filter (⟨unit, .before, ·⟩ ∉ references)
    after := metadata.after.filter (⟨unit, .after, ·⟩ ∉ references) }

theorem mem_targets_without {metadata : Metadata} {references : List ExternalReference}
    {unit target : UnitId} {relation : Relation} :
    target ∈ relation.targets (metadata.without unit references) ↔
      target ∈ relation.targets metadata ∧ ⟨unit, relation, target⟩ ∉ references := by
  cases relation <;> simp [Relation.targets, Metadata.without]

variable {metadata : UnitId → Metadata} {batch : UnitSet} {memo : UnitMap Metadata}

/-- References inside the batch decide the order, and references out of the batch are not among
them. -/
theorem SameDemands.without {references : List ExternalReference}
    (hout : ∀ reference ∈ references, reference.target ∉ batch) :
    SameDemands metadata (fun unit => (metadata unit).without unit references) batch := by
  have hkept : ∀ (unit : UnitId) (relation : Relation) (target : UnitId), target ∈ batch →
      (target ∈ relation.targets ((metadata unit).without unit references) ↔
        target ∈ relation.targets (metadata unit)) := by
    intro unit relation target htarget
    rw [mem_targets_without]
    exact and_iff_left fun hmem => hout _ hmem htarget
  refine .of_declared (fun _ _ _ _ => Iff.rfl) fun later hlater earlier hearlier => ?_
  exact (or_congr (hkept later .after earlier hearlier) (hkept earlier .before later hlater)).symm

/-- Without the references of the report, nothing leads out of the batch. -/
theorem externalReferences_without {memo' : UnitMap Metadata}
    (hmemo : ∀ unit ∈ batch, memo.getD unit {} = metadata unit)
    (hmemo' : ∀ unit ∈ batch, memo'.getD unit {} =
      (metadata unit).without unit (externalReferences batch memo)) :
    externalReferences batch memo' = [] := by
  refine List.eq_nil_iff_forall_not_mem.mpr fun reference hmem => ?_
  obtain ⟨hunit, htarget, hout⟩ := View.mem_externalReferences.mp hmem
  rw [hmemo' _ hunit, mem_targets_without, ← hmemo _ hunit] at htarget
  exact htarget.2 (View.mem_externalReferences.mpr ⟨hunit, htarget.1, hout⟩)

/-- A reference inside the batch is honoured by the order. -/
theorem honouredBy_of_depthFirst {order : List UnitId} {reference : ExternalReference}
    (h : depthFirst metadata batch = .ok order) (hunit : reference.unit ∈ batch)
    (htarget : reference.target ∈ batch)
    (hdeclared : reference.target ∈ reference.relation.targets (metadata reference.unit)) :
    reference.HonouredBy order := by
  obtain ⟨hsettled, hmem⟩ := settled_of_depthFirst h
  have hunit' := (hmem _).mpr hunit
  have htarget' := (hmem _).mpr htarget
  obtain ⟨unit, _ | _, target⟩ := reference
  · exact ⟨hunit', htarget', (hsettled.idxOf_lt htarget' ⟨hunit, htarget, .inr hdeclared⟩).2⟩
  · exact ⟨hunit', htarget', (hsettled.idxOf_lt hunit' ⟨htarget, hunit, .inl hdeclared⟩).2⟩

/-- No declared reference is lost. A check of a source whose answers do not change reports just the
references of the batch to units outside it, once each and sorted, and an order honours all the
others. A source with the same answers except for the reported references has the same order or
cycle, and nothing to report. -/
theorem check_loses_no_reference {σ : Type} [Source σ] {source : σ} {units : List UnitId}
    (h : Source.Repeats source units metadata) :
    ∃ report next, check source units = (.ok report, next) ∧
      (∀ reference, reference ∈ report.external ↔ reference.unit ∈ units ∧
        reference.target ∈ reference.relation.targets (metadata reference.unit) ∧
        reference.target ∉ units) ∧
      report.external.Pairwise ExternalReference.Earlier ∧ report.external.Nodup ∧
      (∀ order, report.order = .ok order → ∀ reference : ExternalReference,
        reference.unit ∈ units →
        reference.target ∈ reference.relation.targets (metadata reference.unit) →
        reference ∉ report.external → reference.HonouredBy order) ∧
      ∀ {τ : Type} [Source τ] (pruned : τ),
        Source.Repeats pruned units
          (fun unit => (metadata unit).without unit report.external) →
        (check pruned units).1 = .ok ⟨report.order, []⟩ := by
  obtain ⟨memo, next, hmemo, hcheck⟩ := check_of_repeats h
  have hexternal : ∀ reference, reference ∈ externalReferences (batchOf units) memo ↔
      reference.unit ∈ units ∧
        reference.target ∈ reference.relation.targets (metadata reference.unit) ∧
        reference.target ∉ units := by
    intro reference
    rw [View.mem_externalReferences, mem_batchOf, mem_batchOf]
    exact and_congr_right fun hunit => by rw [hmemo _ (mem_batchOf.mpr hunit)]
  have hsorted := pairwise_externalReferences (batchOf units) memo
  refine ⟨_, next, hcheck, hexternal, hsorted, hsorted.imp fun hlt => hlt.ne, ?_, ?_⟩
  · intro order horder reference hunit hdeclared hkept
    have htarget : reference.target ∈ units :=
      Decidable.not_not.mp fun hout => hkept ((hexternal reference).mpr ⟨hunit, hdeclared, hout⟩)
    exact honouredBy_of_depthFirst (mapError_eq_ok.mp horder) (mem_batchOf.mpr hunit)
      (mem_batchOf.mpr htarget) hdeclared
  · intro τ _ pruned hpruned
    obtain ⟨memo', last, hmemo', hcheck'⟩ := check_of_repeats hpruned
    have hout : ∀ reference ∈ externalReferences (batchOf units) memo,
        reference.target ∉ batchOf units :=
      fun reference hmem => (View.mem_externalReferences.mp hmem).2.2
    rw [hcheck', externalReferences_without hmemo hmemo',
      ← (SameDemands.without hout).depthFirst_eq]

namespace Sample

/-- The turned chain without its references to `d`. -/
def kept : Index :=
  .ofEntries [(a, { order := .first }),
    (b, { order := .first, before := .ofList [a], after := .ofList [c] }), (c, { order := .first })]

end Sample

/-- The turned chain has two references that lead out of its batch. It is the same chain without
them. -/
theorem check_loses_no_reference_turned :
    ∃ report next, check Sample.turned [Sample.a, Sample.b, Sample.c] = (.ok report, next) ∧
      report.order = .ok [Sample.c, Sample.b, Sample.a] ∧
      report.external = [⟨Sample.a, .before, Sample.d⟩, ⟨Sample.b, .after, Sample.d⟩] ∧
      ExternalReference.HonouredBy ⟨Sample.b, .before, Sample.a⟩ [Sample.c, Sample.b, Sample.a] ∧
      (check Sample.kept [Sample.a, Sample.b, Sample.c]).1 = .ok ⟨report.order, []⟩ := by
  obtain ⟨report, next, hcheck, -, -, -, hhonoured, hpruned⟩ :=
    check_loses_no_reference (Sample.turned.repeats [Sample.a, Sample.b, Sample.c])
  have hreport : (check Sample.turned [Sample.a, Sample.b, Sample.c]).1 =
      .ok ⟨.ok [Sample.c, Sample.b, Sample.a],
        [⟨Sample.a, .before, Sample.d⟩, ⟨Sample.b, .after, Sample.d⟩]⟩ := by cbv
  rw [hcheck] at hreport
  cases hreport
  refine ⟨_, next, hcheck, rfl, rfl, ?_, hpruned Sample.kept fun reads hreads => ?_⟩
  · exact hhonoured _ rfl ⟨Sample.b, .before, Sample.a⟩ (by decide) (by decide +kernel) (by decide)
  · have hsame : ∀ unit ∈ [Sample.a, Sample.b, Sample.c], Sample.kept.metadataOf unit =
        (Sample.turned.metadataOf unit).without unit
          [⟨Sample.a, .before, Sample.d⟩, ⟨Sample.b, .after, Sample.d⟩] := by decide +kernel
    exact (Sample.kept.answers reads).congr fun unit hunit => hsame unit (hreads unit hunit)

end ActivationOrder
