import ActivationOrder.Proofs.DepthFirst

/-!
What a sort depends on. Two sorts of the same units give one result, order or cycle, when the two
readings of the batch have the same priority and the same constraints. So it never shows how often
or in which order the units were named, what is said about units outside the batch or by them, how
great an order is, and on which side of a pair a constraint is declared.
-/

namespace ActivationOrder

variable {metadata metadata' : UnitId → Metadata} {batch : UnitSet}

/-- Two readings of a batch that ask the same of its order: the same priority, and the same
constraints. -/
structure SameDemands (metadata metadata' : UnitId → Metadata) (batch : UnitSet) : Prop where
  priority : priorityOrder metadata batch = priorityOrder metadata' batch
  constraints : ∀ earlier later,
    Precedes metadata batch earlier later ↔ Precedes metadata' batch earlier later

/-- Only candidates that have to stand before the unit are looked at. -/
theorem visitEach_filter (path : UnitSet) (unit : UnitId) (candidates order : List UnitId) :
    visitEach metadata batch path unit
        (candidates.filter (decide <| Precedes metadata batch · unit)) order =
      visitEach metadata batch path unit candidates order := by
  induction candidates generalizing order with
  | nil => rfl
  | cons candidate candidates ih =>
    by_cases hprecedes : Precedes metadata batch candidate unit
    · rw [List.filter_cons_of_pos (by simpa using hprecedes)]
      by_cases horder : candidate ∈ order
      · rw [visitEach_skip fun _ => horder, visitEach_skip fun _ => horder, ih]
      · by_cases hpath : candidate ∈ path
        · rw [visitEach_cycle hprecedes horder hpath, visitEach_cycle hprecedes horder hpath]
        · rw [visitEach_visit hprecedes horder hpath, visitEach_visit hprecedes horder hpath,
            funext ih]
    · rw [List.filter_cons_of_neg (by simpa using hprecedes),
        visitEach_skip fun h => absurd h hprecedes, ih]

/-- Two readings, of a batch each, that ask the same of some units: the same units have to stand
before each of them, and these are among them too. -/
structure AgreeOn (among : UnitId → Prop) (metadata : UnitId → Metadata) (batch : UnitSet)
    (metadata' : UnitId → Metadata) (batch' : UnitSet) : Prop where
  constraints : ∀ later, among later → ∀ earlier,
    Precedes metadata batch earlier later ↔ Precedes metadata' batch' earlier later
  closed : ∀ later, among later → ∀ earlier, Precedes metadata batch earlier later → among earlier

section
variable {among : UnitId → Prop} {batch' : UnitSet}
  (h : AgreeOn among metadata batch metadata' batch')
include h

/-- What has to stand before a unit is found among the candidates of either batch. -/
theorem AgreeOn.filter_toList {unit : UnitId} (hunit : among unit) :
    batch.toList.filter (decide <| Precedes metadata' batch' · unit) =
      batch'.toList.filter (decide <| Precedes metadata' batch' · unit) := by
  refine eq_of_ascending (Std.ExtTreeSet.ordered_toList.filter _)
    (Std.ExtTreeSet.ordered_toList.filter _) fun x => ?_
  simp only [List.mem_filter, Std.ExtTreeSet.mem_toList, decide_eq_true_eq]
  constructor
  · rintro ⟨-, hx⟩
    exact ⟨hx.1, hx⟩
  · rintro ⟨-, hx⟩
    exact ⟨((h.constraints unit hunit x).mpr hx).1, hx⟩

/-- A visit asks for the constraints on the unit and on what has to stand before it, and for nothing
else. -/
theorem visit_congr :
    (∀ (path : UnitSet) (order : List UnitId) (unit : UnitId), among unit →
      visit metadata batch path order unit = visit metadata' batch' path order unit) ∧
    (∀ (path : UnitSet) (unit : UnitId) (candidates order : List UnitId), among unit →
      visitEach metadata batch path unit candidates order =
        visitEach metadata' batch' path unit candidates order) := by
  refine visit.mutual_induct metadata batch _ _ ?_ ?_ ?_ ?_ ?_
  · -- A visit: the two batches may list other candidates, which are passed by.
    intro path order unit ih hunit
    rw [visit_eq, visit_eq, ih hunit, ← visitEach_filter _ _ batch.toList, h.filter_toList hunit,
      visitEach_filter]
  · -- No candidate is left.
    intro path unit order hunit
    rw [visitEach, visitEach]
  · -- The candidate is on the path.
    rintro path unit candidate candidates order ⟨hprecedes, horder⟩ hpath hunit
    rw [visitEach_cycle hprecedes horder hpath,
      visitEach_cycle ((h.constraints unit hunit _).mp hprecedes) horder hpath]
  · -- The candidate is visited, and the rest goes on from what the visit gives.
    rintro path unit candidate candidates order ⟨hprecedes, horder⟩ hpath ihvisit iheach hunit
    rw [visitEach_visit hprecedes horder hpath,
      visitEach_visit ((h.constraints unit hunit _).mp hprecedes) horder hpath,
      ← ihvisit (h.closed unit hunit _ hprecedes)]
    cases visit metadata batch path order candidate with
    | error cycle => rfl
    | ok order => exact iheach order hunit
  · -- The candidate is passed by.
    intro path unit candidate candidates order hskip ih hunit
    rw [not_and_not_right] at hskip
    rw [visitEach_skip hskip,
      visitEach_skip fun hp => hskip ((h.constraints unit hunit _).mpr hp), ih hunit]

theorem visitRoots_congr : ∀ {roots order : List UnitId}, (∀ root ∈ roots, among root) →
    visitRoots metadata batch roots order = visitRoots metadata' batch' roots order
  | [], order, _ => by rw [visitRoots, visitRoots]
  | root :: roots, order, hroots => by
    rw [List.forall_mem_cons] at hroots
    by_cases hroot : root ∈ order
    · rw [visitRoots_skip hroot, visitRoots_skip hroot, visitRoots_congr hroots.2]
    · rw [visitRoots_visit hroot, visitRoots_visit hroot, ← (visit_congr h).1 _ _ _ hroots.1]
      cases visit metadata batch ∅ order root with
      | error cycle => rfl
      | ok order => exact visitRoots_congr hroots.2

end

/-- The search is decided by what is asked of it. -/
theorem SameDemands.depthFirst_eq (h : SameDemands metadata metadata' batch) :
    depthFirst metadata batch = depthFirst metadata' batch := by
  have hagree : AgreeOn (fun _ => True) metadata batch metadata' batch :=
    ⟨fun later _ earlier => h.constraints earlier later, fun _ _ _ _ => trivial⟩
  rw [depthFirst, depthFirst, h.priority, visitRoots_congr hagree fun _ _ => trivial]

/-- Priority compares orders and knows nothing else of them. -/
theorem priorityOrder_congr (h : ∀ a ∈ batch, ∀ b ∈ batch,
      (metadata a).order.value < (metadata b).order.value ↔
        (metadata' a).order.value < (metadata' b).order.value) :
    priorityOrder metadata batch = priorityOrder metadata' batch := by
  have hperm : (priorityOrder metadata batch).Perm (priorityOrder metadata' batch) :=
    (List.mergeSort_perm _ _).trans (List.mergeSort_perm _ _).symm
  refine eq_of_pairwise_ahead ?_ pairwise_priorityOrder hperm
  refine pairwise_priorityOrder.imp_of_mem fun {a b} ha hb hab => ?_
  have hlt := h a (mem_priorityOrder.mp ha) b (mem_priorityOrder.mp hb)
  have hgt := h b (mem_priorityOrder.mp hb) a (mem_priorityOrder.mp ha)
  rcases hab with hab | ⟨heq, hid⟩
  · exact .inl (hlt.mp hab)
  · exact .inr ⟨by omega, hid⟩

theorem batchOf_congr {units units' : List UnitId} (h : ∀ unit, unit ∈ units ↔ unit ∈ units') :
    batchOf units = batchOf units' :=
  Std.ExtTreeSet.ext_mem fun unit => by rw [mem_batchOf, mem_batchOf, h]

/-- Orders that compare alike and declarations that state the same constraints ask the same. -/
theorem SameDemands.of_declared
    (horder : ∀ a ∈ batch, ∀ b ∈ batch,
      (metadata a).order.value < (metadata b).order.value ↔
        (metadata' a).order.value < (metadata' b).order.value)
    (hdeclared : ∀ later ∈ batch, ∀ earlier ∈ batch,
      earlier ∈ (metadata later).after ∨ later ∈ (metadata earlier).before ↔
        earlier ∈ (metadata' later).after ∨ later ∈ (metadata' earlier).before) :
    SameDemands metadata metadata' batch := by
  refine ⟨priorityOrder_congr horder, fun earlier later => ?_⟩
  constructor
  · rintro ⟨hearlier, hlater, h⟩
    exact ⟨hearlier, hlater, (hdeclared later hlater earlier hearlier).mp h⟩
  · rintro ⟨hearlier, hlater, h⟩
    exact ⟨hearlier, hlater, (hdeclared later hlater earlier hearlier).mpr h⟩

variable {σ τ : Type} [Source σ] [Source τ] {source : σ} {source' : τ} {units units' : List UnitId}

/-- Two sorts of the same units give one result, whatever else sets the requests and the sources
apart, if priority and constraints inside the batch are the same. They are the same if orders
compare alike and each pair of units is tied alike, on whichever side that is declared. -/
theorem sort_eq_of_sameDemands (hunits : ∀ unit, unit ∈ units ↔ unit ∈ units')
    (h : Source.Answers source (batchOf units).toList metadata)
    (h' : Source.Answers source' (batchOf units').toList metadata') :
    (SameDemands metadata metadata' (batchOf units) →
      (sort source units).1 = (sort source' units').1) ∧
    ((∀ a ∈ units, ∀ b ∈ units, (metadata a).order.value < (metadata b).order.value ↔
        (metadata' a).order.value < (metadata' b).order.value) →
      (∀ later ∈ units, ∀ earlier ∈ units,
        earlier ∈ (metadata later).after ∨ later ∈ (metadata earlier).before ↔
          earlier ∈ (metadata' later).after ∨ later ∈ (metadata' earlier).before) →
      (sort source units).1 = (sort source' units').1) := by
  have hsame : SameDemands metadata metadata' (batchOf units) →
      (sort source units).1 = (sort source' units').1 := by
    intro hdemands
    obtain ⟨memo, hmemo, hsort⟩ := sort_of_answers h
    obtain ⟨memo', hmemo', hsort'⟩ := sort_of_answers h'
    rw [hsort, hsort', Relations.resolve_eq hmemo, Relations.resolve_eq hmemo',
      hdemands.depthFirst_eq, batchOf_congr hunits]
  refine ⟨hsame, fun horder hdeclared => hsame (.of_declared ?_ ?_)⟩
  · simpa only [mem_batchOf] using horder
  · simpa only [mem_batchOf] using hdeclared

namespace Sample

def d : UnitId := ⟨"d", by decide⟩

/-- The chain with other orders, both constraints declared on their other sides, and references that
lead out of a batch without `d`. -/
def turned : Index :=
  .ofEntries [(a, { order := .first, before := .ofList [d] }),
    (b, { order := .first, before := .ofList [a], after := .ofList [c, d] }),
    (c, { order := .first }), (d, { before := .ofList [c], after := .ofList [a] })]

end Sample

/-- The turned chain, asked for in another order, comes out as the chain. -/
theorem sort_eq_of_sameDemands_turned :
    Source.Answers Sample.chain (batchOf [Sample.a, Sample.b, Sample.c]).toList
        Sample.chain.metadataOf ∧
      Source.Answers Sample.turned (batchOf [Sample.c, Sample.a, Sample.b, Sample.a]).toList
        Sample.turned.metadataOf ∧
      (sort Sample.chain [Sample.a, Sample.b, Sample.c]).1 = .ok [Sample.c, Sample.b, Sample.a] ∧
      (sort Sample.turned [Sample.c, Sample.a, Sample.b, Sample.a]).1 =
        .ok [Sample.c, Sample.b, Sample.a] := by
  have h := Index.answers Sample.chain (batchOf [Sample.a, Sample.b, Sample.c]).toList
  have h' := Index.answers Sample.turned (batchOf [Sample.c, Sample.a, Sample.b, Sample.a]).toList
  have hsame : (sort Sample.chain [Sample.a, Sample.b, Sample.c]).1 =
      (sort Sample.turned [Sample.c, Sample.a, Sample.b, Sample.a]).1 := by
    refine (sort_eq_of_sameDemands ?_ h h').2 ?_ ?_
    · intro unit
      simp only [List.mem_cons, List.not_mem_nil]
      grind
    · decide +kernel
    · decide +kernel
  have hchain : (sort Sample.chain [Sample.a, Sample.b, Sample.c]).1 =
      .ok [Sample.c, Sample.b, Sample.a] := by
    cbv
  exact ⟨h, h', hchain, hsame.symm.trans hchain⟩

end ActivationOrder
