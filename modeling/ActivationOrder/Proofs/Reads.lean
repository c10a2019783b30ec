import ActivationOrder.Batch.Search
import ActivationOrder.Proofs.ByteOrder
import ActivationOrder.Proofs.Checking

/-!
What a sort reads. A sort reads the units of its batch, each once at most and in the order of their
bytes, and stops at the first read that fails; that failure is then its outcome, before any cycle is
looked for. When no read fails, the view knows all that the constraint pass can ask: the index of
`before` declarations is collected without a read, every unit that is entered is in the batch, and a
unit outside the batch is passed by before its predecessors are asked for. So a search that asks the
view on its way reads nothing and gives the same.
-/

namespace ActivationOrder

variable {σ : Type} [Source σ]

namespace View

/-! ### Reading the batch -/

/-- Units that are not remembered are read as they are listed, up to the first failure. -/
theorem reads_getAll {units : List UnitId} {view : View} (recorded : Recorded σ)
    (hnodup : units.Nodup) (hfresh : ∀ u ∈ units, view.memo[u]? = none) :
    ∃ new, (view.getAll recorded units).2.2.reads = recorded.reads ++ new ∧
      new.map (·.unit) <+: units ∧ EndAs new (view.getAll recorded units).1 ∧
      ((view.getAll recorded units).1 = .ok () → new.map (·.unit) = units) := by
  induction units generalizing view recorded with
  | nil => exact ⟨[], by simp [getAll, EndAs]⟩
  | cons unit units ih =>
    have hunit := hfresh unit List.mem_cons_self
    rcases hread : Source.read recorded.source unit with ⟨cause | metadata, source⟩
    · rw [getAll_cons_error hunit (Recorded.read_eq hread)]
      exact ⟨[⟨unit, .error cause⟩], rfl, by simp, ⟨[], unit, rfl, by simp⟩, by simp⟩
    · rw [getAll_cons hunit (Recorded.read_eq hread)]
      obtain ⟨new, hreads, hstart, hends, hall⟩ :=
        ih ⟨source, recorded.reads ++ [⟨unit, .ok metadata⟩]⟩ hnodup.of_cons
          (fresh_tail metadata hnodup hfresh)
      have hok : EndAs [⟨unit, .ok metadata⟩] (.ok () : Except MetadataError Unit) := by
        simp [EndAs, Except.isOk, Except.toBool]
      refine ⟨⟨unit, .ok metadata⟩ :: new, ?_, ?_, hok.append hends, fun h => ?_⟩
      · rw [hreads, List.append_assoc]
        rfl
      · exact List.cons_prefix_cons.mpr ⟨rfl, hstart⟩
      · rw [List.map_cons, hall h]

/-- A fresh view reads the units of its batch in ascending order, up to the first failure. -/
theorem reads_getBatch (recorded : Recorded σ) (units : List UnitId) :
    ∃ answer seen last new,
      (ofUnits units).getBatch recorded = (answer, seen, ⟨last, recorded.reads ++ new⟩) ∧
      new.map (·.unit) <+: (batchOf units).toList ∧ EndAs new answer ∧
      (answer = .ok () → new.map (·.unit) = (batchOf units).toList) := by
  obtain ⟨new, hreads, hstart, hends, hall⟩ :=
    reads_getAll recorded (nodup_toList (batchOf units)) (fun u _ => memo_ofUnits units u)
  rw [getBatch]
  rcases hget : (ofUnits units).getAll recorded (batchOf units).toList with
    ⟨answer, seen, last, reads⟩
  rw [hget] at hreads hends hall
  obtain rfl : reads = recorded.reads ++ new := hreads
  exact ⟨answer, seen, last, new, rfl, hstart, hends, hall⟩

/-! ### Searching a batch that has been read -/

/-- The relations of what is remembered of the batch. -/
def relations (view : View) : Relations := .of view.batch view.memo

/-- The whole batch is remembered, and if there is an index, it is the one collected from that. -/
structure Ready (view : View) : Prop where
  held : ∀ unit ∈ view.batch, ∃ metadata, view.memo[unit]? = some metadata
  collected : ∀ declared, view.declared = some declared →
    declared = declaredBefore view.batch view.memo

/-- A fresh view that has read its batch is ready. -/
theorem ready_of_getBatch {units : List UnitId} {source next : σ} {view : View}
    (h : (ofUnits units).getBatch source = (.ok (), view, next)) :
    view.batch = batchOf units ∧ view.Ready := by
  obtain ⟨metadata, hknows⟩ := knows_of_getBatch h
  have hkept := getAll_keeps (batchOf units).toList (ofUnits units) source
  rw [← getBatch, h] at hkept
  refine ⟨hkept.1, fun unit hunit => ⟨metadata unit, hknows unit hunit⟩, fun declared hsome => ?_⟩
  rw [hkept.2, ofUnits] at hsome
  cases hsome

/-- The view with its index. -/
def collected (view : View) : View :=
  { view with declared := some (declaredBefore view.batch view.memo) }

variable {view : View} (h : view.Ready) (source : σ)
include h

theorem Ready.ready_collected : view.collected.Ready :=
  ⟨h.held, fun _ hsome => (Option.some.inj hsome).symm⟩

/-- The index is collected without a read. -/
theorem collect_ready :
    view.collect source = (.ok (declaredBefore view.batch view.memo), view.collected, source) := by
  have hheld : ∀ unit ∈ view.batch.toList, ∃ metadata, view.memo[unit]? = some metadata :=
    fun unit hunit => h.held unit (Std.ExtTreeSet.mem_toList.mp hunit)
  rw [collect]
  cases hdeclared : view.declared with
  | none => rw [getBatch, getAll_held source hheld, collected]
  | some declared =>
    obtain rfl := h.collected declared hdeclared
    have hsame : view.collected = view := by rw [collected, ← hdeclared]
    rw [hsame]

/-- The predecessors of a unit of the batch are told without a read. -/
theorem predecessors_ready {unit : UnitId} (hunit : unit ∈ view.batch) :
    view.predecessors source unit =
      (.ok (view.relations.predecessors unit), view.collected, source) := by
  obtain ⟨metadata, hmemo⟩ := h.held unit hunit
  have hget : view.collected.get source unit = (.ok metadata, view.collected, source) := by
    rw [get, collected, hmemo]
  rw [predecessors, collect_ready h source]
  dsimp only
  rw [hget]
  simp [relations, Relations.of, Relations.predecessors, Std.ExtTreeMap.getD_eq_getD_getElem?,
    hmemo]

theorem enter_ready (pass : Pass) {unit : UnitId} (hunit : unit ∈ view.batch) :
    view.enter source pass unit =
      (.ok (.next (pass.enter view.relations unit)), view.collected, source) := by
  rw [enter, predecessors_ready h source hunit]
  rfl

/-- A step of the search is a step of the constraint pass, and reads nothing. -/
theorem step_ready {pass : Pass} (hroots : ∀ root ∈ pass.roots, root ∈ view.batch) :
    ∃ seen : View, seen.Ready ∧ seen.relations = view.relations ∧
      view.step source pass = (.ok (pass.step view.relations), seen, source) := by
  have hbatch : view.relations.batch = view.batch := rfl
  rw [step, Pass.step]
  rcases pass with ⟨roots, stack, visiting, done, resolved⟩
  cases stack with
  | nil =>
    cases roots with
    | nil => exact ⟨view, h, rfl, rfl⟩
    | cons root roots =>
      dsimp only
      split
      · exact ⟨view, h, rfl, rfl⟩
      · have hroot := hroots root List.mem_cons_self
        exact ⟨view.collected, h.ready_collected, rfl, enter_ready h source _ hroot⟩
  | cons frame stack =>
    rcases frame with ⟨unit, _ | ⟨predecessor, pending⟩⟩
    · exact ⟨view, h, rfl, rfl⟩
    · dsimp only
      rw [hbatch]
      split
      · exact ⟨view, h, rfl, rfl⟩
      · next hin =>
        rw [not_or, not_not] at hin
        split
        · exact ⟨view, h, rfl, rfl⟩
        · exact ⟨view.collected, h.ready_collected, rfl, enter_ready h source _ hin.1⟩

end View

/-- A step takes roots and adds none. -/
theorem Pass.roots_step {relations : Relations} {pass next : Pass}
    (h : pass.step relations = .next next) : ∀ root ∈ next.roots, root ∈ pass.roots := by
  intro root hroot
  rw [step] at h
  split at h
  · split at h
    · cases h
    · next roots hroots =>
      rw [hroots]
      split at h <;> cases h <;> exact List.mem_cons_of_mem _ hroot
  · cases h
    exact hroot
  · dsimp only at h
    split at h
    · cases h
      exact hroot
    · split at h
      · cases h
      · cases h
        exact hroot

/-- A search goes on as its step says. -/
theorem View.search_of_step {view seen : View} {source next : σ} {pass : Pass} {move : Move}
    (h : view.step source pass = (.ok move, seen, next)) :
    view.search source pass =
      match move with
      | .next after => seen.search next after
      | .cycle cycle => (.error (.cycle cycle), seen, next)
      | .finished order => (.ok order, seen, next) := by
  rw [search]
  split <;> rename_i hstep <;> rw [hstep] at h <;> cases h <;> rfl

/-- The search gives what the constraint pass gives, and reads nothing. -/
theorem View.search_ready {relations : Relations} (source : σ) (pass : Pass) :
    ∀ {view : View}, view.Ready → view.relations = relations →
      (∀ root ∈ pass.roots, root ∈ relations.batch) →
      ∃ seen : View,
        view.search source pass = ((Pass.run relations pass).mapError .cycle, seen, source) := by
  induction pass using Pass.run.induct relations with
  | case1 pass next hmove ih =>
    rintro view hready rfl hroots
    obtain ⟨seen, hseen, hrelations, hstep⟩ := step_ready hready source hroots
    rw [hmove] at hstep
    obtain ⟨last, hlast⟩ := ih hseen hrelations fun root hroot =>
      hroots root (Pass.roots_step hmove root hroot)
    exact ⟨last, by rw [search_of_step hstep, Pass.run_of_step_next hmove, ← hlast]⟩
  | case2 pass cycle hmove =>
    rintro view hready rfl hroots
    obtain ⟨seen, -, -, hstep⟩ := step_ready hready source hroots
    rw [hmove] at hstep
    exact ⟨seen, by rw [search_of_step hstep, Pass.run_of_step_cycle hmove]; rfl⟩
  | case3 pass order hmove =>
    rintro view hready rfl hroots
    obtain ⟨seen, -, -, hstep⟩ := step_ready hready source hroots
    rw [hmove] at hstep
    exact ⟨seen, by rw [search_of_step hstep, Pass.run_of_step_finished hmove]; rfl⟩

/-- A sort that asks for predecessors on its way gives what a sort gives, and leaves the source as
that does. -/
theorem sortBySearch_eq (source : σ) (units : List UnitId) :
    sortBySearch source units = sort source units := by
  rw [sortBySearch, sort]
  rcases hget : (View.ofUnits units).getBatch source with ⟨cause | _, view, next⟩
  · rfl
  · obtain ⟨-, hready⟩ := View.ready_of_getBatch hget
    have hroots : ∀ root ∈ view.relations.byPriority, root ∈ view.relations.batch :=
      fun root hroot => Std.ExtTreeSet.mem_toList.mp ((perm_byPriority _).mem_iff.mp hroot)
    obtain ⟨seen, hsearch⟩ := View.search_ready next { roots := view.relations.byPriority }
      hready rfl hroots
    dsimp only
    rw [View.relations] at hsearch
    rw [hsearch, Relations.resolve]
    cases Pass.run (.of view.batch view.memo) _ <;> rfl

/-- A sort ends as its reads do: with the failure of the last one, or, when the whole batch has been
read, with an order or a cycle. -/
theorem sort_ends (recorded : Recorded σ) (units : List UnitId) :
    ∃ answer last new, sort recorded units = (answer, ⟨last, recorded.reads ++ new⟩) ∧
      new.map (·.unit) <+: (batchOf units).toList ∧
      ((∃ cause, EndAs new (.error cause : Except MetadataError Unit) ∧
          answer = .error (.ofMetadata cause)) ∨
        (∀ read ∈ new, read.answer.isOk) ∧ new.map (·.unit) = (batchOf units).toList ∧
          ((∃ order, answer = .ok order) ∨ ∃ cycle, answer = .error (.cycle cycle))) := by
  obtain ⟨got, seen, last, new, hget, hstart, hends, hall⟩ := View.reads_getBatch recorded units
  cases got with
  | error cause =>
    obtain ⟨hsort, -⟩ := sort_of_getBatch_error hget
    exact ⟨_, last, new, hsort, hstart, .inl ⟨cause, hends, rfl⟩⟩
  | ok _ =>
    obtain ⟨metadata, hknows⟩ := View.knows_of_getBatch hget
    obtain ⟨hbatch, -⟩ := View.ready_of_getBatch hget
    refine ⟨_, last, new, sort_of_getBatch_ok hbatch hknows hget, hstart,
      .inr ⟨hends, hall rfl, ?_⟩⟩
    cases depthFirst metadata (batchOf units) with
    | ok order => exact .inl ⟨order, rfl⟩
    | error cycle => exact .inr ⟨cycle, rfl⟩

/-- Units in ascending order are in the order of their bytes. -/
theorem pairwise_bytes_of_initial {listed : List UnitId} {batch : UnitSet}
    (h : listed <+: batch.toList) : listed.Pairwise (·.bytes < ·.bytes) :=
  (Std.ExtTreeSet.ordered_toList.sublist h.sublist).imp UnitId.compare_eq_lt_iff.mp

/-- What a sort reads of a source whose answers may change with every read: units of its batch in
the order of their bytes, each once at most, up to the first read that fails. If one fails, the sort
fails with it, whatever the declarations are. If none fails, the batch has been read as a whole, and
the sort gives an order or a cycle. Nothing is read after the batch, also when predecessors are
asked for only as the search goes, and nothing outside it. -/
theorem sort_reads_batch (source : σ) (units : List UnitId) :
    ∃ answer last reads,
      sort (Recorded.mk source []) units = (answer, ⟨last, reads⟩) ∧
      -- It is the same when no account is kept, and when a view is asked for predecessors.
      sort source units = (answer, last) ∧
      sortBySearch (Recorded.mk source []) units = (answer, ⟨last, reads⟩) ∧
      (∀ read ∈ reads, read.unit ∈ units) ∧ reads.map (·.unit) <+: (batchOf units).toList ∧
      (reads.map (·.unit)).Pairwise (·.bytes < ·.bytes) ∧
      ((∃ earlier unit cause, reads = earlier ++ [⟨unit, .error cause⟩] ∧
          (∀ read ∈ earlier, read.answer.isOk) ∧
          answer = .error (match cause with
            | .unreadable unit cause => .unreadable unit cause
            | .scan path cause => .unavailable (.scan path cause))) ∨
        (∀ read ∈ reads, read.answer.isOk) ∧ reads.map (·.unit) = (batchOf units).toList ∧
          ((∃ order, answer = .ok order) ∨ ∃ cycle, answer = .error (.cycle cycle))) := by
  obtain ⟨answer, last, reads, hsort, hstart, hends⟩ := sort_ends (Recorded.mk source []) units
  rw [List.nil_append] at hsort
  refine ⟨answer, last, reads, hsort, sort_of_recorded hsort, ?_, ?_, hstart,
    pairwise_bytes_of_initial hstart, ?_⟩
  · rw [sortBySearch_eq, hsort]
  · intro read hread
    have hlisted : read.unit ∈ reads.map (·.unit) := List.mem_map_of_mem hread
    exact mem_batchOf.mp (Std.ExtTreeSet.mem_toList.mp (hstart.subset hlisted))
  · refine hends.imp_left ?_
    rintro ⟨cause, ⟨earlier, unit, hreads, hearlier⟩, hanswer⟩
    exact ⟨earlier, unit, cause, hreads, hearlier, by rw [hanswer]; cases cause <;> rfl⟩

end ActivationOrder
