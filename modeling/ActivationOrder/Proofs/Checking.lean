import ActivationOrder.Proofs.DepthFirst
import ActivationOrder.Proofs.Remembering

/-!
Checks of a cached source. A check looks through two views, one after the other, at a source that
may have changed in between. A cache makes the second look the same as the first: behind it, reading
goes as if the cache were a view that remembers its entries, and what the first view has got is then
in the cache. So only the first view reads the source inside, the check fails only when one of these
reads fails, and sorting the same batch afterwards is sorting what was checked.
-/

namespace ActivationOrder

variable {α : Type} [Source α]

namespace View

/-- The first view remembers nothing that the second does not remember alike. -/
def Within (view store : View) : Prop :=
  ∀ (unit : UnitId) (metadata : Metadata),
    view.memo[unit]? = some metadata → store.memo[unit]? = some metadata

theorem Within.knows_eq {view store other : View} {metadata metadata' : UnitId → Metadata}
    (h : view.Within store) (h' : other.Within store) (hknows : view.Knows metadata)
    (hknows' : other.Knows metadata') {unit : UnitId} (hunit : unit ∈ view.batch)
    (hunit' : unit ∈ other.batch) : metadata unit = metadata' unit := by
  have hfirst := h unit _ (hknows unit hunit)
  rw [h' unit _ (hknows' unit hunit')] at hfirst
  exact (Option.some.inj hfirst).symm

/-- A new view remembers nothing. -/
theorem within_ofUnits (units : List UnitId) (store : View) : (ofUnits units).Within store := by
  intro unit metadata hmemo
  rw [memo_ofUnits] at hmemo
  cases hmemo

/-- A view may remember what the store does. -/
theorem Within.remember {view store : View} {unit : UnitId} {metadata : Metadata}
    (h : view.Within store) (hunit : store.memo[unit]? = some metadata) :
    (view.remember unit metadata).Within store := by
  intro u m hmemo
  rw [remember_memo] at hmemo
  split at hmemo
  · next heq => rw [← heq, hunit, hmemo]
  · exact h u m hmemo

/-- The store may remember what the view does not. -/
theorem Within.store_remember {view store : View} {unit : UnitId} (h : view.Within store)
    (hunit : view.memo[unit]? = none) (metadata : Metadata) :
    view.Within (store.remember unit metadata) := by
  intro u m hmemo
  rw [remember_memo, if_neg]
  · exact h u m hmemo
  · rintro rfl
    rw [hunit] at hmemo
    cases hmemo

/-- A read through a cache is a read through a view that remembers the entries of the cache. -/
theorem get_cached {view store : View} (hwithin : view.Within store) (inner : SourceTree α)
    (unit : UnitId) :
    ∃ seen : View, seen.batch = view.batch ∧ seen.Within (store.get inner unit).2.1 ∧
      view.get (SourceTree.cached store.memo inner) unit = ((store.get inner unit).1, seen,
        .cached (store.get inner unit).2.1.memo (store.get inner unit).2.2) := by
  have hcached : Source.read (SourceTree.cached store.memo inner) unit =
      SourceTree.read (.cached store.memo inner) unit := rfl
  rw [get, get, hcached, SourceTree.read]
  cases hview : view.memo[unit]? with
  | some metadata =>
    rw [hwithin unit metadata hview]
    exact ⟨view, rfl, hwithin, rfl⟩
  | none =>
    cases hstore : store.memo[unit]? with
    | some metadata => exact ⟨view.remember unit metadata, rfl, hwithin.remember hstore, rfl⟩
    | none =>
      have hinner : Source.read inner unit = inner.read unit := rfl
      rw [hinner]
      rcases inner.read unit with ⟨cause | metadata, next⟩
      · exact ⟨view, rfl, hwithin, rfl⟩
      · have hunit : (store.remember unit metadata).memo[unit]? = some metadata := by
          rw [remember_memo, if_pos rfl]
        have hboth := (hwithin.store_remember hview metadata).remember hunit
        exact ⟨view.remember unit metadata, rfl, hboth, rfl⟩

theorem getAll_cached : ∀ (units : List UnitId) {view store : View} (inner : SourceTree α),
    view.Within store →
    ∃ seen : View, seen.batch = view.batch ∧ seen.Within (store.getAll inner units).2.1 ∧
      view.getAll (SourceTree.cached store.memo inner) units = ((store.getAll inner units).1, seen,
        .cached (store.getAll inner units).2.1.memo (store.getAll inner units).2.2)
  | [], view, store, inner, hwithin => ⟨view, rfl, hwithin, rfl⟩
  | unit :: units, view, store, inner, hwithin => by
    obtain ⟨seen, hbatch, hseen, hget⟩ := get_cached hwithin inner unit
    rw [getAll, getAll, hget]
    rcases hstore : store.get inner unit with ⟨cause | metadata, next, last⟩ <;>
      rw [hstore] at hseen
    · exact ⟨seen, hbatch, hseen, rfl⟩
    · obtain ⟨final, hfinal, hrest, hgetAll⟩ := getAll_cached units last hseen
      exact ⟨final, hfinal.trans hbatch, hrest, hgetAll⟩

variable {σ : Type} [Source σ]

/-- What is remembered is got without a read. -/
theorem getAll_held (source : σ) : ∀ {units : List UnitId} {store : View},
    (∀ unit ∈ units, ∃ metadata, store.memo[unit]? = some metadata) →
    store.getAll source units = (.ok (), store, source)
  | [], _, _ => rfl
  | unit :: units, store, h => by
    rw [List.forall_mem_cons] at h
    obtain ⟨metadata, hunit⟩ := h.1
    rw [getAll, get, hunit]
    exact getAll_held source h.2

/-- A view that has got a batch knows it, whatever the source. -/
theorem knows_of_getBatch {view seen : View} {source next : σ}
    (h : view.getBatch source = (.ok (), seen, next)) : ∃ metadata, seen.Knows metadata := by
  obtain ⟨-, -, hknows⟩ := accounts_getBatch view (Recorded.mk source [])
  have hmirror := getAll_mirrors Recorded.mirrors (Recorded.mk source []) view view.batch.toList
  rw [← getBatch, h] at hmirror
  have hseen : (view.getBatch (Recorded.mk source [])).2.1 = seen :=
    (congrArg (fun outcome => outcome.2.1) hmirror).symm
  rw [← hseen]
  exact hknows (congrArg Prod.fst hmirror).symm

end View

section
variable {σ : Type} [Source σ] {source next : σ} {units : List UnitId} {seen : View}

/-- A batch that cannot be read stops a sort and a check alike. -/
theorem sort_of_getBatch_error {cause : MetadataError}
    (h : (View.ofUnits units).getBatch source = (.error cause, seen, next)) :
    sort source units = (.error (.ofMetadata cause), next) ∧
      check source units = (.error cause, next) := by
  constructor
  · rw [sort, h]
  · rw [check, View.external, h]

/-- A batch that has been read is sorted by what is remembered of it. -/
theorem sort_of_getBatch_ok {metadata : UnitId → Metadata} (hbatch : seen.batch = batchOf units)
    (hknows : seen.Knows metadata)
    (h : (View.ofUnits units).getBatch source = (.ok (), seen, next)) :
    sort source units = ((depthFirst metadata (batchOf units)).mapError .cycle, next) := by
  have hmemo : ∀ unit ∈ seen.batch, seen.memo.getD unit {} = metadata unit :=
    fun _ hunit => hknows.getD_eq hunit
  rw [sort, h]
  dsimp only
  rw [Relations.resolve_eq hmemo, hbatch]
  cases depthFirst metadata (batchOf units) <;> rfl

end

/-- A check of a cached source whose batch has been read: it reports what sorting gives, and sorting
the batch again gives this too and reads nothing. -/
theorem check_cached_of_getBatch {entries : UnitMap Metadata} {inner next : SourceTree α}
    {units : List UnitId} {seen : View}
    (h : (View.ofUnits units).getBatch (SourceTree.cached entries inner) = (.ok (), seen, next)) :
    ∃ result : Except Cycle (List UnitId),
      sort (SourceTree.cached entries inner) units = (result.mapError .cycle, next) ∧
      check (SourceTree.cached entries inner) units =
        (.ok ⟨result.mapError .cycle, externalReferences seen.batch seen.memo⟩, next) ∧
      sort next units = (result.mapError .cycle, next) := by
  obtain ⟨metadata, hknows⟩ := View.knows_of_getBatch h
  -- The first look: what the view has got is in the cache.
  obtain ⟨first, hbatch, hwithin, hget⟩ := View.getAll_cached (batchOf units).toList inner
    (View.within_ofUnits units { batch := ∅, memo := entries })
  change first.batch = batchOf units at hbatch
  rw [View.getBatch] at h
  obtain ⟨hok, hseen, hnext⟩ : _ ∧ first = seen ∧ _ = next := by
    simpa only [Prod.mk.injEq] using hget.symm.trans h
  subst hseen
  generalize View.getAll _ inner (batchOf units).toList = got at hwithin hok hnext h
  -- The second look: it finds everything there.
  have hheld : ∀ unit ∈ (batchOf units).toList,
      ∃ metadata, got.2.1.memo[unit]? = some metadata := by
    intro unit hunit
    rw [Std.ExtTreeSet.mem_toList, ← hbatch] at hunit
    exact ⟨metadata unit, hwithin unit _ (hknows unit hunit)⟩
  obtain ⟨second, hbatch', hwithin', hget'⟩ :=
    View.getAll_cached (batchOf units).toList got.2.2 (View.within_ofUnits units got.2.1)
  change second.batch = batchOf units at hbatch'
  simp only [View.getAll_held got.2.2 hheld, hnext] at hget' hwithin'
  obtain ⟨metadata', hknows'⟩ := View.knows_of_getBatch hget'
  have hsort := sort_of_getBatch_ok hbatch hknows h
  have hsame : second.Knows metadata := by
    intro unit hunit
    rw [hknows' unit hunit]
    exact congrArg some (hwithin'.knows_eq hwithin hknows' hknows hunit
      (by rw [hbatch, ← hbatch']; exact hunit))
  have hsort' := sort_of_getBatch_ok hbatch' hsame hget'
  refine ⟨depthFirst metadata (batchOf units), hsort, ?_, hsort'⟩
  rw [check, View.external, View.getBatch, h]
  simp only [hsort']
  cases depthFirst metadata (batchOf units) <;> rfl

/-- An answer is an error just when one of the reads fails, and it is the error of this read. -/
theorem EndAs.eq_error_iff {β : Type} {reads : List Read} {answer : Except MetadataError β}
    (h : EndAs reads answer) {cause : MetadataError} :
    answer = .error cause ↔ ∃ unit, ⟨unit, .error cause⟩ ∈ reads := by
  cases answer with
  | ok b =>
    refine ⟨by rintro ⟨⟩, ?_⟩
    rintro ⟨unit, hmem⟩
    cases h _ hmem
  | error found =>
    obtain ⟨earlier, unit, rfl, hearlier⟩ := h
    constructor
    · rintro ⟨⟩
      exact ⟨unit, by simp⟩
    · rintro ⟨u, hmem⟩
      rcases List.mem_append.mp hmem with hmem | hmem
      · cases hearlier _ hmem
      · rw [Except.error.inj (Read.mk.inj (List.mem_singleton.mp hmem)).2]

variable {σ : Type} [Source σ]

/-- What a fresh view reads of a source behind a cache: units of the batch in ascending order, up to
the first failure. -/
theorem View.getBatch_cached (source : σ) (entries : UnitMap Metadata) (units : List UnitId) :
    ∃ answer seen entries' last reads,
      (ofUnits units).getBatch (SourceTree.cached entries (.leaf (Recorded.mk source []))) =
        (answer, seen, .cached entries' (.leaf ⟨last, reads⟩)) ∧
      (reads.map (·.unit)).Sublist (batchOf units).toList ∧ EndAs reads answer := by
  obtain ⟨seen, -, -, hget⟩ := getAll_cached (batchOf units).toList
    (.leaf (Recorded.mk source [])) (within_ofUnits units { batch := ∅, memo := entries })
  rw [getAll_mirrors SourceTree.mirrors_leaf] at hget
  obtain ⟨reads, haccounts, hunits, -⟩ := accounts_getAll (batchOf units).toList
    { batch := ∅, memo := entries } (Recorded.mk source [])
  rcases hgot : getAll { batch := ∅, memo := entries } (Recorded.mk source [])
    (batchOf units).toList with ⟨answer, store, last, reads'⟩
  rw [hgot] at hget haccounts
  obtain rfl : reads' = reads := haccounts.reads_eq
  exact ⟨answer, seen, store.memo, last, reads', hget, hunits, haccounts.ends⟩

/-- A check of a cached source, whatever the cache holds and however the source inside behaves. It
reads units of the batch, each once at most, and all of them before it starts to sort: it leaves the
source as its look for references does. It fails just when one of these reads does, with that error.
A report has an order or a cycle, and this is what sorting gives right afterwards, with nothing read
any more. -/
theorem check_cached (source : σ) (entries : UnitMap Metadata) (units : List UnitId) :
    ∃ answer entries' last reads,
      check (SourceTree.cached entries (.leaf (Recorded.mk source []))) units =
        (answer, .cached entries' (.leaf ⟨last, reads⟩)) ∧
      -- It is the same when no account is kept.
      check (SourceTree.cached entries (.leaf source)) units =
        (answer, .cached entries' (.leaf last)) ∧
      ((View.ofUnits units).external
        (SourceTree.cached entries (.leaf (Recorded.mk source [])))).2.2 =
          .cached entries' (.leaf ⟨last, reads⟩) ∧
      (reads.map (·.unit)).Nodup ∧ (∀ read ∈ reads, read.unit ∈ units) ∧
      (∀ cause, answer = .error cause ↔ ∃ unit, ⟨unit, .error cause⟩ ∈ reads) ∧
      ∀ report, answer = .ok report →
        ((∃ order, report.order = .ok order) ∨ ∃ cycle, report.order = .error (.cycle cycle)) ∧
        sort (SourceTree.cached entries' (.leaf (Recorded.mk last reads))) units =
          (report.order, .cached entries' (.leaf ⟨last, reads⟩)) := by
  obtain ⟨got, seen, entries', last, reads, hget, hunits, hends⟩ :=
    View.getBatch_cached source entries units
  have hnodup : (reads.map (·.unit)).Nodup := hunits.nodup (nodup_toList _)
  have hmem : ∀ read ∈ reads, read.unit ∈ units := by
    intro read hread
    rw [← mem_batchOf, ← Std.ExtTreeSet.mem_toList]
    exact hunits.subset (List.mem_map_of_mem hread)
  have hplain : ∀ answer, check (SourceTree.cached entries (.leaf (Recorded.mk source []))) units =
      (answer, .cached entries' (.leaf ⟨last, reads⟩)) →
      check (SourceTree.cached entries (.leaf source)) units =
        (answer, .cached entries' (.leaf last)) := by
    intro answer hcheck
    have hmirror := check_mirrors (SourceTree.mirrors_map Recorded.mirrors)
      (SourceTree.cached entries (.leaf (Recorded.mk source []))) units
    rw [hcheck] at hmirror
    exact hmirror
  cases got with
  | error cause =>
    obtain ⟨-, hcheck⟩ := sort_of_getBatch_error hget
    refine ⟨.error cause, entries', last, reads, hcheck, hplain _ hcheck, ?_, hnodup, hmem, ?_, ?_⟩
    · rw [View.external, hget]
    · intro found
      rw [← hends.eq_error_iff]
      simp
    · rintro _ ⟨⟩
  | ok _ =>
    obtain ⟨result, -, hcheck, hsort⟩ := check_cached_of_getBatch hget
    refine ⟨_, entries', last, reads, hcheck, hplain _ hcheck, ?_, hnodup, hmem, ?_, ?_⟩
    · rw [View.external, hget]
    · intro found
      rw [← hends.eq_error_iff]
      simp
    · rintro _ ⟨⟩
      refine ⟨?_, hsort⟩
      cases result with
      | ok order => exact .inl ⟨order, rfl⟩
      | error cycle => exact .inr ⟨cycle, rfl⟩

/-- The hesitant chain behind a cache: the first check fails with the first read of `b`. The second
finds `b` readable, and sorting the batch after it gives the order of its report. -/
theorem check_cached_hesitant :
    ∃ entries source entries' last reads,
      check (SourceTree.cached ∅ (.leaf Sample.hesitant)) [Sample.a, Sample.b, Sample.c] =
        (.error (.unreadable Sample.b (.reported "busy")), .cached entries (.leaf source)) ∧
      check (SourceTree.cached entries (.leaf (Recorded.mk source [])))
          [Sample.a, Sample.b, Sample.c] =
        (.ok ⟨.ok [Sample.c, Sample.b, Sample.a], []⟩, .cached entries' (.leaf ⟨last, reads⟩)) ∧
      sort (SourceTree.cached entries' (.leaf (Recorded.mk last reads)))
          [Sample.a, Sample.b, Sample.c] =
        (.ok [Sample.c, Sample.b, Sample.a], .cached entries' (.leaf ⟨last, reads⟩)) := by
  have hfirst : (check (SourceTree.cached ∅ (.leaf Sample.hesitant))
      [Sample.a, Sample.b, Sample.c]).1 = .error (.unreadable Sample.b (.reported "busy")) := by cbv
  have hsecond : (check (check (SourceTree.cached ∅ (.leaf Sample.hesitant))
      [Sample.a, Sample.b, Sample.c]).2 [Sample.a, Sample.b, Sample.c]).1 =
      .ok ⟨.ok [Sample.c, Sample.b, Sample.a], []⟩ := by cbv
  obtain ⟨answer, entries, source, -, -, hcheck, -⟩ :=
    check_cached Sample.hesitant ∅ [Sample.a, Sample.b, Sample.c]
  rw [hcheck] at hfirst hsecond
  obtain ⟨answer', entries', last, reads, hcheck', hplain, -, -, -, -, hreport⟩ :=
    check_cached source entries [Sample.a, Sample.b, Sample.c]
  rw [hplain] at hsecond
  subst hfirst hsecond
  exact ⟨entries, source, entries', last, reads, hcheck, hcheck', (hreport _ rfl).2⟩

end ActivationOrder
