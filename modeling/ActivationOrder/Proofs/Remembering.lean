import ActivationOrder.Proofs.Mirrors
import ActivationOrder.Proofs.Precedence
import ActivationOrder.Proofs.Reading
import ActivationOrder.Source.Scripted

/-!
What a view remembers. Over a source that may answer every read differently, a view reads a unit
until it succeeds and never again, and from then on goes by that first answer. Its index of `before`
declarations is there only when the whole batch is remembered, and is then made from all of it. Both
survive every failure on the way, so an answer, whenever it comes, is right about what the view
remembers at that time.

A call is accounted for by its own reads: `Learns` says what they add to the view, `EndAs` that the
call fails just when the last of them does.
-/

namespace ActivationOrder

/-- The reads end as the answer says: all of them succeed, or all but the last one, and that one
fails with the error. -/
def EndAs {α : Type} (reads : List Read) : Except MetadataError α → Prop
  | .ok _ => ∀ read ∈ reads, read.answer.isOk
  | .error cause =>
    ∃ earlier unit, reads = earlier ++ [⟨unit, .error cause⟩] ∧ ∀ read ∈ earlier, read.answer.isOk

/-- A unit is not read again once a read of it has succeeded. -/
def ReadOnce (reads : List Read) : Prop :=
  reads.Pairwise fun earlier later => earlier.answer.isOk → earlier.unit ≠ later.unit

theorem EndAs.append {α β : Type} {reads reads' : List Read} {a : α}
    {answer : Except MetadataError β} (h : EndAs reads (.ok a : Except MetadataError α))
    (h' : EndAs reads' answer) : EndAs (reads ++ reads') answer := by
  cases answer with
  | ok b => exact List.forall_mem_append.mpr ⟨h, h'⟩
  | error cause =>
    obtain ⟨earlier, unit, rfl, hearlier⟩ := h'
    exact ⟨reads ++ earlier, unit, by simp, List.forall_mem_append.mpr ⟨h, hearlier⟩⟩

theorem EndAs.map {α β : Type} {reads : List Read} {answer : Except MetadataError α}
    (h : EndAs reads answer) (f : α → β) : EndAs reads (answer.map f) := by
  cases answer <;> exact h

namespace View

/-- What new reads make of a view: they are reads of units that were not remembered, of each until
it succeeds, and the answers of those that succeed are remembered with what was. -/
structure Learns (before : View) (new : List Read) (after : View) : Prop where
  batch_eq : after.batch = before.batch
  unknown : ∀ read ∈ new, before.memo[read.unit]? = none
  once : ReadOnce new
  memo_iff : ∀ unit metadata, after.memo[unit]? = some metadata ↔
    before.memo[unit]? = some metadata ∨ ⟨unit, .ok metadata⟩ ∈ new

/-- The view remembers the whole batch, and this is its metadata. -/
def Knows (view : View) (metadata : UnitId → Metadata) : Prop :=
  ∀ unit ∈ view.batch, view.memo[unit]? = some (metadata unit)

/-- The index of `before` declarations, if there is one, is that of the whole batch. -/
def Indexed (view : View) : Prop :=
  ∀ declared, view.declared = some declared → ∃ metadata, view.Knows metadata ∧
    ∀ target unit, unit ∈ declared.getD target ∅ ↔
      unit ∈ view.batch ∧ target ∈ view.batch ∧ target ∈ (metadata unit).before

namespace Learns

variable {view seen last : View} {new new' : List Read}

theorem refl (view : View) : view.Learns [] view :=
  ⟨rfl, by simp, .nil, by simp⟩

/-- Nothing that is remembered is forgotten or replaced. -/
theorem keeps (h : view.Learns new seen) {unit : UnitId} {metadata : Metadata}
    (hmemo : view.memo[unit]? = some metadata) : seen.memo[unit]? = some metadata :=
  (h.memo_iff unit metadata).mpr (.inl hmemo)

theorem trans (h : view.Learns new seen) (h' : seen.Learns new' last) :
    view.Learns (new ++ new') last := by
  have hunknown : ∀ read ∈ new', view.memo[read.unit]? = none := by
    intro read hread
    rw [Option.eq_none_iff_forall_ne_some]
    intro metadata hmemo
    have := h'.unknown read hread
    rw [h.keeps hmemo] at this
    cases this
  refine ⟨h'.batch_eq.trans h.batch_eq, List.forall_mem_append.mpr ⟨h.unknown, hunknown⟩, ?_, ?_⟩
  · refine List.pairwise_append.mpr ⟨h.once, h'.once, ?_⟩
    rintro ⟨unit, answer⟩ hearlier later hlater hok rfl
    cases answer with
    | error cause => cases hok
    | ok metadata =>
      have hmemo := (h.memo_iff later.unit metadata).mpr (.inr hearlier)
      rw [h'.unknown later hlater] at hmemo
      cases hmemo
  · intro unit metadata
    rw [h'.memo_iff, h.memo_iff, List.mem_append, or_assoc]

theorem knows (h : view.Learns new seen) {metadata : UnitId → Metadata}
    (hknows : view.Knows metadata) : seen.Knows metadata :=
  fun unit hunit => h.keeps (hknows unit (h.batch_eq ▸ hunit))

/-- An index stays complete while the view learns more. -/
theorem indexed (h : view.Learns new seen) (hdeclared : seen.declared = view.declared)
    (hindexed : view.Indexed) : seen.Indexed := by
  intro declared hsome
  obtain ⟨metadata, hknows, hmem⟩ := hindexed declared (hdeclared ▸ hsome)
  exact ⟨metadata, h.knows hknows, by rw [h.batch_eq]; exact hmem⟩

end Learns

theorem Knows.getD_eq {view : View} {metadata : UnitId → Metadata} (h : view.Knows metadata)
    {unit : UnitId} (hunit : unit ∈ view.batch) : view.memo.getD unit {} = metadata unit := by
  rw [Std.ExtTreeMap.getD_eq_getD_getElem?, h unit hunit, Option.getD_some]

/-- The index that is collected from a view that knows its batch is complete. -/
theorem Knows.indexed {view : View} {metadata : UnitId → Metadata} (h : view.Knows metadata) :
    { view with declared := some (declaredBefore view.batch view.memo) }.Indexed := by
  rintro _ ⟨⟩
  refine ⟨metadata, h, fun target unit => ?_⟩
  rw [mem_declaredBefore]
  exact and_congr_right fun hunit => by rw [h.getD_eq hunit]

section
variable {σ : Type}

/-- What a call on a view leads to is accounted for by the new reads: they are put on record, the
view learns from them, the answer is what they end as, and the index is not left unfinished. -/
structure Accounts {α : Type} (view : View) (recorded : Recorded σ) (new : List Read)
    (outcome : Except MetadataError α × View × Recorded σ) : Prop where
  reads_eq : outcome.2.2.reads = recorded.reads ++ new
  learns : view.Learns new outcome.2.1
  ends : EndAs new outcome.1
  indexed : view.Indexed → outcome.2.1.Indexed

variable {α β : Type} {view seen : View} {recorded next : Recorded σ} {new new' : List Read}

/-- A call that goes on after a success. -/
theorem Accounts.trans {a : α} {outcome : Except MetadataError β × View × Recorded σ}
    (h : view.Accounts recorded new (.ok a, seen, next)) (h' : seen.Accounts next new' outcome) :
    view.Accounts recorded (new ++ new') outcome := by
  refine ⟨?_, h.learns.trans h'.learns, h.ends.append h'.ends, h'.indexed ∘ h.indexed⟩
  rw [h'.reads_eq, h.reads_eq, List.append_assoc]

/-- A call that goes on with something else than the answer. -/
theorem Accounts.with {answer : Except MetadataError α} {answer' : Except MetadataError β}
    (h : view.Accounts recorded new (answer, seen, next))
    (hends : EndAs new answer → EndAs new answer') :
    view.Accounts recorded new (answer', seen, next) :=
  ⟨h.reads_eq, h.learns, hends h.ends, h.indexed⟩

end

variable {σ : Type} [Source σ]

theorem accounts_get (view : View) (recorded : Recorded σ) (unit : UnitId) :
    ∃ new, view.Accounts recorded new (view.get recorded unit) ∧
      (new.map (·.unit)).Sublist [unit] ∧
      ∀ metadata, (view.get recorded unit).1 = .ok metadata →
        (view.get recorded unit).2.1.memo[unit]? = some metadata := by
  rw [get]
  cases hmemo : view.memo[unit]? with
  | some metadata =>
    refine ⟨[], ⟨by simp, .refl view, by simp [EndAs], id⟩, by simp, ?_⟩
    rintro _ ⟨⟩
    exact hmemo
  | none =>
    rcases hread : Source.read recorded.source unit with ⟨cause | metadata, source⟩
    · rw [Recorded.read_eq hread]
      refine ⟨[⟨unit, .error cause⟩], ⟨rfl, ?_, ⟨[], unit, rfl, by simp⟩, id⟩, .refl _, by simp⟩
      exact ⟨rfl, by simpa using hmemo, List.pairwise_singleton _ _, by simp⟩
    · rw [Recorded.read_eq hread]
      have hlearns : view.Learns [⟨unit, .ok metadata⟩] (view.remember unit metadata) := by
        refine ⟨rfl, by simpa using hmemo, List.pairwise_singleton _ _, fun u m => ?_⟩
        rw [remember_memo]
        by_cases heq : unit = u
        · subst heq
          simp [hmemo, eq_comm]
        · simp [heq, Ne.symm heq]
      refine ⟨_, ⟨rfl, hlearns, by simp [EndAs, Except.isOk, Except.toBool], ?_⟩, .refl _, ?_⟩
      · exact hlearns.indexed rfl
      · rintro _ ⟨⟩
        exact (hlearns.memo_iff unit _).mpr (.inr (by simp))

/-- Units are read in the order in which they are got, each once at most. -/
theorem accounts_getAll (units : List UnitId) (view : View) (recorded : Recorded σ) :
    ∃ new, view.Accounts recorded new (view.getAll recorded units) ∧
      (new.map (·.unit)).Sublist units ∧
      ((view.getAll recorded units).1 = .ok () → ∀ unit ∈ units, ∃ metadata,
        (view.getAll recorded units).2.1.memo[unit]? = some metadata) := by
  induction units generalizing view recorded with
  | nil => exact ⟨[], ⟨by simp [getAll], .refl view, by simp [EndAs, getAll], id⟩, by simp⟩
  | cons unit units ih =>
    rw [getAll]
    obtain ⟨new, haccounts, hunits, hmemo⟩ := accounts_get view recorded unit
    rcases hget : view.get recorded unit with ⟨cause | metadata, seen, next⟩
    · rw [hget] at haccounts
      exact ⟨new, haccounts.with id, hunits.trans (by simp), by simp⟩
    · rw [hget] at haccounts hmemo
      obtain ⟨new', haccounts', hunits', hrest⟩ := ih seen next
      refine ⟨new ++ new', haccounts.trans haccounts', ?_, fun hok => ?_⟩
      · rw [List.map_append]
        exact hunits.append hunits'
      · have hunit := haccounts'.learns.keeps (hmemo metadata rfl)
        exact List.forall_mem_cons.mpr ⟨⟨metadata, hunit⟩, hrest hok⟩

theorem accounts_getBatch (view : View) (recorded : Recorded σ) :
    ∃ new, view.Accounts recorded new (view.getBatch recorded) ∧
      ((view.getBatch recorded).1 = .ok () →
        ∃ metadata, (view.getBatch recorded).2.1.Knows metadata) := by
  obtain ⟨new, haccounts, -, hmemo⟩ := accounts_getAll view.batch.toList view recorded
  refine ⟨new, haccounts, fun hok => ?_⟩
  refine ⟨fun unit => (view.getBatch recorded).2.1.memo.getD unit {}, fun unit hunit => ?_⟩
  have hbatch : unit ∈ view.batch.toList := by
    rw [Std.ExtTreeSet.mem_toList, ← haccounts.learns.batch_eq]
    exact hunit
  obtain ⟨metadata, hsome⟩ := hmemo hok unit hbatch
  simp only [getBatch, Std.ExtTreeMap.getD_eq_getD_getElem?, hsome, Option.getD_some]

theorem accounts_collect (view : View) (recorded : Recorded σ) :
    ∃ new, view.Accounts recorded new (view.collect recorded) ∧
      ∀ declared, (view.collect recorded).1 = .ok declared →
        (view.collect recorded).2.1.declared = some declared := by
  rw [collect]
  cases hdeclared : view.declared with
  | some declared =>
    refine ⟨[], ⟨by simp, .refl view, by simp [EndAs], id⟩, ?_⟩
    rintro _ ⟨⟩
    exact hdeclared
  | none =>
    obtain ⟨new, haccounts, hknows⟩ := accounts_getBatch view recorded
    rcases hget : view.getBatch recorded with ⟨cause | _, seen, next⟩
    · rw [hget] at haccounts
      exact ⟨new, haccounts.with id, by simp⟩
    · rw [hget] at haccounts hknows
      obtain ⟨hreads, ⟨hbatch, hunknown, honce, hmemo⟩, hends, -⟩ := haccounts
      refine ⟨new, ⟨hreads, ⟨hbatch, hunknown, honce, hmemo⟩, hends, fun _ => ?_⟩, ?_⟩
      · obtain ⟨metadata, hknows⟩ := hknows rfl
        exact hknows.indexed
      · rintro _ ⟨⟩
        rfl

/-! ### Calls -/

/-- What can be asked of a view. -/
inductive Call where
  | get (unit : UnitId)
  | predecessors (unit : UnitId)
  | external

/-- What a view can tell. -/
inductive Told where
  | metadata (metadata : Metadata)
  | predecessors (units : UnitSet)
  | external (references : List ExternalReference)

/-- Answers one call. -/
def call (view : View) (source : σ) : Call → Except MetadataError Told × View × σ
  | .get unit =>
    let (answer, next) := view.get source unit
    (answer.map .metadata, next)
  | .predecessors unit =>
    let (answer, next) := view.predecessors source unit
    (answer.map .predecessors, next)
  | .external =>
    let (answer, next) := view.external source
    (answer.map .external, next)

/-- The view and the source after calls, one after the other. -/
def after (view : View) (source : σ) : List Call → View × σ
  | [] => (view, source)
  | call :: calls =>
    let (_, view, source) := view.call source call
    view.after source calls

/-- What is told agrees with what the view remembers. -/
inductive Confirms (view : View) : Call → Told → Prop
  | get {unit : UnitId} {metadata : Metadata} (h : view.memo[unit]? = some metadata) :
      Confirms view (.get unit) (.metadata metadata)
  | predecessors {unit : UnitId} {units : UnitSet} {metadata : UnitId → Metadata}
      (hknows : view.Knows metadata)
      (h : unit ∈ view.batch → ∀ x, x ∈ units ↔
        x ∈ (metadata unit).after ∨ x ∈ view.batch ∧ unit ∈ (metadata x).before) :
      Confirms view (.predecessors unit) (.predecessors units)
  | external {references : List ExternalReference} {metadata : UnitId → Metadata}
      (hknows : view.Knows metadata)
      (h : ∀ reference, reference ∈ references ↔ reference.unit ∈ view.batch ∧
        reference.target ∈ reference.relation.targets (metadata reference.unit) ∧
        reference.target ∉ view.batch) :
      Confirms view .external (.external references)

theorem mem_externalReferences {batch : UnitSet} {memo : UnitMap Metadata}
    {reference : ExternalReference} :
    reference ∈ externalReferences batch memo ↔ reference.unit ∈ batch ∧
      reference.target ∈ reference.relation.targets (memo.getD reference.unit {}) ∧
      reference.target ∉ batch := by
  obtain ⟨unit, relation, target⟩ := reference
  simp only [externalReferences, List.mem_flatMap, List.mem_map, List.mem_filter,
    Std.ExtTreeSet.mem_toList, decide_eq_true_eq, ExternalReference.mk.injEq]
  constructor
  · rintro ⟨u, hu, r, -, t, ⟨ht, hout⟩, rfl, rfl, rfl⟩
    exact ⟨hu, ht, hout⟩
  · rintro ⟨hunit, htarget, hout⟩
    refine ⟨unit, hunit, relation, ?_, target, ⟨htarget, hout⟩, rfl, rfl, rfl⟩
    cases relation <;> simp

/-- The references out of the batch are those that what is remembered of it declares. -/
theorem accounts_external (view : View) (recorded : Recorded σ) :
    ∃ new, view.Accounts recorded new (view.external recorded) ∧
      ∀ references, (view.external recorded).1 = .ok references →
        ∃ metadata, (view.external recorded).2.1.Knows metadata ∧
          ∀ reference, reference ∈ references ↔
            reference.unit ∈ (view.external recorded).2.1.batch ∧
            reference.target ∈ reference.relation.targets (metadata reference.unit) ∧
            reference.target ∉ (view.external recorded).2.1.batch := by
  obtain ⟨new, haccounts, hknows⟩ := accounts_getBatch view recorded
  rw [View.external]
  rcases hget : view.getBatch recorded with ⟨cause | _, seen, next⟩
  · rw [hget] at haccounts
    exact ⟨new, haccounts.with id, by rintro _ ⟨⟩⟩
  · rw [hget] at haccounts hknows
    obtain ⟨metadata, hknows⟩ := hknows rfl
    refine ⟨new, haccounts.with id, ?_⟩
    rintro _ ⟨⟩
    refine ⟨metadata, hknows, fun reference => ?_⟩
    rw [mem_externalReferences]
    exact and_congr_right fun hunit => by rw [hknows.getD_eq hunit]

/-- The predecessors of a unit come from its own metadata and, by the index, from the batch. -/
theorem accounts_predecessors {view : View} (hindexed : view.Indexed) (recorded : Recorded σ)
    (unit : UnitId) :
    ∃ new, view.Accounts recorded new (view.predecessors recorded unit) ∧
      ∀ units, (view.predecessors recorded unit).1 = .ok units →
        ∃ metadata, (view.predecessors recorded unit).2.1.Knows metadata ∧
          (unit ∈ (view.predecessors recorded unit).2.1.batch → ∀ x, x ∈ units ↔
            x ∈ (metadata unit).after ∨
              x ∈ (view.predecessors recorded unit).2.1.batch ∧ unit ∈ (metadata x).before) := by
  obtain ⟨new, haccounts, hdeclared⟩ := accounts_collect view recorded
  rw [View.predecessors]
  rcases hcollect : view.collect recorded with ⟨cause | declared, seen, next⟩
  · rw [hcollect] at haccounts
    exact ⟨new, haccounts.with id, by rintro _ ⟨⟩⟩
  · rw [hcollect] at haccounts hdeclared
    obtain ⟨new', haccounts', -, hmemo⟩ := accounts_get seen next unit
    dsimp only
    rcases hget : seen.get next unit with ⟨cause | answer, last, final⟩
    · rw [hget] at haccounts'
      exact ⟨new ++ new', haccounts.trans (haccounts'.with id), by rintro _ ⟨⟩⟩
    · rw [hget] at haccounts' hmemo
      refine ⟨new ++ new', haccounts.trans (haccounts'.with id), ?_⟩
      rintro _ ⟨⟩
      obtain ⟨metadata, hknows, hmem⟩ :=
        haccounts.indexed hindexed declared (hdeclared declared rfl)
      refine ⟨metadata, haccounts'.learns.knows hknows, fun hunit x => ?_⟩
      have hanswer : answer = metadata unit := by
        have := haccounts'.learns.knows hknows unit hunit
        rw [hmemo answer rfl] at this
        exact Option.some.inj this
      have hbatch := haccounts'.learns.batch_eq
      dsimp only at hunit hbatch ⊢
      rw [Std.ExtTreeSet.mem_union_iff, hmem, hanswer, hbatch]
      rw [hbatch] at hunit
      simp only [hunit, true_and]

/-- A call on a view that has been kept right: its reads account for all that it changes, and what
it tells agrees with what is remembered by then. -/
theorem accounts_call {view : View} (hindexed : view.Indexed) (recorded : Recorded σ)
    (call : Call) :
    ∃ new, view.Accounts recorded new (view.call recorded call) ∧
      ∀ told, (view.call recorded call).1 = .ok told →
        (view.call recorded call).2.1.Confirms call told := by
  cases call with
  | get unit =>
    obtain ⟨new, haccounts, -, hmemo⟩ := accounts_get view recorded unit
    rw [View.call]
    rcases hget : view.get recorded unit with ⟨answer, seen, next⟩
    rw [hget] at haccounts hmemo
    refine ⟨new, haccounts.with fun h => h.map _, fun told htold => ?_⟩
    cases answer with
    | error cause => cases htold
    | ok metadata =>
      cases htold
      exact .get (hmemo metadata rfl)
  | predecessors unit =>
    obtain ⟨new, haccounts, hmem⟩ := accounts_predecessors hindexed recorded unit
    rw [View.call]
    rcases hget : view.predecessors recorded unit with ⟨answer, seen, next⟩
    rw [hget] at haccounts hmem
    refine ⟨new, haccounts.with fun h => h.map _, fun told htold => ?_⟩
    cases answer with
    | error cause => cases htold
    | ok units =>
      cases htold
      obtain ⟨metadata, hknows, hunits⟩ := hmem units rfl
      exact .predecessors hknows hunits
  | external =>
    obtain ⟨new, haccounts, hmem⟩ := accounts_external view recorded
    rw [View.call]
    rcases hget : view.external recorded with ⟨answer, seen, next⟩
    rw [hget] at haccounts hmem
    refine ⟨new, haccounts.with fun h => h.map _, fun told htold => ?_⟩
    cases answer with
    | error cause => cases htold
    | ok references =>
      cases htold
      obtain ⟨metadata, hknows, hreferences⟩ := hmem references rfl
      exact .external hknows hreferences

/-- Calls one after the other: everything is accounted for by the reads that were put on record. -/
theorem accounts_after : ∀ (calls : List Call) {view : View} (recorded : Recorded σ), view.Indexed →
    ∃ new, (view.after recorded calls).2.reads = recorded.reads ++ new ∧
      view.Learns new (view.after recorded calls).1 ∧ (view.after recorded calls).1.Indexed
  | [], view, recorded, hindexed => ⟨[], by simp [after], .refl view, hindexed⟩
  | call :: calls, view, recorded, hindexed => by
    obtain ⟨new, haccounts, -⟩ := accounts_call hindexed recorded call
    rw [after]
    obtain ⟨new', hreads, hlearns, hlast⟩ := accounts_after calls
      (view.call recorded call).2.2 (haccounts.indexed hindexed)
    refine ⟨new ++ new', ?_, haccounts.learns.trans hlearns, hlast⟩
    rw [hreads, haccounts.reads_eq, List.append_assoc]

theorem call_mirrors {τ : Type} [Source τ] {f : σ → τ} (h : Source.Mirrors f) (source : σ)
    (view : View) (call : Call) :
    view.call (f source) call = mirrored f (view.call source call) := by
  cases call with
  | get unit =>
    rw [View.call, View.call, get_mirrors h]
    rfl
  | predecessors unit =>
    rw [View.call, View.call, predecessors_mirrors h]
    rfl
  | external =>
    rw [View.call, View.call, external_mirrors h]
    rfl

theorem after_mirrors {τ : Type} [Source τ] {f : σ → τ} (h : Source.Mirrors f) :
    ∀ (calls : List Call) (source : σ) (view : View),
      view.after (f source) calls = ((view.after source calls).1, f (view.after source calls).2)
  | [], _, _ => rfl
  | call :: calls, source, view => by
    rw [after, after, call_mirrors h]
    exact after_mirrors h calls _ _

/-- Any call on a view, after any calls, over a source whose answers may change with every read. No
unit is read again once a read of it has succeeded, and what is remembered is what these reads have
told. The reads of the call are of units that were not remembered; the call fails just when the last
of them does, and keeps what was remembered and what it has read itself; the index of `before`
declarations is never left unfinished; and what the call tells agrees with what is remembered. -/
theorem calls_agree {source : σ} {units : List UnitId} {calls : List Call} {call : Call}
    {view seen : View} {recorded next : Recorded σ} {answer : Except MetadataError Told}
    (hafter : (ofUnits units).after (Recorded.mk source []) calls = (view, recorded))
    (hcall : view.call recorded call = (answer, seen, next)) :
    -- Nothing of this is different when no account is kept.
    ((ofUnits units).after source calls = (view, recorded.source) ∧
      view.call recorded.source call = (answer, seen, next.source)) ∧
    seen.batch = batchOf units ∧ ReadOnce next.reads ∧
    (∀ unit metadata, seen.memo[unit]? = some metadata ↔ ⟨unit, .ok metadata⟩ ∈ next.reads) ∧
    seen.Indexed ∧ (∀ told, answer = .ok told → seen.Confirms call told) ∧
    ∃ new, next.reads = recorded.reads ++ new ∧ EndAs new answer ∧
      (∀ read ∈ new, view.memo[read.unit]? = none) ∧
      ∀ unit metadata, seen.memo[unit]? = some metadata ↔
        view.memo[unit]? = some metadata ∨ ⟨unit, .ok metadata⟩ ∈ new := by
  have hstart : (ofUnits units).Indexed := by
    rintro _ ⟨⟩
  obtain ⟨earlier, hreads, hlearns, hindexed⟩ :=
    accounts_after calls (Recorded.mk source []) hstart
  simp only [hafter, List.nil_append] at hreads hlearns hindexed
  obtain ⟨new, haccounts, htold⟩ := accounts_call hindexed recorded call
  rw [hcall] at haccounts htold
  have hall : (ofUnits units).Learns next.reads seen := by
    rw [haccounts.reads_eq, hreads]
    exact hlearns.trans haccounts.learns
  refine ⟨⟨?_, ?_⟩, hall.batch_eq, hall.once, fun unit metadata => ?_,
    haccounts.indexed hindexed, htold, new, haccounts.reads_eq, haccounts.ends,
    haccounts.learns.unknown, haccounts.learns.memo_iff⟩
  · have := after_mirrors Recorded.mirrors calls (Recorded.mk source []) (ofUnits units)
    rw [hafter] at this
    exact this
  · have := call_mirrors Recorded.mirrors recorded view call
    rw [hcall] at this
    exact this
  · rw [hall.memo_iff, memo_ofUnits]
    simp

end View

namespace Sample

/-- The chain, in which the first read of `b` fails and the later ones do not. -/
def hesitant : Scripted where
  entries := chain.units
  failures := .ofList [(b, ({ cause := .unreadable b (.reported "busy"), times := some 1 } :
    ScriptedFailure))]

/-- A view of the hesitant chain, and the source, after a call that has failed at `b`. -/
def refused : View × Recorded Scripted :=
  (View.ofUnits [a, b, c]).after (Recorded.mk hesitant []) [.predecessors b]

end Sample

/-- The predecessors of `b` are asked for again: `b` is read again, the rest of the batch for the
first time, and the index that the first call did not leave behind is complete. -/
theorem View.calls_agree_hesitant :
    Sample.refused.2.reads.map (·.unit) = [Sample.a, Sample.b] ∧
      ∃ seen next, Sample.refused.1.call Sample.refused.2 (.predecessors Sample.b) =
          (.ok (.predecessors (.ofList [Sample.c])), seen, next) ∧
        next.reads.map (·.unit) = [Sample.a, Sample.b, Sample.b, Sample.c] ∧
        ReadOnce next.reads ∧
        seen.Confirms (.predecessors Sample.b) (.predecessors (.ofList [Sample.c])) := by
  have hreads : Sample.refused.2.reads.map (·.unit) = [Sample.a, Sample.b] := by
    decide +kernel
  have htold : (Sample.refused.1.call Sample.refused.2 (.predecessors Sample.b)).1 =
      .ok (.predecessors (.ofList [Sample.c])) := rfl
  have hmore : (Sample.refused.1.call Sample.refused.2 (.predecessors Sample.b)).2.2.reads.map
      (·.unit) = [Sample.a, Sample.b, Sample.b, Sample.c] := by
    decide +kernel
  rcases hcall : Sample.refused.1.call Sample.refused.2 (.predecessors Sample.b) with
    ⟨answer, seen, next⟩
  rw [hcall] at htold hmore
  obtain ⟨-, -, honce, -, -, hconfirms, -⟩ := calls_agree rfl hcall
  subst htold
  exact ⟨hreads, seen, next, rfl, hmore, honce, hconfirms _ rfl⟩

end ActivationOrder
