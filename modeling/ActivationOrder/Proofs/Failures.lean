import ActivationOrder.Proofs.Reads

/-!
Checks whose reads fail. A check looks at its batch twice, first for references and then for an
order, and stops at the first read that fails. That read then decides the outcome: it fails the
check, with one exception. A source that cannot be listed in the second look is not told from a
batch that cannot be ordered: the check succeeds, and its report has the failure for an order.
-/

namespace ActivationOrder

variable {σ : Type} [Source σ]

/-- How a check ends after the reads of its two looks. -/
inductive CheckEnds (first second : List Read) : Except MetadataError CheckReport → Prop
  /-- The first look fails, and there is no second. -/
  | first {cause : MetadataError} (h : EndAs first (.error cause : Except MetadataError Unit))
      (hnone : second = []) : CheckEnds first second (.error cause)
  /-- The second look fails at a unit. -/
  | second {unit : UnitId} {cause : UnreadableCause} (hfirst : ∀ read ∈ first, read.answer.isOk)
      (h : EndAs second (.error (.unreadable unit cause) : Except MetadataError Unit)) :
      CheckEnds first second (.error (.unreadable unit cause))
  /-- The source cannot be listed in the second look. -/
  | unlisted {path : Path} {cause : OsError} {external : List ExternalReference}
      (hfirst : ∀ read ∈ first, read.answer.isOk)
      (h : EndAs second (.error (.scan path cause) : Except MetadataError Unit)) :
      CheckEnds first second (.ok ⟨.error (.unavailable (.scan path cause)), external⟩)
  /-- Neither look fails. -/
  | found {report : CheckReport} (hfirst : ∀ read ∈ first, read.answer.isOk)
      (hsecond : ∀ read ∈ second, read.answer.isOk)
      (h : (∃ order, report.order = .ok order) ∨ ∃ cycle, report.order = .error (.cycle cycle)) :
      CheckEnds first second (.ok report)

/-- A check is a look for references, which leaves its reads on record, and then a sort. -/
theorem check_ends (source : σ) (units : List UnitId) :
    ∃ answer last first second,
      check (Recorded.mk source []) units = (answer, ⟨last, first ++ second⟩) ∧
      ((View.ofUnits units).external (Recorded.mk source [])).2.2.reads = first ∧
      CheckEnds first second answer := by
  obtain ⟨got, seen, between, first, hget, -, hends, -⟩ :=
    View.reads_getBatch (Recorded.mk source []) units
  rw [List.nil_append] at hget
  cases got with
  | error cause =>
    obtain ⟨-, hcheck⟩ := sort_of_getBatch_error hget
    refine ⟨_, between, first, [], by rw [hcheck, List.append_nil], ?_, .first hends rfl⟩
    rw [View.external, hget]
  | ok _ =>
    obtain ⟨answer, last, second, hsort, -, hsecond⟩ := sort_ends ⟨between, first⟩ units
    have hexternal : (View.ofUnits units).external (Recorded.mk source []) =
        (.ok (externalReferences seen.batch seen.memo), seen, ⟨between, first⟩) := by
      rw [View.external, hget]
    rw [check, hexternal]
    simp only [hsort]
    rcases hsecond with ⟨_ | _, hlast, rfl⟩ | ⟨hall, -, ⟨order, rfl⟩ | ⟨cycle, rfl⟩⟩
    · exact ⟨_, last, first, second, rfl, rfl, .second hends hlast⟩
    · exact ⟨_, last, first, second, rfl, rfl, .unlisted hends hlast⟩
    · exact ⟨_, last, first, second, rfl, rfl, .found hends hall (.inl ⟨order, rfl⟩)⟩
    · exact ⟨_, last, first, second, rfl, rfl, .found hends hall (.inr ⟨cycle, rfl⟩)⟩

/-- A read fails because the source cannot be listed. -/
def Unlisted (reads : List Read) : Prop :=
  ∃ unit path cause, (⟨unit, .error (.scan path cause)⟩ : Read) ∈ reads

theorem not_unlisted_of_isOk {reads : List Read} (h : ∀ read ∈ reads, read.answer.isOk) :
    ¬ Unlisted reads := by
  rintro ⟨unit, path, cause, hmem⟩
  cases h _ hmem

/-- Reads that end with a failure at a unit never fail to list the source. -/
theorem EndAs.not_unlisted {reads : List Read} {unit : UnitId} {cause : UnreadableCause}
    (h : EndAs reads (.error (.unreadable unit cause) : Except MetadataError Unit)) :
    ¬ Unlisted reads := by
  rintro ⟨u, path, why, hmem⟩
  cases h.eq_error_iff.mpr ⟨u, hmem⟩

theorem exists_not_isOk {reads : List Read} {cause : MetadataError}
    (h : ∃ unit, ⟨unit, .error cause⟩ ∈ reads) : ∃ read ∈ reads, ¬ read.answer.isOk := by
  obtain ⟨unit, hmem⟩ := h
  exact ⟨_, hmem, by simp [Except.isOk, Except.toBool]⟩

/-- When failed reads fail a check. A failed read fails the check, with its own error, and a report
has an order or a cycle, exactly when the second look does not fail to list the source; if it does,
the check gives a report, which has this failure in the place of an order. -/
theorem check_fails_iff (source : σ) (units : List UnitId) :
    ∃ answer last first second,
      check (Recorded.mk source []) units = (answer, ⟨last, first ++ second⟩) ∧
      -- It is the same when no account is kept.
      check source units = (answer, last) ∧
      ((View.ofUnits units).external (Recorded.mk source [])).2.2.reads = first ∧
      (((∃ read ∈ first ++ second, ¬ read.answer.isOk) → ∃ cause, answer = .error cause) ↔
        ¬ Unlisted second) ∧
      ((∀ report, answer = .ok report →
          (∃ order, report.order = .ok order) ∨ ∃ cycle, report.order = .error (.cycle cycle)) ↔
        ¬ Unlisted second) ∧
      (∀ cause, answer = .error cause → ∃ unit, ⟨unit, .error cause⟩ ∈ first ++ second) ∧
      ∀ unit path cause, ⟨unit, .error (.scan path cause)⟩ ∈ second →
        ∃ external, answer = .ok ⟨.error (.unavailable (.scan path cause)), external⟩ := by
  obtain ⟨answer, last, first, second, hcheck, hfirst, hends⟩ := check_ends source units
  refine ⟨answer, last, first, second, hcheck, check_of_recorded hcheck, hfirst, ?_⟩
  cases hends with
  | @first cause h hnone =>
    have hlisted : ¬ Unlisted second := not_unlisted_of_isOk (by simp [hnone])
    obtain ⟨unit, hmem⟩ := h.eq_error_iff.mp rfl
    refine ⟨iff_of_true (fun _ => ⟨cause, rfl⟩) hlisted, iff_of_true (by simp) hlisted, ?_, ?_⟩
    · rintro _ ⟨⟩
      exact ⟨unit, List.mem_append_left _ hmem⟩
    · intro u path why hsecond
      exact absurd ⟨u, path, why, hsecond⟩ hlisted
  | @second unit cause hok h =>
    obtain ⟨u, hmem⟩ := h.eq_error_iff.mp rfl
    refine ⟨iff_of_true (fun _ => ⟨_, rfl⟩) h.not_unlisted, iff_of_true (by simp) h.not_unlisted,
      ?_, ?_⟩
    · rintro _ ⟨⟩
      exact ⟨u, List.mem_append_right _ hmem⟩
    · intro u path why hsecond
      exact absurd ⟨u, path, why, hsecond⟩ h.not_unlisted
  | @unlisted path cause external hok h =>
    obtain ⟨unit, hmem⟩ := h.eq_error_iff.mp rfl
    have hunlisted : ¬ ¬ Unlisted second := not_not_intro ⟨unit, path, cause, hmem⟩
    refine ⟨iff_of_false (fun hlaw => ?_) hunlisted, iff_of_false (fun hlaw => ?_) hunlisted,
      ?_, ?_⟩
    · obtain ⟨_, ⟨⟩⟩ := hlaw (exists_not_isOk ⟨unit, List.mem_append_right first hmem⟩)
    · rcases hlaw _ rfl with ⟨order, ⟨⟩⟩ | ⟨cycle, ⟨⟩⟩
    · rintro _ ⟨⟩
    · intro u path' why hsecond
      cases h.eq_error_iff.mpr ⟨u, hsecond⟩
      exact ⟨external, rfl⟩
  | @found report hok hok' horder =>
    have hlisted := not_unlisted_of_isOk hok'
    have hall : ∀ read ∈ first ++ second, read.answer.isOk := List.forall_mem_append.mpr ⟨hok, hok'⟩
    refine ⟨iff_of_true ?_ hlisted, iff_of_true ?_ hlisted, ?_, ?_⟩
    · rintro ⟨read, hread, hfailed⟩
      exact absurd (hall read hread) hfailed
    · rintro _ ⟨⟩
      exact horder
    · rintro _ ⟨⟩
    · intro u path why hsecond
      exact absurd ⟨u, path, why, hsecond⟩ hlisted

namespace Sample

/-- The second read of a unit finds that the source cannot be listed. -/
def lapse : ScriptedFailure where
  cause := .scan ⟨"units"⟩ (.reported "io")
  skip := 1
  times := some 1

/-- A source with `b` after `a`, which cannot be listed at the second read of `b`. -/
def lapsing : Scripted where
  entries := (Index.ofEntries [(a, {}), (b, { after := .ofList [a] })]).units
  failures := .ofList [(b, lapse)]

end Sample

/-- The fourth read fails, and the check does not. -/
theorem check_reports_failure :
    (check (Recorded.mk Sample.lapsing []) [Sample.a, Sample.b]).1 =
        .ok ⟨.error (.unavailable (.scan ⟨"units"⟩ (.reported "io"))), []⟩ ∧
      (check (Recorded.mk Sample.lapsing []) [Sample.a, Sample.b]).2.reads.map
          (fun read => (read.unit, read.answer.isOk)) =
        [(Sample.a, true), (Sample.b, true), (Sample.a, true), (Sample.b, false)] := by
  refine ⟨?_, ?_⟩
  · cbv
  · decide +kernel

end ActivationOrder
