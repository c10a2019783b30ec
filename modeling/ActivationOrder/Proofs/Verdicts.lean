import Mathlib
import ActivationOrder.CommandLine.Commands
import ActivationOrder.Proofs.Checking
import ActivationOrder.Proofs.IndexText

/-!
One verdict for sorting and checking. The two commands open the same session, whose source is a
cache, so a check reports what a sort gives. They name a failure in the same words: a source that a
session opens fails only for a unit that it was asked for, and for such a failure, as for a cycle,
the words of the two commands are the same.
-/

namespace ActivationOrder

/-! ### Failures of a session's source -/

/-- Indexes answer for all units, and directories fail for the unit that they are asked for. -/
theorem Store.exists_of_read_error {store : Store} {unit : UnitId} {error : MetadataError}
    (h : (Source.read store unit).1 = .error error) : ∃ cause, error = .unreadable unit cause := by
  cases store with
  | inl index => cases h
  | inr source =>
    change source.metadataOf unit = .error error at h
    rw [Declarations.metadataOf] at h
    split at h
    · next found hpath =>
      rw [Declarations.pathFor] at hpath
      split at hpath
      · cases hpath
        exact ⟨_, (Except.error.inj h).symm⟩
      · cases hpath
    · split at h
      · exact ⟨_, (Except.error.inj h).symm⟩
      · split at h
        · exact ⟨_, (Except.error.inj h).symm⟩
        · cases h

theorem SourceTree.exists_of_read_error {tree : SourceTree Store} {unit : UnitId}
    {error : MetadataError} (h : (tree.read unit).1 = .error error) :
    ∃ cause, error = .unreadable unit cause := by
  induction tree with
  | leaf store => exact Store.exists_of_read_error h
  | layered index fallback ihindex ihfallback =>
    rw [read] at h
    split at h
    · exact ihindex h
    · exact ihfallback h
  | cached entries inner ih =>
    rw [read] at h
    cases hentry : entries[unit]? with
    | some metadata =>
      rw [hentry] at h
      cases h
    | none =>
      rw [hentry] at h
      rcases hread : inner.read unit with ⟨cause | metadata, next⟩ <;> rw [hread] at h
      · exact ih (hread ▸ h)
      · cases h
  | narrowed covered inner ih => exact ih h

theorem View.exists_of_getAll_error : ∀ {units : List UnitId} {view : View}
    {tree : SourceTree Store} {error : MetadataError},
    (view.getAll tree units).1 = .error error → ∃ unit cause, error = .unreadable unit cause
  | [], _, _, _, h => by cases h
  | unit :: units, view, tree, error, h => by
    rw [getAll, get] at h
    cases hmemo : view.memo[unit]? with
    | some metadata =>
      rw [hmemo] at h
      exact exists_of_getAll_error h
    | none =>
      rw [hmemo] at h
      rcases hread : Source.read tree unit with ⟨cause | metadata, next⟩ <;> rw [hread] at h
      · cases h
        exact ⟨unit, SourceTree.exists_of_read_error (congrArg Prod.fst hread)⟩
      · exact exists_of_getAll_error h

/-- Sources are opened behind a cache. -/
theorem exists_of_openSource {files : Files} {index declarations : Option Path}
    {source : SourceTree Store} (h : openSource files index declarations = .ok source) :
    ∃ entries inner, source = .cached entries inner := by
  unfold openSource at h
  cases index with
  | none =>
    cases declarations with
    | none => cases h
    | some dir => exact ⟨_, _, (Except.ok.inj h).symm⟩
  | some path =>
    simp only [bind, Except.bind] at h
    cases hload : Index.load files path with
    | error cause => simp [hload, throw, throwThe, MonadExceptOf.throw] at h
    | ok loaded =>
      rw [hload] at h
      cases declarations <;> exact ⟨_, _, (Except.ok.inj h).symm⟩

/-! ### The two commands on one session -/

namespace Session

variable {session : Session} {verbosity : Verbosity}

/-- A batch that cannot be read stops both commands with the same words. -/
theorem commands_of_getBatch_error {cause : MetadataError} {seen : View} {next : SourceTree Store}
    (h : (View.ofUnits session.units).getBatch session.source = (.error cause, seen, next)) :
    ∃ failure failure', sortCommand session = .failed failure ∧
      checkCommand verbosity session = .failed failure' ∧ failure.message = failure'.message := by
  obtain ⟨hsort, hcheck⟩ := sort_of_getBatch_error h
  obtain ⟨unit, why, rfl⟩ := View.exists_of_getAll_error (congrArg Prod.fst h)
  refine ⟨.sort (.unreadable unit why), .metadata (.unreadable unit why), ?_, ?_, rfl⟩
  · rw [sortCommand, hsort]
    rfl
  · rw [checkCommand, hcheck]

/-- A batch that has been read is ordered for both commands or for none. -/
theorem commands_of_getBatch_ok {entries : UnitMap Metadata} {inner next : SourceTree Store}
    {seen : View} (hsource : session.source = .cached entries inner)
    (h : (View.ofUnits session.units).getBatch session.source = (.ok (), seen, next)) :
    (∃ failure, sortCommand session = .failed failure ∧
      (checkCommand verbosity session).failure = some failure) ∨
    ∃ order, (sort session.source session.units).1 = .ok order ∧
      sortCommand session = session.print (formatList (texts order) "") (Json.ofOrder order) ∧
      (checkCommand verbosity session).failure = none ∧
      (session.settings.format = .text → verbosity ≠ .quiet → (checkCommand verbosity session).out =
        "ok: " ++ toString order.length ++ " units can be ordered" ++ "\n") := by
  rw [hsource] at h
  obtain ⟨result, hsort, hcheck, -⟩ := check_cached_of_getBatch h
  rw [sortCommand, checkCommand, hsource, hsort, hcheck]
  cases result with
  | error cycle => exact .inl ⟨_, rfl, rfl⟩
  | ok order =>
    refine .inr ⟨order, rfl, rfl, ?_, ?_⟩
    · simp only [Except.mapError, CheckReport.printed]
      cases session.settings.format <;>
        simp [Printed.andThen, Printed.note, Printed.result, apply_ite Printed.failure]
    · intro hformat hverbosity
      simp only [Except.mapError, CheckReport.printed, hformat]
      simp [Printed.andThen, Printed.note, Printed.warnings, Printed.result, hverbosity]

theorem exists_of_openSession {context : Context} {files : Files} {settings : Settings}
    {units : List String} {list : Option Path}
    (h : context.openSession files settings units list = .ok session) :
    session.settings = settings ∧ ∃ entries inner, session.source = .cached entries inner := by
  unfold Context.openSession at h
  simp only [bind, Except.bind] at h
  split at h
  · cases h
  · split at h
    · cases h
    · next source hsource =>
      cases h
      exact ⟨rfl, exists_of_openSource hsource⟩

/-- On a session that has been opened, either both commands fail with the same words, and sorting
prints nothing, or the batch has an order that one prints and the other counts. -/
theorem commands_agree {context : Context} {files : Files} {settings : Settings}
    {units : List String} {list : Option Path} (verbosity : Verbosity)
    (h : context.openSession files settings units list = .ok session) :
    (∃ failure failure', sortCommand session = .failed failure ∧
      (checkCommand verbosity session).failure = some failure' ∧
      failure.message = failure'.message) ∨
    ∃ order, (sort session.source session.units).1 = .ok order ∧
      sortCommand session = session.print (formatList (texts order) "") (Json.ofOrder order) ∧
      (checkCommand verbosity session).failure = none ∧
      (session.settings.format = .text → verbosity ≠ .quiet → (checkCommand verbosity session).out =
        "ok: " ++ toString order.length ++ " units can be ordered" ++ "\n") := by
  obtain ⟨-, entries, inner, hsource⟩ := exists_of_openSession h
  rcases hget : (View.ofUnits session.units).getBatch session.source with ⟨cause | _, seen, next⟩
  · obtain ⟨failure, failure', hsort, hcheck, hwords⟩ :=
      commands_of_getBatch_error hget
    exact .inl ⟨failure, failure', hsort, by rw [hcheck]; rfl, hwords⟩
  · refine (commands_of_getBatch_ok hsource hget).imp_left ?_
    rintro ⟨failure, hsort, hcheck⟩
    exact ⟨failure, failure, hsort, hcheck, rfl⟩

end Session

/-- Warnings of the configuration go to standard error. -/
theorem Context.out_settingsWarnings (context : Context) (settings : Settings)
    (printed : Printed) :
    ((context.settingsWarnings settings).andThen printed).out = printed.out := by
  rw [settingsWarnings, Printed.warnings, Printed.andThen]
  split <;> simp

/-- Once a session is open, the command runs on it. -/
theorem Context.withSession_of_open {context : Context} {world : World} {settings : Settings}
    {session : Session} {units : List String} {list : Option Path} (command : Session → Printed)
    (hsettings : context.resolve world.env world.files = .ok settings)
    (hopen : context.openSession world.files settings units list = .ok session) :
    (context.withSession world units list command).1 =
      (context.settingsWarnings settings).andThen (command session) := by
  simp only [withSession, withSettings, hsettings, hopen]

theorem Printed.empty_andThen (printed : Printed) : Printed.andThen {} printed = printed := by
  simp [andThen]

/-- Sorting and checking agree, whatever files, environment, flags and units they are run with.
Either both fail, with the same words after all that they print, and sorting has printed no result;
or both succeed, and as text a check that is not quiet counts the units of the order that sorting
prints. -/
theorem check_agrees_with_sort (context : Context) (world : World) (units : List String)
    (list : Option Path) (outside : Outside) :
    let sorted := (Invocation.run ⟨context, .sort units list⟩ world outside).1
    let checked := (Invocation.run ⟨context, .check units list⟩ world outside).1
    (sorted.exit = 1 ∧ checked.exit = 1 ∧ sorted.out = "" ∧
      ∃ message, sorted.report = sorted.err ++ "error: " ++ message ++ "\n" ∧
        checked.report = checked.err ++ "error: " ++ message ++ "\n") ∨
    (sorted.exit = 0 ∧ checked.exit = 0 ∧
      ∃ settings session order, context.resolve world.env world.files = .ok settings ∧
        context.openSession world.files settings units list = .ok session ∧
        (sort session.source session.units).1 = .ok order ∧
        (settings.format = .text → sorted.out = formatList (texts order) "" ++ "\n" ∧
          (context.quiet = false → checked.out =
            "ok: " ++ toString order.length ++ " units can be ordered" ++ "\n"))) := by
  simp only [Invocation.run, Context.withSession, Context.withSettings]
  cases hresolve : context.resolve world.env world.files with
  | error cause => exact .inl ⟨rfl, rfl, rfl, _, rfl, rfl⟩
  | ok settings =>
    dsimp only
    cases hopen : context.openSession world.files settings units list with
    | error cause => exact .inl ⟨rfl, rfl, context.out_settingsWarnings _ _, _, rfl, rfl⟩
    | ok session =>
      dsimp only
      rw [context.out_settingsWarnings, context.out_settingsWarnings]
      have hsettings := (Session.exists_of_openSession hopen).1
      rcases Session.commands_agree context.verbosity hopen with
        ⟨failure, failure', hsort, hcheck, hwords⟩ | ⟨order, horder, hsort, hcheck, hcount⟩
      · rw [hsort]
        refine .inl ⟨rfl, ?_, rfl, failure.message, rfl, ?_⟩
        · simp [Printed.exit, Printed.andThen, hcheck]
        · simp only [Printed.report, Printed.andThen, hcheck, hwords]
      · have hsorted : (sortCommand session).failure = none := by
          rw [hsort, Session.print]
          cases session.settings.format <;> rfl
        refine .inr ⟨?_, ?_, settings, session, order, rfl, hopen, horder, fun hformat => ⟨?_, ?_⟩⟩
        · simp [Printed.exit, Printed.andThen, hsorted]
        · simp [Printed.exit, Printed.andThen, hcheck]
        · rw [hsort, Session.print, hsettings, hformat]
          rfl
        · intro hquiet
          have hverbosity : context.verbosity ≠ .quiet := by
            rw [Context.verbosity, Verbosity.ofFlags, hquiet]
            cases context.debug <;> decide
          exact hcount (hsettings ▸ hformat) hverbosity

namespace Sample

/-- Files with an index. -/
def indexed (index : Index) : World where
  files :=
    { entries := .ofList [(["index.toml"], Entry.file index.text.toUTF8)]
      here := [] }

/-- Flags that say where the index is. -/
def fromIndex : Context := { index := some ⟨"/index.toml"⟩ }

/-- The session of three units on the index. -/
def overIndex (index : Index) : Session where
  settings := ⟨some ⟨"/index.toml"⟩, none, .text, []⟩
  source := .cache (.leaf (.inl index))
  units := [a, b, c]

/-- What sorting the three units prints. -/
def sorted (index : Index) : Printed :=
  (Invocation.run ⟨fromIndex, .sort ["a", "b", "c"] none⟩ (indexed index)).1

/-- What checking them prints. -/
def checked (index : Index) : Printed :=
  (Invocation.run ⟨fromIndex, .check ["a", "b", "c"] none⟩ (indexed index)).1

theorem openSession_indexed (index : Index) :
    fromIndex.openSession (indexed index).files (overIndex index).settings ["a", "b", "c"] none =
      .ok (overIndex index) := by
  have hload : Index.load (indexed index).files ⟨"/index.toml"⟩ = .ok index :=
    Index.load_of_find rfl
  simp only [Context.openSession, openSource, overIndex, hload]
  rfl

theorem resolve_indexed (index : Index)
    (h : (fromIndex.resolve {} (indexed index).files).toOption.map (fun found =>
      (found.index, found.declarations, found.format, found.warnings)) =
        some (some ⟨"/index.toml"⟩, none, .text, [])) :
    fromIndex.resolve {} (indexed index).files = .ok (overIndex index).settings := by
  rcases hsettings : fromIndex.resolve {} (indexed index).files with cause | ⟨_, _, _, _⟩
  · rw [hsettings] at h
    cases h
  · rw [hsettings] at h
    simpa [Except.toOption, overIndex] using h

/-- Both commands run on this session, and its settings give no warning. -/
theorem runs_indexed {index : Index}
    (h : fromIndex.resolve {} (indexed index).files = .ok (overIndex index).settings) :
    sorted index = sortCommand (overIndex index) ∧
      checked index = checkCommand .normal (overIndex index) := by
  have hrun (command : Session → Printed) :
      (fromIndex.withSession (indexed index) ["a", "b", "c"] none command).1 =
        command (overIndex index) := by
    rw [Context.withSession_of_open command h (openSession_indexed index)]
    exact Printed.empty_andThen _
  exact ⟨hrun sortCommand, hrun (checkCommand .normal)⟩

end Sample

/-- Both sides occur. Over an index without a circle three units have an order, and over one with a
circle both commands have the same words for it. -/
theorem check_agrees_with_sort_indexed :
    ((Sample.sorted Sample.chain).exit = 0 ∧ (Sample.sorted Sample.chain).out = "c\nb\na\n" ∧
      (Sample.checked Sample.chain).exit = 0 ∧
      (Sample.checked Sample.chain).out = "ok: 3 units can be ordered\n") ∧
    (Sample.sorted Sample.circle).exit = 1 ∧ (Sample.sorted Sample.circle).out = "" ∧
      (Sample.checked Sample.circle).exit = 1 ∧
      (Sample.sorted Sample.circle).report = "error: ordering cycle detected between c and a\n" ∧
      (Sample.checked Sample.circle).report =
        "error: ordering cycle detected between c and a\n" := by
  constructor
  · have hresolve := Sample.resolve_indexed Sample.chain (by decide +kernel)
    have hsort : (sort (Sample.overIndex Sample.chain).source
        (Sample.overIndex Sample.chain).units).1 = .ok [Sample.c, Sample.b, Sample.a] := by
      rw [Sample.overIndex]
      cbv
    have hsorted : (Sample.sorted Sample.chain).exit = 0 := by
      rw [(Sample.runs_indexed hresolve).1]
      cbv
    rcases check_agrees_with_sort Sample.fromIndex (Sample.indexed Sample.chain) ["a", "b", "c"]
        none {} with
      ⟨hfailed, -⟩ | ⟨-, hchecked, settings, session, order, hsettings, hopen, horder, hprinted⟩
    · exact absurd (hsorted.symm.trans hfailed) (by decide)
    · obtain rfl : settings = (Sample.overIndex Sample.chain).settings :=
        Except.ok.inj (hsettings.symm.trans hresolve)
      obtain rfl : session = Sample.overIndex Sample.chain :=
        Except.ok.inj (hopen.symm.trans (Sample.openSession_indexed Sample.chain))
      obtain rfl : order = [Sample.c, Sample.b, Sample.a] :=
        Except.ok.inj (horder.symm.trans hsort)
      obtain ⟨hout, hcount⟩ := hprinted rfl
      have hlines : formatList (texts [Sample.c, Sample.b, Sample.a]) "" ++ "\n" = "c\nb\na\n" := by
        decide +kernel
      rw [hlines] at hout
      unfold Sample.sorted at hsorted ⊢
      unfold Sample.checked
      refine ⟨hsorted, hout, hchecked, ?_⟩
      rw [hcount rfl]
      decide +kernel
  · have hresolve := Sample.resolve_indexed Sample.circle (by decide +kernel)
    have hsorted : Sample.sorted Sample.circle =
        .failed (.sort (.cycle ⟨Sample.c, Sample.a⟩)) := by
      rw [(Sample.runs_indexed hresolve).1]
      cbv
    have hchecked : Sample.checked Sample.circle =
        .failed (.sort (.cycle ⟨Sample.c, Sample.a⟩)) := by
      rw [(Sample.runs_indexed hresolve).2]
      cbv
    rw [hsorted, hchecked]
    decide +kernel

end ActivationOrder
