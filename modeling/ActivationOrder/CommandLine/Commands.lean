import ActivationOrder.CommandLine.Arguments
import ActivationOrder.Report.Results
import ActivationOrder.Setup.Inputs

/-!
Commands, as functions of the files. A run gives what is printed, how it failed if it did, and the
files after it; only `index` changes files. Warnings of the configuration are printed before
anything else can fail. A failure is reported in one line that names the errors behind it too. What
the files do not tell, such as which writes the system refuses, is given to a run.
-/

namespace ActivationOrder

/-- Why a command fails. -/
inductive CommandError where
  | setup (cause : SetupError)
  | metadata (cause : MetadataError)
  | sort (cause : SortError)
  | noDeclarations
  | build (dir : Path) (cause : MetadataError)
  | write (cause : IndexError)
  /-- A path that is no text cannot be printed as JSON. -/
  | unprintable
  deriving DecidableEq

/-- The error and the errors behind it. -/
def CommandError.chain : CommandError → List String
  | .setup cause => cause.message :: cause.causes
  | .metadata cause => [cause.message]
  | .sort cause => [cause.message]
  | .noDeclarations => ["no declarations directory configured; pass --declarations or set it in " ++
      ".precedence/config.toml"]
  | .build dir cause => ["Failed to build index from '" ++ dir.text ++ "'", cause.message]
  | .write cause => [cause.message, cause.cause]
  | .unprintable => ["path contains invalid UTF-8 characters"]

/-- What a report says about the error. -/
def CommandError.message (error : CommandError) : String := Text.joined ": " error.chain

/-- What a command prints, and how it failed if it did. -/
structure Printed where
  out : String := ""
  err : String := ""
  failure : Option CommandError := none

namespace Printed

/-- A result on standard output. -/
def result (text : String) : Printed := { out := text ++ "\n" }

/-- A failure. -/
def failed (error : CommandError) : Printed := { failure := some error }

/-- First one thing, then another. -/
def andThen (first second : Printed) : Printed :=
  ⟨first.out ++ second.out, first.err ++ second.err, second.failure⟩

/-- Warnings, unless the command is quiet. -/
def warnings (verbosity : Verbosity) (messages : List String) : Printed :=
  if verbosity = .quiet then {}
  else { err := String.join (messages.map fun message => "warning: " ++ message ++ "\n") }

/-- A message on standard output, unless the command is quiet. -/
def note (verbosity : Verbosity) (message : String) : Printed :=
  if verbosity = .quiet then {} else result message

/-- The exit status. -/
def exit (printed : Printed) : Nat := if printed.failure.isSome then 1 else 0

/-- Everything on standard error, the report of a failure last. -/
def report (printed : Printed) : String :=
  match printed.failure with
  | none => printed.err
  | some error => printed.err ++ "error: " ++ error.message ++ "\n"

end Printed

/-- What a command finds when it starts. -/
structure World where
  env : Environment := {}
  files : Files

/-- What a command meets besides the files. A name on a disk may be bytes that are no text; in a
tree some text stands for it then, and `isText` says which paths are text themselves. -/
structure Outside where
  faults : Faults := {}
  isText : Path → Bool := fun _ => true
  /-- The completion script for a shell. -/
  script : Shell → String := fun _ => ""

/-- What the commands on a batch work with. -/
structure Session where
  settings : Settings
  source : SourceTree Store
  units : List UnitId

namespace Context

/-- The warnings of the settings. -/
def settingsWarnings (context : Context) (settings : Settings) : Printed :=
  .warnings context.verbosity (settings.warnings.map (·.message))

/-- Runs a command with its settings. -/
def withSettings (context : Context) (world : World) (command : Settings → Printed × Files) :
    Printed × Files :=
  match context.resolve world.env world.files with
  | .error cause => (.failed (.setup (.config cause)), world.files)
  | .ok settings =>
    let (printed, files) := command settings
    ((context.settingsWarnings settings).andThen printed, files)

/-- The inputs of a command on a batch: units first, then the source. -/
def openSession (context : Context) (files : Files) (settings : Settings) (units : List String)
    (list : Option Path) : Except SetupError Session := do
  let units ← collectUnits files units (list.map (context.resolvePath files))
  let source ← openSource files settings.index settings.declarations
  pure ⟨settings, source, units⟩

/-- Runs a command on a batch. -/
def withSession (context : Context) (world : World) (units : List String) (list : Option Path)
    (command : Session → Printed) : Printed × Files :=
  context.withSettings world fun settings =>
    match context.openSession world.files settings units list with
    | .error cause => (.failed (.setup cause), world.files)
    | .ok session => (command session, world.files)

end Context

/-- Prints a result in the session's format. -/
def Session.print (session : Session) (text : String) (json : Json) : Printed :=
  match session.settings.format with
  | .text => .result text
  | .json => .result json.text

/-- Prints the activation order of the batch, also when quiet. -/
def sortCommand (session : Session) : Printed :=
  match sort session.source session.units with
  | (.error cause, _) => .failed (.sort cause)
  | (.ok order, _) => session.print (formatList (texts order) "") (Json.ofOrder order)

/-- The metadata and predecessors of units, up to the first failure. -/
def showUnits {σ : Type} [Source σ] (view : View) (source : σ) :
    List UnitId → Except MetadataError (List ShownUnit)
  | [] => .ok []
  | unit :: units =>
    match view.get source unit with
    | (.error cause, _, _) => .error cause
    | (.ok metadata, view, source) =>
      match view.predecessors source unit with
      | (.error cause, _, _) => .error cause
      | (.ok predecessors, view, source) =>
        (showUnits view source units).map (⟨unit, metadata, predecessors⟩ :: ·)

/-- Prints what is known of each unit of the batch, in ascending order. -/
def showCommand (session : Session) : Printed :=
  let view := View.ofUnits session.units
  match showUnits view session.source view.batch.toList with
  | .error cause => .failed (.metadata cause)
  | .ok shown =>
    session.print (Text.joined "\n\n" (shown.map (·.text))) (.array (shown.map Json.ofShown))

/-- What a check prints: as text, a warning for each reference out of the batch and whether all is
well; as JSON, the report. -/
def CheckReport.printed (report : CheckReport) (session : Session) (verbosity : Verbosity) :
    Printed :=
  match session.settings.format with
  | .json => .result (Json.ofReport report).text
  | .text =>
    let warnings := Printed.warnings verbosity (report.external.map (·.warning))
    match report.order with
    | .ok order =>
      warnings.andThen
        (.note verbosity ("ok: " ++ toString order.length ++ " units can be ordered"))
    | .error _ => warnings

/-- Checks the batch; it fails when the batch cannot be sorted, after its report. -/
def checkCommand (verbosity : Verbosity) (session : Session) : Printed :=
  match check session.source session.units with
  | (.error cause, _) => .failed (.metadata cause)
  | (.ok report, _) =>
    let printed := report.printed session verbosity
    match report.order with
    | .ok _ => printed
    | .error cause => printed.andThen (.failed (.sort cause))

/-- Writes the index of all declarations to a file. What is said of it as JSON may fail, when the
file is there already. -/
def indexCommand (context : Context) (files : Files) (output : Path) (outside : Outside)
    (settings : Settings) : Printed × Files :=
  match settings.declarations with
  | none => (.failed .noDeclarations, files)
  | some dir =>
    match (Declarations.mk dir files).buildIndex with
    | .error cause => (.failed (.build dir cause), files)
    | .ok index =>
      let path := context.resolvePath files output
      match index.write files path outside.faults with
      | (.error cause, files) => (.failed (.write cause), files)
      | (.ok (), files) =>
        let printed := match settings.format with
          | .json =>
            if outside.isText path then .result (Json.ofWritten path index.size).text
            else .failed .unprintable
          | .text => .note context.verbosity
              ("Wrote " ++ toString index.size ++ " units to " ++ path.text)
        (printed, files)

/-- Runs a command. -/
def Invocation.run (invocation : Invocation) (world : World) (outside : Outside := {}) :
    Printed × Files :=
  let context := invocation.context
  match invocation.command with
  | .sort units list => context.withSession world units list sortCommand
  | .show units list => context.withSession world units list showCommand
  | .check units list =>
    context.withSession world units list (checkCommand context.verbosity)
  | .index output =>
    context.withSettings world (indexCommand context world.files output outside)
  | .completion shell => ({ out := outside.script shell }, world.files)

end ActivationOrder
