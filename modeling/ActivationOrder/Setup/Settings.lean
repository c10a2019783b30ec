import ActivationOrder.Setup.Config

/-!
Settings of a command: what its flags and the configuration decide together. A flag comes before the
configuration, and a relative path in a flag starts from the working directory.
-/

namespace ActivationOrder

/-- What the flags of a command say. -/
structure Context where
  cwd : Option Path := none
  debug : Bool := false
  quiet : Bool := false
  index : Option Path := none
  declarations : Option Path := none
  json : Bool := false

/-- What a command works with. -/
structure Settings where
  index : Option Path
  declarations : Option Path
  format : OutputFormat
  warnings : List ConfigWarning

/-- The path of the place that relative paths start from. -/
def Files.herePath (files : Files) : Path := ⟨"/" ++ Text.joined "/" files.here⟩

namespace Context

/-- The directory that a command runs in. -/
def workDir (context : Context) (files : Files) : Path := context.cwd.getD files.herePath

/-- A path of the command line, from the working directory. -/
def resolvePath (context : Context) (files : Files) (path : Path) : Path :=
  if path.isAbsolute then path else (context.workDir files).join path

/-- The settings of a command with this configuration. -/
def settings (context : Context) (files : Files) (config : Config)
    (warnings : List ConfigWarning) : Settings where
  index := (context.index.map (context.resolvePath files)).or config.index
  declarations := (context.declarations.map (context.resolvePath files)).or config.declarations
  format := if context.json then .json else config.format
  warnings := warnings

/-- The settings of a command. -/
def resolve (context : Context) (env : Environment) (files : Files) :
    Except ConfigError Settings := do
  let (config, warnings) ← Config.load env files (some (context.workDir files))
  pure (context.settings files config warnings)

end Context

/-- How much a command prints. -/
inductive Verbosity where
  | quiet
  | normal
  | debug
  deriving DecidableEq, Repr

/-- How much a command prints with these flags: `quiet` wins. -/
def Verbosity.ofFlags (quiet debug : Bool) : Verbosity :=
  if quiet then .quiet else if debug then .debug else .normal

/-- How much a command prints. -/
def Context.verbosity (context : Context) : Verbosity := .ofFlags context.quiet context.debug

end ActivationOrder
