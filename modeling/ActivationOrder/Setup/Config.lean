import ActivationOrder.Files.Tree
import ActivationOrder.Schema.ConfigFile

/-!
Configuration. Two files are looked for: a global one, the first that exists of the places that the
environment names, and one of the project, which has a long and a short place. What the project's
file says comes before what the global one says, field by field. Both files are read before either
is validated, so a file that cannot be read or parsed is reported before an empty path is.
-/

namespace ActivationOrder

/-- The part of the environment that places the global file. A variable whose value is no text
counts as one that is not set, and an empty home is none. -/
structure Environment where
  config : Option Path := none
  configHome : Option Path := none
  home : Option Path := none

/-- Why there is no configuration. -/
inductive ConfigError where
  | read (path : Path) (cause : OsError)
  | parse (path : Path) (cause : DecodeError)
  | emptyIndex
  | emptyDeclarations
  deriving DecidableEq

/-- What is wrong with the configuration. -/
def ConfigError.message : ConfigError → String
  | .read path cause => "failed to read config file '" ++ path.text ++ "': " ++ cause.message
  | .parse path cause => "failed to parse config file '" ++ path.text ++ "': " ++ cause.message
  | .emptyIndex => "invalid config value: index path cannot be empty"
  | .emptyDeclarations => "invalid config value: declarations path cannot be empty"

/-- Something odd that does not stop anything. -/
structure ConfigWarning where
  message : String
  path : Path
  deriving DecidableEq

/-- The configuration files that were found, and their places. -/
structure Config where
  global : ConfigFile := {}
  globalPath : Option Path := none
  project : Option ConfigFile := none
  projectPath : Option Path := none

/-- Fails when a file holds an empty path. -/
def ConfigFile.validate (file : ConfigFile) : Except ConfigError Unit :=
  if file.index = some ⟨""⟩ then .error .emptyIndex
  else if file.declarations = some ⟨""⟩ then .error .emptyDeclarations
  else .ok ()

/-- Reads a configuration file. -/
def ConfigFile.load (files : Files) (path : Path) : Except ConfigError ConfigFile :=
  match files.readText path with
  | .error cause => .error (.read path cause)
  | .ok text =>
    match readConfigFile text with
    | .error cause => .error (.parse path cause)
    | .ok file => .ok (file.rebase (path.parent?.getD ⟨"."⟩))

/-- The places of the global file, the most specific one first. -/
def Environment.globalPaths (env : Environment) : List Path :=
  env.config.toList ++
    (env.configHome.map fun dir => dir.join ⟨"precedence/config.toml"⟩).toList ++
    (env.home.map fun dir => dir.join ⟨".precedence/config.toml"⟩).toList

/-- The global file: the first place at which anything exists. -/
def Environment.globalPath? (env : Environment) (files : Files) : Option Path :=
  env.globalPaths.find? files.occupied

namespace Config

/-- The long place of a project's file. -/
def canonicalPath (dir : Path) : Path := dir.join ⟨".precedence/config.toml"⟩

/-- The short place of a project's file. -/
def shorthandPath (dir : Path) : Path := dir.join ⟨"precedence.toml"⟩

/-- The project's file, if there is one, and a warning if there are two. -/
def projectPath? (files : Files) (dir : Path) : Option Path × List ConfigWarning :=
  let canonical := canonicalPath dir
  let shorthand := shorthandPath dir
  if files.occupied canonical then
    let warnings := if files.occupied shorthand then
      [⟨"Ignoring '" ++ shorthand.text ++ "' because '" ++ canonical.text ++ "' exists", shorthand⟩]
      else []
    (some canonical, warnings)
  else (if files.occupied shorthand then some shorthand else none, [])

/-- Loads the file at `global`, if anything exists there, and the file of the project in `dir`. -/
def loadFrom (files : Files) (global dir : Option Path) :
    Except ConfigError (Config × List ConfigWarning) := do
  let globalPath := global.filter files.occupied
  let globalFile ← match globalPath with
    | some path => ConfigFile.load files path
    | none => pure {}
  let (projectPath, warnings) := match dir with
    | some dir => projectPath? files dir
    | none => (none, [])
  let projectFile ← match projectPath with
    | some path => some <$> ConfigFile.load files path
    | none => pure none
  globalFile.validate
  if let some file := projectFile then file.validate
  pure (⟨globalFile, globalPath, projectFile, projectPath⟩, warnings)

/-- Loads the files that the environment and the project's directory name. -/
def load (env : Environment) (files : Files) (dir : Option Path) :
    Except ConfigError (Config × List ConfigWarning) :=
  loadFrom files (env.globalPath? files) dir

/-- The index to read: the project's, else the global one. -/
def index (config : Config) : Option Path :=
  (config.project.bind (·.index)).or config.global.index

/-- The directory of declarations to read: the project's, else the global one. -/
def declarations (config : Config) : Option Path :=
  (config.project.bind (·.declarations)).or config.global.declarations

/-- The output format that a file sets. -/
def formatOf (file : ConfigFile) : Option OutputFormat := file.output.bind (·.format)

/-- The output format: the project's, else the global one, else text. -/
def format (config : Config) : OutputFormat :=
  ((config.project.bind formatOf).or (formatOf config.global)).getD .text

end Config

end ActivationOrder
