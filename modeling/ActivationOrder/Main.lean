import ActivationOrder.CommandLine.Commands

/-!
The program. A run is decided on a picture of the disk, which holds the places that the run can look
at: first the configuration files, and then what the settings and the arguments name. What the run
prints is printed, and the files that differ from the picture are put on the disk, where the disk's
own faults show. Completion scripts are not part of this program: none is printed.
-/

namespace ActivationOrder

/-- The absolute path of a place. -/
def Place.path (place : Place) : String := "/" ++ Text.joined "/" place

/-- The places on the way that a path leads, its end included. -/
def Files.placesOnWay (files : Files) (path : Path) : List Place :=
  let start : Place := if path.isAbsolute then [] else files.here
  let (last, passed) := path.names.foldl (fun (place, passed) name =>
    let next :=
      if name = "." then place else if name = ".." then place.dropLast else place ++ [name]
    (next, place :: passed)) (start, [])
  (last :: passed).reverse.flatMap fun place =>
    (List.range (place.length + 1)).map fun length => place.take length

/-- Adds what stands at a place of the disk; what cannot be read is left out. -/
def Files.addPlace (files : Files) (place : Place) : IO Files := do
  if (files.get? place).isSome then return files
  try
    let found ← IO.FS.realPath (Place.path place)
    if ← found.isDir then return files.put place .directory
    if ← found.pathExists then return files.put place (.file (← IO.FS.readBinFile found))
    return files
  catch _ => return files

/-- Adds what a path leads to. -/
def Files.addPath (files : Files) (path : Path) : IO Files :=
  (files.placesOnWay path).foldlM Files.addPlace files

/-- Adds a directory and what stands directly in it. -/
def Files.addDirectory (files : Files) (path : Path) : IO Files := do
  let files ← files.addPath path
  match files.follow path with
  | .error _ => return files
  | .ok place =>
    try
      let found ← IO.FS.realPath (Place.path place)
      (← found.readDir).foldlM (fun files entry => files.addPlace (place ++ [entry.fileName])) files
    catch _ => return files

/-- Puts one entry on the disk. A file is written beside its place first. -/
def Entry.store (entry : Entry) (place : Place) : IO Unit := do
  match entry with
  | .directory => IO.FS.createDirAll (Place.path place)
  | .file bytes =>
    let beside := Place.path place ++ ".new"
    IO.FS.writeBinFile beside bytes
    IO.FS.rename beside (Place.path place)

/-- Puts the files that are new or changed on the disk, directories before what stands in them. -/
def Files.store (before after : Files) : IO Unit :=
  after.entries.toList.forM fun (place, entry) =>
    match before.get? place, entry with
    | some (.file old), .file new => unless old.data = new.data do entry.store place
    | some .directory, .directory => pure ()
    | _, _ => entry.store place

/-- The environment of the process; an empty home is none. -/
def Environment.get : IO Environment := do
  let config ← IO.getEnv "PRECEDENCE_CONFIG"
  let configHome ← IO.getEnv "XDG_CONFIG_HOME"
  let home ← IO.getEnv "HOME"
  return ⟨config.map Path.mk, configHome.map Path.mk, (home.filter (· ≠ "")).map Path.mk⟩

/-- The paths that a command reads, and the one that it writes. -/
def Command.paths (command : Command) : List Path :=
  match command with
  | .sort _ list => list.toList
  | .show _ list => list.toList
  | .check _ list => list.toList
  | .index output => [output, Index.temporaryPath output]
  | .completion _ => []

/-- The picture of the disk for a run. -/
def Invocation.picture (invocation : Invocation) (env : Environment) : IO Files := do
  let context := invocation.context
  let current ← IO.currentDir
  let start : Files := ⟨∅, (Path.mk current.toString).names⟩
  let files ← start.addPath ⟨"."⟩
  let dir := context.workDir files
  let configFiles := env.globalPaths ++ [Config.canonicalPath dir, Config.shorthandPath dir]
  let files ← configFiles.foldlM Files.addPath files
  match context.resolve env files with
  | .error _ => return files
  | .ok settings =>
    let named := invocation.command.paths.map (context.resolvePath files)
    let files ← (named ++ settings.index.toList).foldlM Files.addPath files
    settings.declarations.toList.foldlM Files.addDirectory files

/-- What is said about arguments that name no run. -/
def Usage.text : Usage → String
  | .help =>
    Text.joined "\n" [
      "Usage: prec [OPTIONS] <COMMAND>",
      "",
      "Commands:",
      "  sort [UNITS] [--from <FILE>]   Print the activation order",
      "  show [UNITS] [--from <FILE>]   Print what is known of each unit",
      "  check [UNITS] [--from <FILE>]  Check that the units can be ordered",
      "  index --output <FILE>          Write an index of all declarations",
      "",
      "Options:",
      "  --cwd <DIR>           Run as if in this directory",
      "  --index <FILE>        The index to read",
      "  --declarations <DIR>  The directory of declarations to read",
      "  --json                Print results as JSON",
      "  -q, --quiet           Print results only",
      "  --debug               Print more",
      "  -h, --help            Print this help",
      "  -V, --version         Print the version"]
  | .version => "prec 0.1.0"
  | .noArguments => "error: no command given; try --help"
  | .missingSubcommand => "error: no command given; try --help"
  | .invalidSubcommand => "error: unknown command; try --help"
  | .unknownArgument => "error: unknown argument; try --help"
  | .invalidValue => "error: missing or invalid value; try --help"
  | .argumentConflict => "error: option given twice; try --help"
  | .tooManyValues => "error: flag with a value; try --help"
  | .missingRequiredArgument => "error: missing argument; try --help"

/-- Runs the program with these arguments, and gives its exit status. -/
def runProgram (arguments : List String) : IO Nat := do
  match Invocation.ofArguments arguments with
  | .error usage =>
    if usage.exit = 0 then IO.println usage.text else IO.eprintln usage.text
    return usage.exit
  | .ok invocation =>
    let env ← Environment.get
    let files ← invocation.picture env
    let (printed, after) := invocation.run ⟨env, files⟩
    Files.store files after
    IO.print printed.out
    IO.eprint printed.report
    return printed.exit

end ActivationOrder

/-- Reads the arguments of the process and runs the program. -/
def main (arguments : List String) : IO UInt32 := do
  return (← ActivationOrder.runProgram arguments).toUInt32
