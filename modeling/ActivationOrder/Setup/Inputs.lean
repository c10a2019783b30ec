import ActivationOrder.Setup.Settings
import ActivationOrder.Source.Tree

/-!
The inputs of a command: the units of its batch and the source of their metadata. Units come from
the arguments, as they are, and from a list, one to a line: a listed id is trimmed, blank lines and
lines that start with `#` are skipped but counted, and an id with control characters is a sign of a
file that is no list.
-/

namespace ActivationOrder

/-- Why a command has no inputs. -/
inductive SetupError where
  | noSource
  | emptyBatch
  | readUnits (path : Path) (cause : OsError)
  | listedUnit (path : Path) (line : Nat) (cause : UnitIdError)
  | unit (cause : UnitIdError)
  | config (cause : ConfigError)
  | index (cause : IndexError)
  deriving DecidableEq

/-- What is wrong with the inputs. -/
def SetupError.message : SetupError → String
  | .noSource => "no metadata source configured; pass --index or --declarations, " ++
      "or set them in .precedence/config.toml"
  | .emptyBatch => "no units given; pass unit ids or --from <file>"
  | .readUnits path cause => "failed to read unit list '" ++ path.text ++ "': " ++ cause.message
  | .listedUnit path line cause => path.text ++ ":" ++ toString line ++ ": " ++ cause.message
  | .unit cause => cause.message
  | .config cause => cause.message
  | .index cause => cause.message

/-- The errors behind an error, which a report repeats after it. -/
def SetupError.causes : SetupError → List String
  | .readUnits _ cause => [cause.message]
  | .listedUnit _ _ cause => [cause.message]
  | .config (.read _ cause) => [cause.message]
  | .index cause => [cause.cause]
  | _ => []

/-- Lines with their numbers, trimmed, without the blank ones and the comments. -/
def listedLines (text : String) : List (Nat × List Char) :=
  ((Text.lines text.toList).zipIdx 1).filterMap fun (line, number) =>
    let id := Text.trim line
    if id.isEmpty || id.head? = some '#' then none else some (number, id)

/-- The unit that a line names. -/
def listedUnit (id : List Char) : Except UnitIdError UnitId :=
  if id.any Text.isControl then .error (.control (String.ofList id))
  else UnitId.ofString (String.ofList id)

/-- The units of a list; `path` labels its faults. -/
def readUnitList (path : Path) (text : String) : Except SetupError (List UnitId) :=
  (listedLines text).mapM fun (number, id) =>
    match listedUnit id with
    | .ok unit => .ok unit
    | .error cause => .error (.listedUnit path number cause)

/-- The units of the arguments. -/
def argumentUnits (arguments : List String) : Except SetupError (List UnitId) :=
  arguments.mapM fun argument =>
    match UnitId.ofString argument with
    | .ok unit => .ok unit
    | .error cause => .error (.unit cause)

/-- The units of a list file, if there is one. -/
def listFileUnits (files : Files) : Option Path → Except SetupError (List UnitId)
  | none => .ok []
  | some path =>
    match files.readText path with
    | .error cause => .error (.readUnits path cause)
    | .ok text => readUnitList path text

/-- The units of a command, duplicates included; there must be one. -/
def collectUnits (files : Files) (arguments : List String) (list : Option Path) :
    Except SetupError (List UnitId) := do
  let given ← argumentUnits arguments
  let listed ← listFileUnits files list
  if (given ++ listed).isEmpty then throw .emptyBatch else pure (given ++ listed)

/-- The source for an index and a directory of declarations: the index first, where there is one. An
index is loaded now, declarations are read when they are asked for. -/
def openSource (files : Files) (index declarations : Option Path) :
    Except SetupError (SourceTree Store) := do
  let loaded ← match index with
    | none => pure none
    | some path =>
      match Index.load files path with
      | .ok index => pure (some (SourceTree.leaf (Sum.inl index)))
      | .error cause => throw (.index cause)
  let directory := declarations.map fun dir =>
    SourceTree.leaf (Sum.inr (⟨dir, files⟩ : Declarations))
  match loaded, directory with
  | some index, some fallback => pure (SourceTree.layered index fallback).cache
  | some index, none => pure index.cache
  | none, some fallback => pure fallback.cache
  | none, none => throw .noSource

end ActivationOrder
