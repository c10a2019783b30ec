import ActivationOrder.Files.Tree
import ActivationOrder.Source.Basic

/-!
Indexes: the metadata of many units in one place. An index covers the units it has an entry for, an
empty one included, and answers for every other unit with the metadata of a unit that declares
nothing. An index is written to a neighbouring file first, which then takes the place of the target,
so the target holds the old index or the new one, whichever step of it the system refuses.
-/

namespace ActivationOrder

/-- The metadata of the indexed units. -/
structure Index where
  units : UnitMap Metadata
  deriving Inhabited

/-- Why an index file cannot be used. -/
inductive IndexError where
  | read (path : Path) (cause : OsError)
  | parse (path : Path) (cause : SchemaError)
  | write (path : Path) (cause : OsError)
  deriving DecidableEq

/-- The cause behind the error, in words. -/
def IndexError.cause : IndexError → String
  | .read _ cause => cause.message
  | .parse _ cause => cause.message
  | .write _ cause => cause.message

/-- What is wrong with the index file. -/
def IndexError.message : IndexError → String
  | .read path cause => "failed to read index '" ++ path.text ++ "': " ++ cause.message
  | .parse path cause => "failed to parse index '" ++ path.text ++ "': " ++ cause.message
  | .write path cause => "failed to write index '" ++ path.text ++ "': " ++ cause.message

namespace Index

/-- No units. -/
def empty : Index := ⟨∅⟩

/-- The index with one more entry, in the place of the unit's earlier one. -/
def insert (index : Index) (unit : UnitId) (metadata : Metadata) : Index :=
  ⟨index.units.insert unit metadata⟩

/-- The index of these entries; later ones take the place of earlier ones. -/
def ofEntries (entries : List (UnitId × Metadata)) : Index :=
  entries.foldl (fun index entry => index.insert entry.1 entry.2) empty

/-- The number of units. -/
def size (index : Index) : Nat := index.units.size

/-- The indexed units in ascending order. -/
def keys (index : Index) : List UnitId := index.units.keys

/-- Whether the index has an entry for a unit. -/
def covers (index : Index) (unit : UnitId) : Bool := index.units.contains unit

/-- The metadata of a unit. -/
def metadataOf (index : Index) (unit : UnitId) : Metadata := index.units.getD unit {}

instance : Source Index where
  covers := covers
  read index unit := (.ok (index.metadataOf unit), index)

/-- The index that a document holds. -/
def ofDocument (document : IndexDocument) : Index :=
  ⟨document.units.map fun _ declared => declared.metadata⟩

/-- Reads the text of an index. -/
def ofText (text : String) : Except SchemaError Index :=
  match readIndex text with
  | .ok document => .ok (ofDocument document)
  | .error cause => .error cause

/-- The text of an index. -/
def text (index : Index) : String :=
  writtenIndex (index.units.map fun _ metadata => metadata.declaration)

/-- Reads an index file. -/
def load (files : Files) (path : Path) : Except IndexError Index :=
  match files.readText path with
  | .error cause => .error (.read path cause)
  | .ok text =>
    match ofText text with
    | .ok index => .ok index
    | .error cause => .error (.parse path cause)

/-- The file that an index is written to before it takes the place of `path`. -/
def temporaryPath (path : Path) : Path := path.withExtension "toml.tmp"

/-- Writes an index file, and the directories it stands in. A failure keeps what was done so far. -/
def write (index : Index) (files : Files) (path : Path) (faults : Faults := {}) :
    Except IndexError Unit × Files :=
  let parent := (path.parent?.filter (·.text ≠ "")).getD ⟨""⟩
  match files.makeDirectories parent faults with
  | (.error cause, files) => (.error (.write path cause), files)
  | (.ok (), files) =>
    let temporary := temporaryPath path
    match files.write temporary index.text.toUTF8 faults with
    | (.error cause, files) => (.error (.write temporary cause), files)
    | (.ok (), written) =>
      match written.rename temporary path faults.rename with
      | .error cause => (.error (.write path cause), written)
      | .ok renamed => (.ok (), renamed)

end Index

end ActivationOrder
