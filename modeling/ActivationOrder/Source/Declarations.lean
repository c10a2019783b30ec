import ActivationOrder.Source.Index

/-!
Directories of declarations: one file for each unit, named after it. A unit whose id is no plain
file name has no file; of the others, `pathFor` and `discover` are inverse to each other. A
directory answers for every unit, if only with a failure.
-/

namespace ActivationOrder

/-- A directory of declarations. -/
structure Declarations where
  dir : Path
  files : Files

namespace Declarations

/-- The extension of declaration files. -/
def fileExtension : String := "toml"

/-- Why a unit's id is no plain file name, if it is none. -/
def nameFault? (unit : UnitId) : Option UnreadableCause :=
  let name := unit.text.toList
  if name.contains '/' || name.contains '\\' then some .pathSeparator
  else if name.head? = some '.' then some .leadingDot
  else if name.any Text.isControl then some .controlCharacters
  else none

/-- The file that declares a unit. -/
def pathFor (source : Declarations) (unit : UnitId) : Except MetadataError Path :=
  match nameFault? unit with
  | some cause => .error (.unreadable unit cause)
  | none => .ok (source.dir.join ⟨unit.text ++ "." ++ fileExtension⟩)

/-- The unit that a file of this name declares, if it declares one. -/
def unitNamed? (name : String) : Option UnitId :=
  match Path.splitExtension name.toList with
  | (stem, some ext) =>
    if ext = fileExtension.toList then
      match UnitId.ofString (String.ofList stem) with
      | .ok unit => if (nameFault? unit).isNone then some unit else none
      | .error _ => none
    else none
  | (_, none) => none

/-- The unit that a name in the directory declares, if its path leads to a file. A path may be too
long to lead anywhere even though the directory holds the name. -/
def unitAt? (source : Declarations) (name : String) : Option UnitId :=
  if source.files.isFile (source.dir.join ⟨name⟩) then unitNamed? name else none

/-- The units that names in the directory declare, in ascending order. -/
def unitsAmong (source : Declarations) (names : List String) : List UnitId :=
  (names.filterMap source.unitAt?).mergeSort fun a b => (compare a b).isLE

/-- The units that have a declaration file, in ascending order. -/
def discover (source : Declarations) : Except MetadataError (List UnitId) :=
  match source.files.list source.dir with
  | .error cause => .error (.scan source.dir cause)
  | .ok names => .ok (source.unitsAmong names)

/-- The metadata that a unit's file declares. -/
def metadataOf (source : Declarations) (unit : UnitId) : Except MetadataError Metadata :=
  match source.pathFor unit with
  | .error cause => .error cause
  | .ok path =>
    match source.files.readText path with
    | .error cause => .error (.unreadable unit (.file path cause))
    | .ok text =>
      match readDeclaration text with
      | .error cause => .error (.unreadable unit (.malformed path cause))
      | .ok declared => .ok declared.metadata

instance : Source Declarations where
  covers _ _ := true
  read source unit := (source.metadataOf unit, source)

/-- The index with one more unit, unless its declaration cannot be read. -/
def indexed (source : Declarations) (index : Index) (unit : UnitId) : Except MetadataError Index :=
  match source.metadataOf unit with
  | .error cause => .error cause
  | .ok metadata => .ok (index.insert unit metadata)

/-- The index of all declarations, unless one cannot be read. -/
def buildIndex (source : Declarations) : Except MetadataError Index :=
  match source.discover with
  | .error cause => .error cause
  | .ok units => units.foldlM source.indexed Index.empty

end Declarations

end ActivationOrder
