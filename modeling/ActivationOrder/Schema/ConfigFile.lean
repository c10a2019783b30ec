import ActivationOrder.Files.Path
import ActivationOrder.Schema.Decode

/-!
Configuration files. A file may name an index, a directory of declarations and an output format.
Relative paths in it start from the directory of the file; an empty path is a fault of its own,
which is why it is never joined to anything.
-/

namespace ActivationOrder

open Toml (Value Entries)

/-- How results are printed. -/
inductive OutputFormat where
  | text
  | json
  deriving DecidableEq, Repr

/-- The output section of a file. -/
structure OutputSection where
  format : Option OutputFormat := none
  deriving DecidableEq

/-- What a configuration file says. -/
structure ConfigFile where
  index : Option Path := none
  declarations : Option Path := none
  output : Option OutputSection := none
  deriving DecidableEq

/-- The names of the output formats. -/
def formatNames : List String := ["text", "json"]

/-- The output format with this name. -/
def formatNamed (name : String) : Except DecodeError OutputFormat :=
  if name = "text" then .ok .text
  else if name = "json" then .ok .json
  else .error (.unknownVariant name formatNames)

/-- Whether a value holds nothing, as the content of a variant without content must. -/
def isVacant : Value → Bool
  | .table [] => true
  | .array [] => true
  | _ => false

/-- An output format: its name, or a table with the name as its only key and nothing in it. -/
def decodeFormat : Value → Except DecodeError OutputFormat
  | .string name => formatNamed name
  | .table [(name, content)] => do
    let format ← formatNamed name
    if isVacant content then pure format else throw .variantShape
  | _ => .error .variantShape

/-- A path. -/
def decodePath : Value → Except DecodeError Path
  | .string text => .ok ⟨text⟩
  | value => value.refuse .path

/-- The fields of an output section, in the order in which an array gives them. -/
def outputFields : List String := ["format"]

/-- An output section of these fields. -/
def decodeOutputFields (fields : Entries) : Except DecodeError OutputSection :=
  fields.foldlM (fun output field => do
    if field.1 = "format" then return { output with format := some (← decodeFormat field.2) }
    else throw (.unknownField field.1 outputFields)) {}

/-- An output section: a table, or an array of the fields by position. -/
def decodeOutput (value : Value) : Except DecodeError OutputSection :=
  match value with
  | .array items => decodeOutputFields (outputFields.zip items)
  | value =>
    match value.entries? with
    | some fields => decodeOutputFields fields
    | none => value.refuse .output

/-- A configuration with one more field. -/
def ConfigFile.withField (file : ConfigFile) (field : String × Value) :
    Except DecodeError ConfigFile := do
  if field.1 = "index" then return { file with index := some (← decodePath field.2) }
  else if field.1 = "declarations" then
    return { file with declarations := some (← decodePath field.2) }
  else if field.1 = "output" then return { file with output := some (← decodeOutput field.2) }
  else throw (.unknownField field.1 ["index", "declarations", "output"])

/-- Reads the text of a configuration file. -/
def readConfigFile (text : String) : Except DecodeError ConfigFile := do
  (← readDocument text).foldlM ConfigFile.withField {}

/-- A path of a file in the directory `base`. -/
def rebasePath (base path : Path) : Path :=
  if path.isAbsolute || path.text == "" then path else base.join path

/-- The configuration with its paths starting from the directory of its file. -/
def ConfigFile.rebase (file : ConfigFile) (base : Path) : ConfigFile :=
  { file with
    index := file.index.map (rebasePath base)
    declarations := file.declarations.map (rebasePath base) }

end ActivationOrder
