import ActivationOrder.Decimal.Shortest
import ActivationOrder.Text.Lines
import ActivationOrder.Toml.Document
import ActivationOrder.Unit.Metadata

/-!
Typed reading of documents. A document is read as a whole first; then the keys of each table are
taken in document order, and the first fault ends the reading. Faults are causes: what was found,
and what was expected in its place. A fault that only the text of the document explains, or the
shape of a variant, has no detail.
-/

namespace ActivationOrder

/-- What a document holds at the place of a fault. -/
inductive Found where
  | integer (value : Int)
  | float (value : Binary64)
  | boolean (value : Bool)
  | string (text : String)
  | sequence
  | map
  deriving DecidableEq

/-- What a document should hold. -/
inductive Expected where
  | order
  | version
  | text
  | sequence
  | map
  | declaration
  | path
  | output
  deriving DecidableEq

/-- Why a document cannot be read. -/
inductive DecodeError where
  /-- The text is no document. -/
  | notDocument
  /-- A variant is neither a name nor a name with nothing in it. -/
  | variantShape
  | wrongType (found : Found) (expected : Expected)
  | outOfRange (value : Int) (expected : Expected)
  | unknownField (name : String) (known : List String)
  | unknownVariant (name : String) (known : List String)
  | missingField (name : String)
  | unit (cause : UnitIdError)
  deriving DecidableEq

/-- The words for what was found. -/
def Found.message : Found → String
  | .integer value => "integer `" ++ toString value ++ "`"
  | .float value => "floating point `" ++ value.text ++ "`"
  | .boolean value => if value then "boolean `true`" else "boolean `false`"
  | .string text => "string " ++ Text.quoted text
  | .sequence => "sequence"
  | .map => "map"

/-- The words for what was expected. -/
def Expected.message : Expected → String
  | .order => "i32"
  | .version => "u32"
  | .text => "a string"
  | .sequence => "a sequence"
  | .map => "a map"
  | .declaration => "struct DeclaredMetadata"
  | .path => "path string"
  | .output => "struct OutputConfig"

/-- The choices of names in a message: one alone, two with `or`, more after `one of`. -/
def choices (names : List String) : String :=
  match names.map fun name => "`" ++ name ++ "`" with
  | [a, b] => a ++ " or " ++ b
  | [a] => a
  | quoted => "one of " ++ Text.joined ", " quoted

/-- What is wrong with a document. A detail is a line of its own. -/
def DecodeError.message : DecodeError → String
  | .notDocument => "TOML error"
  | .variantShape => "TOML error"
  | .wrongType found expected =>
    "invalid type: " ++ found.message ++ ", expected " ++ expected.message ++ "\n"
  | .outOfRange value expected =>
    "invalid value: integer `" ++ toString value ++ "`, expected " ++ expected.message ++ "\n"
  | .unknownField name known => "unknown field `" ++ name ++ "`, expected " ++ choices known ++ "\n"
  | .unknownVariant name known =>
    "unknown variant `" ++ name ++ "`, expected " ++ choices known ++ "\n"
  | .missingField name => "missing field `" ++ name ++ "`\n"
  | .unit cause => cause.message ++ "\n"

namespace Toml.Value

/-- The key under which a moment shows itself as a table of one entry, its text. -/
def momentKey : String := "$__toml_private_datetime"

/-- The entries of a value that can be taken for a table. -/
def entries? : Value → Option Entries
  | .table entries => some entries
  | .moment text => some [(momentKey, .string text)]
  | _ => none

/-- What a value is, for a message. -/
def found : Value → Found
  | .string text => .string text
  | .integer value => .integer value
  | .float value => .float value
  | .boolean value => .boolean value
  | .array _ => .sequence
  | .moment _ => .map
  | .table _ => .map

/-- The fault of a value that is not what was expected. -/
def refuse {α : Type} (value : Value) (expected : Expected) : Except DecodeError α :=
  .error (.wrongType value.found expected)

end Toml.Value

open Toml (Value Entries)

/-- A whole document. -/
def readDocument (text : String) : Except DecodeError Entries :=
  match Toml.document? text with
  | some entries => .ok entries
  | none => .error .notDocument

/-- A text. -/
def decodeText : Value → Except DecodeError String
  | .string text => .ok text
  | value => value.refuse .text

/-- An order. -/
def decodeOrder : Value → Except DecodeError Order
  | .integer value =>
    match Order.ofInt? value with
    | some order => .ok order
    | none => .error (.outOfRange value .order)
  | value => value.refuse .order

/-- A unit id. -/
def decodeUnit (value : Value) : Except DecodeError UnitId := do
  match UnitId.ofString (← decodeText value) with
  | .ok unit => .ok unit
  | .error cause => .error (.unit cause)

/-- A set of units: an array of ids, in which an id may come twice. -/
def decodeUnits : Value → Except DecodeError UnitSet
  | .array items => items.foldlM (fun units item => return units.insert (← decodeUnit item)) ∅
  | value => value.refuse .sequence

/-- The fields of a declaration, in the order in which an array gives them. -/
def declarationFields : List String := ["order", "before", "after"]

/-- A declaration with one more field. -/
def Declaration.withField (declared : Declaration) (name : String) (value : Value) :
    Except DecodeError Declaration := do
  if name = "order" then return { declared with order := some (← decodeOrder value) }
  else if name = "before" then return { declared with before := ← decodeUnits value }
  else if name = "after" then return { declared with after := ← decodeUnits value }
  else throw (.unknownField name declarationFields)

/-- A declaration of these fields. -/
def decodeFields (fields : Entries) : Except DecodeError Declaration :=
  fields.foldlM (fun declared field => declared.withField field.1 field.2) {}

/-- A unit's declaration: a table, or an array of the fields by position, in which the last ones may
be missing and further items are ignored. -/
def decodeDeclaration (value : Value) : Except DecodeError Declaration :=
  match value with
  | .array items => decodeFields (declarationFields.zip items)
  | value =>
    match value.entries? with
    | some fields => decodeFields fields
    | none => value.refuse .declaration

end ActivationOrder
