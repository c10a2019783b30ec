import ActivationOrder.Schema.Decode
import ActivationOrder.Toml.Written

/-!
Index documents. An index names its kind and version, which are looked at before anything else: a
document of another kind or version is refused for that alone, whatever else it holds. Only then is
it read strictly. The writer leaves out what the reader fills in: the last order and empty sets.
-/

namespace ActivationOrder

open Toml (Value Entries)

/-- The kind of an index document. -/
def indexKind : String := "precedence.index"

/-- The version of index documents that is read and written. -/
def indexVersion : Nat := 1

/-- Why a metadata document cannot be read. -/
inductive SchemaError where
  | parse (cause : DecodeError)
  | invalidKind (found : String)
  | unsupportedVersion (version : Nat)
  deriving DecidableEq

/-- What is wrong with the document. -/
def SchemaError.message : SchemaError → String
  | .parse cause => "failed to parse: " ++ cause.message
  | .invalidKind found => "invalid kind '" ++ found ++ "', expected '" ++ indexKind ++ "'"
  | .unsupportedVersion version =>
    "unsupported schema version " ++ toString version ++ ", supported: " ++ toString indexVersion

/-- The declaration of one unit, as a document of its own. -/
def readDeclaration (text : String) : Except SchemaError Declaration :=
  match readDocument text >>= decodeFields with
  | .ok declared => .ok declared
  | .error cause => .error (.parse cause)

/-- A document of declarations. -/
structure IndexDocument where
  kind : String
  version : Nat
  units : UnitMap Declaration

/-- A version number: an integer of 32 bits without sign. -/
def decodeVersion : Value → Except DecodeError Nat
  | .integer value =>
    if 0 ≤ value ∧ value ≤ 4294967295 then .ok value.toNat else .error (.outOfRange value .version)
  | value => value.refuse .version

/-- The declarations of an index with one more. -/
def addUnit (units : UnitMap Declaration) (field : String × Value) :
    Except DecodeError (UnitMap Declaration) := do
  match UnitId.ofString field.1 with
  | .error cause => throw (.unit cause)
  | .ok unit => return units.insert unit (← decodeDeclaration field.2)

/-- The declarations of an index. -/
def decodeIndexUnits (value : Value) : Except DecodeError (UnitMap Declaration) :=
  match value.entries? with
  | some fields => fields.foldlM addUnit ∅
  | none => value.refuse .map

/-- The fields of an index document that have been read so far. -/
structure IndexFields where
  kind : Option String := none
  version : Option Nat := none
  units : UnitMap Declaration := ∅

namespace IndexFields

/-- The document's kind and version, unless one is missing. -/
def envelope (fields : IndexFields) : Except DecodeError (String × Nat) :=
  match fields.kind, fields.version with
  | none, _ => .error (.missingField "kind")
  | some _, none => .error (.missingField "schema_version")
  | some kind, some version => .ok (kind, version)

/-- One more field, where only kind and version matter. -/
def withEnvelopeField (fields : IndexFields) (field : String × Value) :
    Except DecodeError IndexFields := do
  if field.1 = "kind" then return { fields with kind := some (← decodeText field.2) }
  else if field.1 = "schema_version" then
    return { fields with version := some (← decodeVersion field.2) }
  else return fields

/-- One more field, where all matter. -/
def withField (fields : IndexFields) (field : String × Value) : Except DecodeError IndexFields := do
  if field.1 = "kind" then return { fields with kind := some (← decodeText field.2) }
  else if field.1 = "schema_version" then
    return { fields with version := some (← decodeVersion field.2) }
  else if field.1 = "units" then return { fields with units := ← decodeIndexUnits field.2 }
  else throw (.unknownField field.1 ["kind", "schema_version", "units"])

end IndexFields

/-- The kind and version of a document, whatever else it holds. -/
def decodeEnvelope (fields : Entries) : Except DecodeError (String × Nat) := do
  (← fields.foldlM IndexFields.withEnvelopeField {}).envelope

/-- An index document, in which every field must be right. -/
def decodeIndex (fields : Entries) : Except DecodeError IndexDocument := do
  let all ← fields.foldlM IndexFields.withField {}
  let (kind, version) ← all.envelope
  return ⟨kind, version, all.units⟩

/-- An index document from its fields. -/
def dispatchIndex (fields : Entries) : Except SchemaError IndexDocument :=
  match decodeEnvelope fields with
  | .error cause => .error (.parse cause)
  | .ok (kind, version) =>
    if kind ≠ indexKind then .error (.invalidKind kind)
    else if version ≠ indexVersion then .error (.unsupportedVersion version)
    else match decodeIndex fields with
      | .ok document => .ok document
      | .error cause => .error (.parse cause)

/-- Reads an index document. -/
def readIndex (text : String) : Except SchemaError IndexDocument :=
  match readDocument text with
  | .ok fields => dispatchIndex fields
  | .error cause => .error (.parse cause)

/-! ### Writing -/

/-- A line that assigns `value` to a field. -/
def writtenField (name : String) (value : List Char) : List Char :=
  name.toList ++ [' ', '=', ' '] ++ value ++ ['\n']

/-- A line for an order, if there is one. -/
def writtenOrder : Option Order → List Char
  | some order => writtenField "order" order.text.toList
  | none => []

/-- A line for a set of units, unless it is empty. -/
def writtenUnits (name : String) (units : UnitSet) : List Char :=
  if units.isEmpty then []
  else writtenField name (Toml.writtenArray (units.toList.map fun unit => unit.text.toList))

/-- The table of one unit. -/
def writtenUnit (unit : UnitId) (declared : Declaration) : List Char :=
  "\n[units.".toList ++ Toml.writtenKey unit.text.toList ++ [']', '\n'] ++
    writtenOrder declared.order ++ writtenUnits "before" declared.before ++
    writtenUnits "after" declared.after

/-- Writes an index document of the current kind and version. -/
def writtenIndex (units : UnitMap Declaration) : String :=
  String.ofList <|
    writtenField "kind" (Toml.writtenString indexKind.toList) ++
      writtenField "schema_version" (Nat.toDigits 10 indexVersion) ++
      (if units.isEmpty then "\n[units]\n".toList
        else units.toList.flatMap fun (unit, declared) => writtenUnit unit declared)

end ActivationOrder
