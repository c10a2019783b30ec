import ActivationOrder.Batch.Check
import ActivationOrder.Report.Json

/-!
The results of commands, as text and as JSON. As text, the units of an order stand one to a line,
and what is known of a unit is a block of labelled lines in which an empty set is a dash.
-/

namespace ActivationOrder

/-- The texts of units. -/
def texts (units : List UnitId) : List String := units.map (·.text)

/-- Items one to a line, each after a mark. -/
def formatList (items : List String) (mark : String) : String :=
  Text.joined "\n" (items.map fun item => mark ++ item)

/-- The units of a set on one line. -/
def formatUnits (units : UnitSet) : String :=
  if units.isEmpty then "-" else Text.joined ", " (texts units.toList)

/-- What is known of a unit. -/
def formatMetadata (unit : UnitId) (metadata : Metadata) (predecessors : UnitSet) : String :=
  Text.joined "\n" [
    unit.text,
    "  order:        " ++ metadata.order.text,
    "  before:       " ++ formatUnits metadata.before,
    "  after:        " ++ formatUnits metadata.after,
    "  predecessors: " ++ formatUnits predecessors]

/-- A reference on one line. -/
def ExternalReference.text (reference : ExternalReference) : String :=
  Text.joined " " [reference.unit.text, reference.relation.name, reference.target.text]

/-- What a check says about a reference. -/
def ExternalReference.warning (reference : ExternalReference) : String :=
  reference.unit.text ++ " declares " ++ reference.relation.name ++ " " ++ reference.target.text ++
    ", which is not in the batch"

/-- A unit with its metadata and its effective predecessors. -/
structure ShownUnit where
  unit : UnitId
  metadata : Metadata
  predecessors : UnitSet

/-- The block of a unit. -/
def ShownUnit.text (shown : ShownUnit) : String :=
  formatMetadata shown.unit shown.metadata shown.predecessors

namespace Json

/-- A set of units. -/
def ofUnits (units : UnitSet) : Json := ofTexts (texts units.toList)

/-- An order. -/
def ofOrder (order : List UnitId) : Json := .object [("order", ofTexts (texts order))]

/-- A unit that is shown. -/
def ofShown (shown : ShownUnit) : Json :=
  .object [
    ("unit", .string shown.unit.text),
    ("order", .number shown.metadata.order.value),
    ("before", ofUnits shown.metadata.before),
    ("after", ofUnits shown.metadata.after),
    ("predecessors", ofUnits shown.predecessors)]

/-- A reference. -/
def ofReference (reference : ExternalReference) : Json :=
  .object [
    ("unit", .string reference.unit.text),
    ("relation", .string reference.relation.name),
    ("target", .string reference.target.text)]

/-- The outcome of a sort. -/
def ofOutcome : Except SortError (List UnitId) → Json
  | .ok order => .object [("status", .string "ok"), ("units", ofTexts (texts order))]
  | .error (.cycle cycle) =>
    .object [
      ("status", .string "cycle"),
      ("unit", .string cycle.unit.text),
      ("predecessor", .string cycle.predecessor.text)]
  | .error cause => .object [("status", .string "error"), ("message", .string cause.message)]

/-- The report of a check. -/
def ofReport (report : CheckReport) : Json :=
  .object [
    ("order", ofOutcome report.order),
    ("external", .array (report.external.map ofReference))]

/-- An index that was written. -/
def ofWritten (path : Path) (size : Nat) : Json :=
  .object [("path", .string path.text), ("units", .number size)]

end Json

end ActivationOrder
