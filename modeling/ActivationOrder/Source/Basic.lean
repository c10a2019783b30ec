import ActivationOrder.Files.OsError
import ActivationOrder.Files.Path
import ActivationOrder.Schema.IndexDocument

/-!
Sources of metadata. Reading may change the source: a cache fills, and a source whose answers depend
on what has been read before moves on. So a source is a state, a read gives an answer and the next
state, and what a reader sees is decided by the order of its reads.
-/

namespace ActivationOrder

/-- Why the metadata of a unit cannot be had. -/
inductive UnreadableCause where
  | pathSeparator
  | leadingDot
  | controlCharacters
  | file (path : Path) (cause : OsError)
  | malformed (path : Path) (cause : SchemaError)
  /-- A cause that only its words are known of. -/
  | reported (text : String)
  deriving DecidableEq

/-- The words for the cause. -/
def UnreadableCause.message : UnreadableCause → String
  | .pathSeparator => "unit id contains a path separator"
  | .leadingDot => "unit id starts with '.'"
  | .controlCharacters => "unit id contains control characters"
  | .file path cause => "failed to read '" ++ path.text ++ "': " ++ cause.message
  | .malformed path cause => "malformed declaration '" ++ path.text ++ "': " ++ cause.message
  | .reported text => text

/-- Why a source has no answer. -/
inductive MetadataError where
  | unreadable (unit : UnitId) (cause : UnreadableCause)
  | scan (path : Path) (cause : OsError)
  deriving DecidableEq

/-- What is wrong with the source. -/
def MetadataError.message : MetadataError → String
  | .unreadable unit cause =>
    "unable to read metadata for unit " ++ unit.text ++ ": " ++ cause.message
  | .scan path cause => "failed to scan '" ++ path.text ++ "': " ++ cause.message

/-- A source of metadata, in some state. -/
class Source (σ : Type) where
  /-- Whether the source knows about a unit. -/
  covers : σ → UnitId → Bool
  /-- The metadata of a unit, and the source after the read. -/
  read : σ → UnitId → Except MetadataError Metadata × σ

/-- Either of two sources. -/
instance {α β : Type} [Source α] [Source β] : Source (α ⊕ β) where
  covers
    | .inl a, unit => Source.covers a unit
    | .inr b, unit => Source.covers b unit
  read
    | .inl a, unit => let (answer, a) := Source.read a unit; (answer, .inl a)
    | .inr b, unit => let (answer, b) := Source.read b unit; (answer, .inr b)

end ActivationOrder
