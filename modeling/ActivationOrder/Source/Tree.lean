import ActivationOrder.Source.Declarations

/-!
Sources made of sources. A layered source asks its index for the units that the index covers, and
its fallback for the others. A cached source keeps what was read successfully, and never anything
else: coverage is always asked of the source inside, and a failed read is tried again. A narrowed
source covers the units it is told to, which decides who is asked when it is layered.
-/

namespace ActivationOrder

/-- A source built over `α`. -/
inductive SourceTree (α : Type) where
  | leaf (source : α)
  | layered (index fallback : SourceTree α)
  | cached (entries : UnitMap Metadata) (inner : SourceTree α)
  | narrowed (covered : UnitSet) (inner : SourceTree α)

namespace SourceTree

variable {α β : Type}

/-- A cache with nothing in it. -/
def cache (inner : SourceTree α) : SourceTree α := .cached ∅ inner

/-- The entries of the outermost cache, if the source is one. -/
def entries? : SourceTree α → Option (UnitMap Metadata)
  | .cached entries _ => some entries
  | _ => none

/-- The same tree over other leaves. -/
def map (f : α → β) : SourceTree α → SourceTree β
  | .leaf source => .leaf (f source)
  | .layered index fallback => .layered (index.map f) (fallback.map f)
  | .cached entries inner => .cached entries (inner.map f)
  | .narrowed covered inner => .narrowed covered (inner.map f)

/-- Whether a source knows about a unit. -/
def covers [Source α] : SourceTree α → UnitId → Bool
  | .leaf source, unit => Source.covers source unit
  | .layered index fallback, unit => index.covers unit || fallback.covers unit
  | .cached _ inner, unit => inner.covers unit
  | .narrowed covered _, unit => covered.contains unit

/-- The metadata of a unit, and the source after the read. -/
def read [Source α] : SourceTree α → UnitId → Except MetadataError Metadata × SourceTree α
  | .leaf source, unit =>
    let (answer, source) := Source.read source unit
    (answer, .leaf source)
  | .layered index fallback, unit =>
    if index.covers unit then
      let (answer, index) := index.read unit
      (answer, .layered index fallback)
    else
      let (answer, fallback) := fallback.read unit
      (answer, .layered index fallback)
  | .cached entries inner, unit =>
    match entries[unit]? with
    | some metadata => (.ok metadata, .cached entries inner)
    | none =>
      match inner.read unit with
      | (.ok metadata, inner) => (.ok metadata, .cached (entries.insert unit metadata) inner)
      | (.error cause, inner) => (.error cause, .cached entries inner)
  | .narrowed covered inner, unit =>
    let (answer, inner) := inner.read unit
    (answer, .narrowed covered inner)

instance [Source α] : Source (SourceTree α) := ⟨covers, read⟩

end SourceTree

/-- What a program's sources are built over: indexes and directories of declarations. -/
abbrev Store := Index ⊕ Declarations

end ActivationOrder
