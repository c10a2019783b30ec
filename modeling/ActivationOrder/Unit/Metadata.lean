import ActivationOrder.Unit.Id

/-!
What a unit declares. `Metadata` is what ordering works with; a `Declaration` is the same as it is
written down, where the order may be left out, and leaving it out means the last order. So the two
differ only in how the last order is written, and a declaration made from metadata never writes it.
-/

namespace ActivationOrder

/-- A unit's place among units that no relation orders: smaller runs earlier. Orders are the 32-bit
signed integers. -/
structure Order where
  value : Int
  lower : -2147483648 ≤ value
  upper : value ≤ 2147483647
  deriving DecidableEq

namespace Order

/-- Runs before everything else. -/
def first : Order := ⟨-2147483648, by decide, by decide⟩

/-- Runs after everything else; the order of a unit that declares none. -/
def last : Order := ⟨2147483647, by decide, by decide⟩

/-- The order with this value, if it is one. -/
def ofInt? (value : Int) : Option Order :=
  if h : -2147483648 ≤ value ∧ value ≤ 2147483647 then some ⟨value, h.1, h.2⟩ else none

@[simp] theorem ofInt?_value (order : Order) : ofInt? order.value = some order := by
  simp [ofInt?, order.lower, order.upper]

/-- The decimal digits, with a minus sign for negative orders. -/
def text (order : Order) : String := toString order.value

instance : Inhabited Order := ⟨last⟩

instance : Ord Order := ⟨fun a b => compare a.value b.value⟩

instance : LE Order := ⟨fun a b => a.value ≤ b.value⟩

instance (a b : Order) : Decidable (a ≤ b) := inferInstanceAs (Decidable (a.value ≤ b.value))

end Order

/-- The ordering metadata of a unit. -/
structure Metadata where
  /-- The unit's place among unrelated units. -/
  order : Order := Order.last
  /-- The units that this one must precede. -/
  before : UnitSet := ∅
  /-- The units that this one must follow. -/
  after : UnitSet := ∅
  deriving DecidableEq

instance : Inhabited Metadata := ⟨{}⟩

/-- Ordering metadata as it is written down. -/
structure Declaration where
  order : Option Order := none
  before : UnitSet := ∅
  after : UnitSet := ∅
  deriving DecidableEq

/-- What a declaration means: no order is the last one. -/
def Declaration.metadata (declared : Declaration) : Metadata :=
  ⟨declared.order.getD .last, declared.before, declared.after⟩

/-- How metadata is written down: the last order is left out. -/
def Metadata.declaration (m : Metadata) : Declaration :=
  ⟨if m.order = .last then none else some m.order, m.before, m.after⟩

@[simp] theorem Metadata.metadata_declaration (m : Metadata) : m.declaration.metadata = m := by
  rw [Metadata.declaration, Declaration.metadata]
  by_cases h : m.order = .last <;> simp [h]
  rw [← h]

end ActivationOrder
