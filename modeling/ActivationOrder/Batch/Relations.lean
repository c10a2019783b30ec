import ActivationOrder.Unit.Metadata

/-!
What the units of a batch declare about each other. The effective predecessors of a unit are the
units of its own `after` set and the batch members that name it in their `before` sets; only the
second kind needs the rest of the batch. References to units outside the batch are kept as declared
and never order anything.
-/

namespace ActivationOrder

/-- The set in which a reference was declared. -/
inductive Relation where
  | before
  | after
  deriving DecidableEq, Repr

/-- The name of the set. -/
def Relation.name : Relation → String
  | .before => "before"
  | .after => "after"

/-- The units that metadata names in a set. -/
def Relation.targets (relation : Relation) (metadata : Metadata) : UnitSet :=
  match relation with
  | .before => metadata.before
  | .after => metadata.after

/-- A reference from a unit of a batch to a unit outside it. -/
structure ExternalReference where
  unit : UnitId
  relation : Relation
  target : UnitId
  deriving DecidableEq

/-- The batch members that name each batch member in their `before` sets, without those that nobody
names; every member has its metadata in `metadata`. -/
def declaredBefore (batch : UnitSet) (metadata : UnitMap Metadata) : UnitMap UnitSet :=
  batch.toList.foldl (fun declared unit =>
    (metadata.getD unit {}).before.toList.foldl (fun declared target =>
      if target ∈ batch then
        declared.alter target fun units => some ((units.getD ∅).insert unit)
      else declared) declared) ∅

/-- The references of a batch to units outside it, by unit, then by relation, then by target. -/
def externalReferences (batch : UnitSet) (metadata : UnitMap Metadata) : List ExternalReference :=
  batch.toList.flatMap fun unit =>
    [Relation.before, Relation.after].flatMap fun relation =>
      ((relation.targets (metadata.getD unit {})).toList.filter (· ∉ batch)).map fun target =>
        ⟨unit, relation, target⟩

/-- A batch with the metadata of its members. -/
structure Relations where
  batch : UnitSet
  metadata : UnitMap Metadata
  /-- What `declaredBefore` finds in the batch. -/
  declaredBefore : UnitMap UnitSet

namespace Relations

/-- The relations of a batch whose members have metadata. -/
def of (batch : UnitSet) (metadata : UnitMap Metadata) : Relations :=
  ⟨batch, metadata, ActivationOrder.declaredBefore batch metadata⟩

/-- The order of a unit. -/
def orderOf (relations : Relations) (unit : UnitId) : Order :=
  (relations.metadata.getD unit {}).order

/-- The effective predecessors of a unit, in the batch or not. -/
def predecessors (relations : Relations) (unit : UnitId) : UnitSet :=
  (relations.metadata.getD unit {}).after ∪ relations.declaredBefore.getD unit ∅

/-- The batch by order, and by id among units of one order: sorting is stable, and starts from the
ids in ascending order. -/
def byPriority (relations : Relations) : List UnitId :=
  let placed := relations.batch.toList.map fun unit => (relations.orderOf unit, unit)
  (placed.mergeSort fun a b => decide (a.1 ≤ b.1)).map Prod.snd

end Relations

end ActivationOrder
