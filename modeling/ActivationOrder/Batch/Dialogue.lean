import ActivationOrder.Batch.Check

/-!
Dialogues. A dialogue asks things of one source, one after the other: reads, sorts and checks, and
whatever the views of batches can tell that have been opened on it. The source and every view go on
from request to request in the state in which the earlier requests, failed ones included, have left
them. Views are numbered in the order in which they were opened.
-/

namespace ActivationOrder

/-- What can be asked of a source, or of a view that has been opened on it. -/
inductive Request where
  | read (unit : UnitId)
  | covers (unit : UnitId)
  | sort (units : List UnitId)
  | check (units : List UnitId)
  /-- Opens a view. -/
  | view (units : List UnitId)
  | contains (view : Nat) (unit : UnitId)
  | get (view : Nat) (unit : UnitId)
  | predecessors (view : Nat) (unit : UnitId)
  | external (view : Nat)

/-- What comes back. -/
inductive Reply where
  | metadata (answer : Except MetadataError Metadata)
  | truth (answer : Bool)
  | order (answer : Except SortError (List UnitId))
  | report (answer : Except MetadataError CheckReport)
  | opened (batch : UnitSet)
  | predecessors (answer : Except MetadataError UnitSet)
  | external (answer : Except MetadataError (List ExternalReference))
  /-- There is no view of this number. -/
  | noView

/-- A source, and the views that are open. -/
structure Dialogue (σ : Type) where
  source : σ
  views : List View := []

namespace Dialogue

variable {σ : Type} [Source σ]

/-- Asks a view, and keeps what it has become. -/
def askView (dialogue : Dialogue σ) (number : Nat)
    (ask : View → σ → Reply × View × σ) : Reply × Dialogue σ :=
  match dialogue.views[number]? with
  | none => (.noView, dialogue)
  | some view =>
    let (reply, view, source) := ask view dialogue.source
    (reply, ⟨source, dialogue.views.set number view⟩)

/-- Answers one request. -/
def answer (dialogue : Dialogue σ) : Request → Reply × Dialogue σ
  | .read unit =>
    let (answer, source) := Source.read dialogue.source unit
    (.metadata answer, { dialogue with source })
  | .covers unit => (.truth (Source.covers dialogue.source unit), dialogue)
  | .sort units =>
    let (answer, source) := sort dialogue.source units
    (.order answer, { dialogue with source })
  | .check units =>
    let (answer, source) := check dialogue.source units
    (.report answer, { dialogue with source })
  | .view units =>
    let view := View.ofUnits units
    (.opened view.batch, { dialogue with views := dialogue.views ++ [view] })
  | .contains number unit =>
    dialogue.askView number fun view source => (.truth (view.batch.contains unit), view, source)
  | .get number unit =>
    dialogue.askView number fun view source =>
      let (answer, next) := view.get source unit
      (.metadata answer, next)
  | .predecessors number unit =>
    dialogue.askView number fun view source =>
      let (answer, next) := view.predecessors source unit
      (.predecessors answer, next)
  | .external number =>
    dialogue.askView number fun view source =>
      let (answer, next) := view.external source
      (.external answer, next)

/-- Answers requests one after the other. -/
def answers (dialogue : Dialogue σ) : List Request → List Reply
  | [] => []
  | request :: requests =>
    (dialogue.answer request).1 :: answers (dialogue.answer request).2 requests

/-- The dialogue after requests, one after the other. -/
def after (dialogue : Dialogue σ) : List Request → Dialogue σ
  | [] => dialogue
  | request :: requests => after (dialogue.answer request).2 requests

end Dialogue

end ActivationOrder
