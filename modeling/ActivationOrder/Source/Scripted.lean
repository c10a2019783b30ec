import ActivationOrder.Source.Basic

/-!
Sources whose answers depend on their history. A scripted source answers from its entries, but some
reads of some units fail as the script says, and it keeps the order in which units were asked for.
What a reader sees of such a source tells every order of reads from every other.
-/

namespace ActivationOrder

/-- The reads of a unit that fail: after `skip` reads that succeed, the next `times`, or all. -/
structure ScriptedFailure where
  cause : MetadataError
  skip : Nat := 0
  times : Option Nat := none

/-- A source that follows a script. -/
structure Scripted where
  entries : UnitMap Metadata
  failures : UnitMap ScriptedFailure := ∅
  /-- The units that were asked for, the last one first. -/
  asked : List UnitId := []

/-- The answer that a failure lets through, and what is left of the failure. -/
def ScriptedFailure.next (failure : ScriptedFailure) : Option MetadataError × ScriptedFailure :=
  match failure.skip, failure.times with
  | skip + 1, _ => (none, { failure with skip })
  | 0, none => (some failure.cause, failure)
  | 0, some 0 => (none, failure)
  | 0, some (times + 1) => (some failure.cause, { failure with times := some times })

instance : Source Scripted where
  covers _ _ := true
  read source unit :=
    let source := { source with asked := unit :: source.asked }
    match source.failures[unit]? with
    | none => (.ok (source.entries.getD unit {}), source)
    | some failure =>
      let (cause, failure) := failure.next
      let source := { source with failures := source.failures.insert unit failure }
      match cause with
      | some cause => (.error cause, source)
      | none => (.ok (source.entries.getD unit {}), source)

end ActivationOrder
