import Std.Data.ExtTreeMap
import Std.Data.ExtTreeSet
import ActivationOrder.Text.Quoted

/-!
Unit ids. An id is any text but the empty one; ids are opaque and only compared. They are ordered by
code points, which is the order of their UTF-8 bytes. Sets and maps of ids are extensional: two of
them are equal when they have the same members, so their order of insertion never shows.
-/

namespace ActivationOrder

/-- The id of a configuration unit. -/
structure UnitId where
  text : String
  nonempty : text ≠ ""
  deriving DecidableEq

/-- Why a text is no unit id. -/
inductive UnitIdError where
  | empty
  | control (text : String)
  deriving DecidableEq, Repr

namespace UnitIdError

/-- What is wrong with the text. -/
def message : UnitIdError → String
  | .empty => "invalid unit id: unit id cannot be empty"
  | .control text =>
    "invalid unit id: unit id cannot contain control characters: " ++ Text.quoted text

end UnitIdError

namespace UnitId

/-- The id with this text. -/
def ofString (text : String) : Except UnitIdError UnitId :=
  if h : text = "" then .error .empty else .ok ⟨text, h⟩

@[simp] theorem ofString_text (unit : UnitId) : ofString unit.text = .ok unit := by
  simp [ofString, unit.nonempty]

@[ext] theorem ext {a b : UnitId} (h : a.text = b.text) : a = b := by
  cases a; cases b; simpa using h

theorem ofString_eq_ok_iff {text : String} {unit : UnitId} :
    ofString text = .ok unit ↔ text = unit.text := by
  constructor
  · intro h
    rw [ofString] at h
    split at h
    · cases h
    · cases h
      rfl
  · rintro rfl
    exact unit.ofString_text

instance : Inhabited UnitId := ⟨⟨"-", by decide⟩⟩

instance : Ord UnitId := ⟨fun a b => compare a.text b.text⟩

theorem compare_eq (a b : UnitId) : compare a b = compare a.text b.text := rfl

instance : Std.TransOrd UnitId where
  eq_swap {a b} := by
    simp only [compare_eq]
    exact Std.OrientedOrd.eq_swap
  isLE_trans {a b c} := by
    simp only [compare_eq]
    exact Std.TransOrd.isLE_trans

instance : Std.LawfulEqOrd UnitId where
  eq_of_compare h := ext (Std.LawfulEqOrd.eq_of_compare h)

end UnitId

/-- A finite set of units. -/
abbrev UnitSet := Std.ExtTreeSet UnitId compare

/-- The units of a set in ascending order are listed once each. -/
theorem nodup_toList (set : UnitSet) : set.toList.Nodup :=
  Std.ExtTreeSet.distinct_toList.imp fun h heq => h (Std.LawfulEqCmp.compare_eq_iff_eq.mpr heq)

theorem mem_insert_iff {set : UnitSet} {unit x : UnitId} :
    x ∈ set.insert unit ↔ x = unit ∨ x ∈ set := by
  rw [Std.ExtTreeSet.mem_insert, Std.LawfulEqCmp.compare_eq_iff_eq, eq_comm]

/-- A finite map from units. -/
abbrev UnitMap (α : Type) := Std.ExtTreeMap UnitId α compare

end ActivationOrder
