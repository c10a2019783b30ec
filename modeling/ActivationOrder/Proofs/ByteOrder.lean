import Mathlib.Tactic.SplitIfs
import Mathlib.Data.List.Basic
import ActivationOrder.Unit.Id

/-!
The order of ids is the order of their bytes. Ids are compared by code points, and UTF-8 keeps this
order: a greater code point has a greater lead byte, or, of two characters with as many bytes, the
greater one has the greater digit to base 64 where they first differ. So whatever is listed in
ascending order here is in ascending order for a reader of bytes.
-/

namespace ActivationOrder

namespace Text

/-- Of two numbers the smaller one has the smaller digit to base 64 where they first differ. -/
theorem digits_lt {v w : Nat} (h : v < w) :
    v / 262144 < w / 262144 ∨ v / 262144 = w / 262144 ∧
      (v / 4096 % 64 < w / 4096 % 64 ∨ v / 4096 % 64 = w / 4096 % 64 ∧
        (v / 64 % 64 < w / 64 % 64 ∨ v / 64 % 64 = w / 64 % 64 ∧ v % 64 < w % 64)) := by
  omega

/-- The bytes of a smaller character come first, whatever follows either of them. -/
theorem utf8EncodeChar_lt {c d : Char} (h : c < d) (rest rest' : List UInt8) :
    String.utf8EncodeChar c ++ rest < String.utf8EncodeChar d ++ rest' := by
  have hlt : c.val.toNat < d.val.toNat := h
  have hmax : d.val.toNat < 1114112 := by
    rcases d.valid with h | ⟨-, h⟩
    · exact Nat.lt_trans h (by decide)
    · exact h
  have hdigits := digits_lt hlt
  unfold String.utf8EncodeChar
  generalize c.val.toNat = v at *
  generalize d.val.toNat = w at *
  -- by the number of bytes of each: the lead bytes differ, or the numbers are compared by digits
  dsimp only
  split_ifs
  all_goals
    simp only [List.cons_append, List.nil_append, List.cons_lt_cons_iff, UInt8.lt_iff_toNat_lt,
      ← UInt8.toNat_inj, UInt8.toNat_ofNat', Nat.reducePow]
    rcases hdigits with _ | ⟨_, _ | ⟨_, _ | _⟩⟩ <;> omega

theorem utf8EncodeChar_ne_nil (c : Char) : String.utf8EncodeChar c ≠ [] := by
  unfold String.utf8EncodeChar
  dsimp only
  split_ifs <;> simp

/-- Texts are ordered as their bytes are. -/
theorem flatMap_utf8EncodeChar_lt : ∀ {cs ds : List Char}, cs < ds →
    cs.flatMap String.utf8EncodeChar < ds.flatMap String.utf8EncodeChar
  | _, [], h => absurd h (List.not_lt_nil _)
  | [], d :: ds, _ => by
    obtain ⟨byte, bytes, hd⟩ := List.exists_cons_of_ne_nil (utf8EncodeChar_ne_nil d)
    rw [List.flatMap_nil, List.flatMap_cons, hd]
    exact List.nil_lt_cons _ _
  | c :: cs, d :: ds, h => by
    rw [List.flatMap_cons, List.flatMap_cons]
    rcases List.cons_lt_cons_iff.mp h with hlt | ⟨rfl, hlt⟩
    · exact utf8EncodeChar_lt hlt _ _
    · exact List.append_left_lt (flatMap_utf8EncodeChar_lt hlt)

end Text

namespace UnitId

/-- The bytes of an id. -/
def bytes (unit : UnitId) : List UInt8 := unit.text.toUTF8.data.toList

theorem bytes_eq_flatMap (unit : UnitId) :
    unit.bytes = unit.text.toList.flatMap String.utf8EncodeChar := by
  have hbytes : unit.text.toUTF8 = unit.text.toList.utf8Encode := by
    rw [← String.toByteArray_ofList, String.ofList_toList]
    rfl
  rw [bytes, hbytes, List.utf8Encode, List.toList_data_toByteArray]

theorem bytes_lt_of_compare {a b : UnitId} (h : compare a b = .lt) : a.bytes < b.bytes := by
  have hlt : a.text < b.text := compareOfLessAndEq_eq_lt.mp h
  rw [bytes_eq_flatMap, bytes_eq_flatMap]
  exact Text.flatMap_utf8EncodeChar_lt (String.lt_iff.mp hlt)

/-- Ids in ascending order are in ascending order of their bytes. -/
theorem compare_eq_lt_iff {a b : UnitId} : compare a b = .lt ↔ a.bytes < b.bytes := by
  refine ⟨bytes_lt_of_compare, fun h => ?_⟩
  cases hcompare : compare a b with
  | lt => rfl
  | eq =>
    rw [Std.LawfulEqCmp.compare_eq_iff_eq.mp hcompare] at h
    exact absurd h (List.lt_irrefl _)
  | gt =>
    have hgt := bytes_lt_of_compare (Std.OrientedCmp.lt_of_gt hcompare)
    exact absurd h (List.lt_asymm hgt)

end UnitId

end ActivationOrder
