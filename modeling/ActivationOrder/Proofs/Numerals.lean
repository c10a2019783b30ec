import Mathlib.Data.List.TakeWhile
import ActivationOrder.Toml.Grammar
import ActivationOrder.Unit.Metadata

/-!
Written integers are read back. A value that starts with a sign or a digit may be a moment, a float
or an integer, and is tried in this order; so besides the value of its digits, a numeral must show
that nothing follows its digits that would make it one of the other two.
-/

namespace ActivationOrder.Toml

/-- The decimal digits of a number, after a minus sign if it is negative. -/
def numeral (value : Int) : List Char :=
  (if value < 0 then ['-'] else []) ++ Nat.toDigits 10 value.natAbs

theorem toList_toString_int (value : Int) : (toString value).toList = numeral value := by
  rw [Int.toString_eq_repr, Int.repr_eq_if, numeral]
  by_cases h : 0 ≤ value
  · rw [if_pos h, if_neg (by omega), Nat.repr_eq_ofList_toDigits, String.toList_ofList,
      List.nil_append, show value.natAbs = value.toNat by omega]
  · rw [if_neg h, if_pos (by omega), String.toList_append, Nat.repr_eq_ofList_toDigits,
      String.toList_ofList, String.toList_ofList, show value.natAbs = (-value).toNat by omega]

/-! ### Digits -/

theorem isDigit_of_mem_toDigits {n : Nat} {c : Char} (h : c ∈ Nat.toDigits 10 n) :
    isDigit c = true := Nat.isDigit_of_mem_toDigits (by omega) (by omega) h

theorem ne_of_isDigit {c d : Char} (h : isDigit c = true) (hd : isDigit d = false) : c ≠ d := by
  rintro rfl
  rw [hd] at h
  cases h

theorem hexValue?_of_isDigit {c : Char} (h : isDigit c = true) :
    Text.hexValue? c = some (c.toNat - '0'.toNat) := by
  simp only [isDigit, Bool.and_eq_true, decide_eq_true_eq] at h
  rw [Text.hexValue?, if_pos h]

/-- The digits of a number have its value. -/
theorem valueOf_toDigits (n : Nat) : valueOf 10 (Nat.toDigits 10 n) = n := by
  have hfold : ∀ (ds : List Char) (start : Nat), (∀ c ∈ ds, isDigit c = true) →
      ds.foldl (fun value c => value * 10 + (Text.hexValue? c).getD 0) start =
        Nat.ofDigitChars 10 ds start := by
    intro ds
    induction ds with
    | nil => intro start _; rfl
    | cons c ds ih =>
      intro start h
      obtain ⟨hc, hds⟩ := List.forall_mem_cons.mp h
      rw [List.foldl_cons, ih _ hds, hexValue?_of_isDigit hc, Nat.ofDigitChars_eq_foldl,
        Nat.ofDigitChars_eq_foldl, List.foldl_cons, Nat.mul_comm]
      rfl
  rw [valueOf, hfold _ _ fun c => isDigit_of_mem_toDigits,
    Nat.ofDigitChars_toDigits (by omega) (by omega)]

/-- Only zero starts with a zero. -/
theorem toDigits_eq_zero_or (n : Nat) :
    Nat.toDigits 10 n = ['0'] ∨ ∃ c ds, Nat.toDigits 10 n = c :: ds ∧ c ≠ '0' := by
  induction n using Nat.strongRecOn with
  | ind n ih =>
    by_cases hn : n < 10
    · rw [Nat.toDigits_of_lt_base hn]
      by_cases hzero : n = 0
      · exact .inl (by rw [hzero]; rfl)
      · exact .inr ⟨_, _, rfl, (by decide : ∀ n < 10, n ≠ 0 → n.digitChar ≠ '0') n hn hzero⟩
    · rw [Nat.toDigits_of_base_le (by omega) (by omega)]
      rcases ih (n / 10) (by omega) with h | ⟨c, ds, h, hc⟩
      · have hvalue := valueOf_toDigits (n / 10)
        rw [h] at hvalue
        have : valueOf 10 ['0'] = 0 := by decide
        omega
      · exact .inr ⟨c, ds ++ [(n % 10).digitChar], by rw [h, List.cons_append], hc⟩

theorem moreDigits_append {ds : List Char} (hds : ∀ c ∈ ds, isDigit c = true) (rest : List Char) :
    moreDigits isDigit (ds ++ '\n' :: rest) = (ds, '\n' :: rest) := by
  induction ds with
  | nil => rfl
  | cons c ds ih =>
    obtain ⟨hc, hds⟩ := List.forall_mem_cons.mp hds
    rw [List.cons_append, moreDigits, if_pos hc, ih hds]

theorem decimalDigits_toDigits (n : Nat) (rest : List Char) :
    decimalDigits (Nat.toDigits 10 n ++ '\n' :: rest) =
      some (Nat.toDigits 10 n, '\n' :: rest) := by
  have hall : ∀ c ∈ Nat.toDigits 10 n, isDigit c = true := fun c => isDigit_of_mem_toDigits
  rcases toDigits_eq_zero_or n with h | ⟨c, ds, h, hc⟩
  · rw [h]
    rfl
  · rw [h] at hall ⊢
    obtain ⟨hdigit, hds⟩ := List.forall_mem_cons.mp hall
    rw [List.cons_append, decimalDigits]
    · rw [digits, if_pos hdigit, moreDigits_append hds]
    · simp [hc]

/-! ### A numeral is nothing but an integer -/

theorem toDigits_eq_cons (n : Nat) :
    ∃ c ds, Nat.toDigits 10 n = c :: ds ∧ isDigit c = true ∧ ∀ d ∈ ds, isDigit d = true := by
  obtain ⟨c, ds, h⟩ := List.exists_cons_of_ne_nil (Nat.toDigits_ne_nil (n := n) (b := 10))
  have hall : ∀ d ∈ c :: ds, isDigit d = true := fun d hd => isDigit_of_mem_toDigits (h ▸ hd)
  exact ⟨c, ds, h, List.forall_mem_cons.mp hall⟩

theorem numeral_eq_cons (value : Int) :
    ∃ c ds, numeral value = c :: ds ∧ (c = '-' ∨ isDigit c = true) ∧
      ∀ d ∈ ds, isDigit d = true := by
  obtain ⟨c, ds, h, hc, hds⟩ := toDigits_eq_cons value.natAbs
  rw [numeral, h]
  split
  · exact ⟨_, _, rfl, .inl rfl, List.forall_mem_cons.mpr ⟨hc, hds⟩⟩
  · exact ⟨_, _, rfl, .inr hc, hds⟩

theorem sign_numeral (value : Int) (rest : List Char) :
    sign (numeral value ++ rest) = (decide (value < 0), Nat.toDigits 10 value.natAbs ++ rest) := by
  obtain ⟨c, ds, h, hc, -⟩ := toDigits_eq_cons value.natAbs
  rw [numeral]
  split
  · next hneg => simp [sign, hneg]
  · next hpos =>
    have hne {d : Char} (hd : isDigit d = false) (more : List Char) :
        c :: (ds ++ rest) ≠ d :: more := fun heq =>
      ne_of_isDigit hc hd (List.cons_eq_cons.mp heq).1
    rw [List.nil_append, h, List.cons_append, sign, decide_eq_false hpos]
    · exact hne rfl
    · exact hne rfl

/-- The digits that are taken for a field of a moment are followed by another digit or by the end
of the line. -/
theorem drop?_fixedDigits {count : Nat} (hcount : 0 < count) {value : Int} {rest left : List Char}
    {field : Nat} (h : fixedDigits count (numeral value ++ '\n' :: rest) = some (field, left))
    {mark : Char} (hmark : isDigit mark = false) (hline : mark ≠ '\n') :
    drop? mark left = none := by
  obtain ⟨c, ds, hnumeral, -, hds⟩ := numeral_eq_cons value
  rw [fixedDigits] at h
  split at h
  · next htaken =>
    obtain ⟨-, rfl⟩ := Prod.mk.inj (Option.some.inj h)
    have hle : count ≤ (numeral value).length := by
      by_contra hgt
      obtain ⟨more, hmore⟩ : ∃ more, count - (numeral value).length = more + 1 :=
        Nat.exists_eq_add_one.mpr (by omega)
      rw [List.take_append, hmore, List.take_succ_cons] at htaken
      have hfeed := List.all_eq_true.mp htaken.2 '\n' (by simp)
      exact absurd hfeed (by decide)
    obtain ⟨k, rfl⟩ := Nat.exists_eq_add_one.mpr hcount
    rw [List.drop_append_of_le_length hle, hnumeral, List.drop_succ_cons]
    cases hdrop : ds.drop k with
    | nil => simp [drop?, hline.symm]
    | cons d more =>
      have hd : isDigit d = true := hds d (List.mem_of_mem_drop (hdrop ▸ List.mem_cons_self))
      simp [drop?, ne_of_isDigit hd hmark]
  · cases h

theorem moment_numeral (value : Int) (rest : List Char) :
    moment (numeral value ++ '\n' :: rest) = none := by
  have hdate : date (numeral value ++ '\n' :: rest) = none := by
    rw [date]
    cases h : fixedDigits 4 (numeral value ++ '\n' :: rest) with
    | none => rfl
    | some taken =>
      simp only [Option.bind_eq_bind, Option.bind_some]
      rw [drop?_fixedDigits (by omega) h (by decide) (by decide)]
      rfl
  have htime : time (numeral value ++ '\n' :: rest) = none := by
    rw [time, twoDigits]
    cases h : fixedDigits 2 (numeral value ++ '\n' :: rest) with
    | none => rfl
    | some taken =>
      simp only [Option.bind_eq_bind, Option.bind_some]
      split
      · simp only [Option.pure_def, Option.bind_some]
        rw [drop?_fixedDigits (by omega) h (by decide) (by decide)]
        rfl
      · rfl
  rw [moment, hdate, htime]
  rfl

theorem float_numeral (value : Int) (rest : List Char) :
    float (numeral value ++ '\n' :: rest) = none := by
  have hfinite : finiteFloat (numeral value ++ '\n' :: rest) = none := by
    rw [finiteFloat, sign_numeral]
    simp only [decimalDigits_toDigits, Option.bind_eq_bind, Option.bind_some]
    rfl
  have hspecial : specialFloat (numeral value ++ '\n' :: rest) = none := by
    obtain ⟨c, ds, h, hc, -⟩ := toDigits_eq_cons value.natAbs
    have hi : c ≠ 'i' := ne_of_isDigit hc rfl
    have hn : c ≠ 'n' := ne_of_isDigit hc rfl
    rw [specialFloat, sign_numeral, h]
    simp [hi, hn]
  rw [float, hfinite, hspecial]
  rfl

theorem integer_numeral {value : Int} (hfits : fitting value = some (.integer value))
    (rest : List Char) :
    integer (numeral value ++ '\n' :: rest) = some (.integer value, '\n' :: rest) := by
  have hsize : (if value < 0 then -((value.natAbs : Int)) else value.natAbs) = value := by
    split <;> omega
  have hbase {base : Char} (hb : isDigit base = false) (hline : base ≠ '\n') (more : List Char) :
      numeral value ++ '\n' :: rest ≠ '0' :: base :: more := by
    obtain ⟨c, ds, h, -, hds⟩ := numeral_eq_cons value
    rw [h]
    cases ds with
    | nil => simp [hline.symm]
    | cons d ds => simp [ne_of_isDigit (hds d List.mem_cons_self) hb]
  rw [integer, sign_numeral]
  · simp only [decimalDigits_toDigits, Option.bind_eq_bind, Option.bind_some, valueOf_toDigits,
      decide_eq_true_eq, hsize, hfits]
    rfl
  · exact hbase rfl (by decide)
  · exact hbase rfl (by decide)
  · exact hbase rfl (by decide)

/-- A numeral that fits is read back, up to the end of its line. -/
theorem scalar_numeral {value : Int} (hfits : fitting value = some (.integer value))
    (rest : List Char) :
    scalar (numeral value ++ '\n' :: rest) = some (.integer value, '\n' :: rest) := by
  have hread : (moment (numeral value ++ '\n' :: rest) <|> float (numeral value ++ '\n' :: rest) <|>
      integer (numeral value ++ '\n' :: rest)) = some (.integer value, '\n' :: rest) := by
    rw [moment_numeral, float_numeral, integer_numeral hfits]
    rfl
  obtain ⟨c, ds, h, hc, -⟩ := numeral_eq_cons value
  have hne {d : Char} (hd : isDigit d = false) (hminus : d ≠ '-') : c ≠ d := by
    rcases hc with rfl | hc
    · exact hminus.symm
    · exact ne_of_isDigit hc hd
  have hnumber : (c = '+' || c = '-' || isDigit c) = true := by
    rcases hc with rfl | hc <;> simp_all
  rw [h, List.cons_append] at hread ⊢
  rw [scalar]
  · rw [if_neg (by simp [hne (d := '"') rfl (by decide), hne (d := '\x27') rfl (by decide)]),
      if_pos hnumber, hread]
  · exact fun heq => hne rfl (by decide) heq
  · exact fun heq => hne rfl (by decide) heq

end ActivationOrder.Toml
