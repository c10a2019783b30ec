import ActivationOrder.Proofs.Numerals
import ActivationOrder.Proofs.Strings
import ActivationOrder.Schema.IndexDocument

/-!
Written lines are read back as statements. `Reads text said` is what the reader makes of the end of
a document, for every bound that is enough for its length; so a document is put together from its
last line to its first, each line by one lemma, and no lemma knows what stands before its line.
-/

namespace ActivationOrder.Toml

theorem skipBlanks_cons {c : Char} (h : isBlank c = false) (rest : List Char) :
    skipBlanks (c :: rest) = c :: rest :=
  List.dropWhile_cons_of_neg (by simp [h])

/-! ### Values -/

theorem scalar_writtenString (text : List Char) {rest : List Char}
    (hbasic : rest.head? ≠ some '"') (hliteral : rest.head? ≠ some '\x27') :
    scalar (writtenString text ++ rest) = some (.string (String.ofList text), rest) := by
  have hread := string_writtenString text hbasic hliteral
  obtain ⟨c, more, h, hc⟩ := writtenString_eq_cons text
  rw [h, List.cons_append] at hread ⊢
  rcases hc with rfl | rfl <;> simp [scalar, hread]

theorem value_writtenString (depth : Nat) (text : List Char) {rest : List Char}
    (hbasic : rest.head? ≠ some '"') (hliteral : rest.head? ≠ some '\x27') :
    value depth (writtenString text ++ rest) = some (.string (String.ofList text), rest) := by
  have hread := scalar_writtenString text hbasic hliteral
  cases depth with
  | zero => exact hread
  | succ depth =>
    obtain ⟨c, more, h, hc⟩ := writtenString_eq_cons text
    rw [h, List.cons_append] at hread ⊢
    rcases hc with rfl | rfl <;> simpa [value] using hread

theorem value_numeral (depth : Nat) {number : Int} (hfits : fitting number = some (.integer number))
    (rest : List Char) :
    value depth (numeral number ++ '\n' :: rest) = some (.integer number, '\n' :: rest) := by
  have hread := scalar_numeral hfits rest
  cases depth with
  | zero => exact hread
  | succ depth =>
    obtain ⟨c, more, h, hc, -⟩ := numeral_eq_cons number
    have hbracket : c ≠ '[' := by rintro rfl; rcases hc with hc | hc <;> cases hc
    have hbrace : c ≠ '\x7b' := by rintro rfl; rcases hc with hc | hc <;> cases hc
    rw [h, List.cons_append] at hread ⊢
    rw [value]
    · exact hread
    · exact fun _ heq => hbracket (List.cons_eq_cons.mp heq).1
    · exact fun _ heq => hbrace (List.cons_eq_cons.mp heq).1

@[simp] theorem skipBlanks_numeral (number : Int) (rest : List Char) :
    skipBlanks (numeral number ++ rest) = numeral number ++ rest := by
  obtain ⟨c, more, h, hc, -⟩ := numeral_eq_cons number
  have hblank : isBlank c = false := by
    rcases hc with rfl | hc
    · rfl
    · simp [isBlank, ne_of_isDigit (d := ' ') hc rfl, ne_of_isDigit (d := '\t') hc rfl]
  rw [h, List.cons_append, skipBlanks_cons hblank]

@[simp] theorem skipBlanks_writtenString (text rest : List Char) :
    skipBlanks (writtenString text ++ rest) = writtenString text ++ rest := by
  obtain ⟨c, more, h, hc⟩ := writtenString_eq_cons text
  rw [h, List.cons_append]
  rcases hc with rfl | rfl <;> rfl

@[simp] theorem skipFiller_writtenString (text rest : List Char) :
    skipFiller false (writtenString text ++ rest) = writtenString text ++ rest := by
  obtain ⟨c, more, h, hc⟩ := writtenString_eq_cons text
  rw [h, List.cons_append]
  rcases hc with rfl | rfl <;> rfl

/-- The last string of an array, before the bracket. -/
theorem elements_last (depth bound : Nat) {text before rest : List Char}
    (hbefore : skipFiller false before = writtenString text ++ ']' :: rest) :
    elements (value depth) (bound + 1) before = some ([.string (String.ofList text)], rest) := by
  have hread := @value_writtenString depth text (']' :: rest) (by simp) (by simp)
  have hafter : skipFiller false (']' :: rest) = ']' :: rest := rfl
  obtain ⟨c, more, h, hc⟩ := writtenString_eq_cons text
  rw [h, List.cons_append] at hbefore hread
  rw [elements, hbefore]
  rcases hc with rfl | rfl <;> simp [hread, hafter]

/-- A string of an array, before a comma. -/
theorem elements_comma {depth bound : Nat} {text before rest left : List Char}
    {values : List Value} (hbefore : skipFiller false before = writtenString text ++ ',' :: rest)
    (hrest : elements (value depth) bound rest = some (values, left)) :
    elements (value depth) (bound + 1) before =
      some (.string (String.ofList text) :: values, left) := by
  have hread := @value_writtenString depth text (',' :: rest) (by simp) (by simp)
  have hafter : skipFiller false (',' :: rest) = ',' :: rest := rfl
  obtain ⟨c, more, h, hc⟩ := writtenString_eq_cons text
  rw [h, List.cons_append] at hbefore hread
  rw [elements, hbefore]
  rcases hc with rfl | rfl <;> simp [hread, hafter, hrest]

/-- The lines of an array on several lines, from the end of any of them. -/
theorem elements_writtenItems (depth : Nat) (items : List (List Char)) (rest : List Char)
    {bound : Nat} (hbound : items.length < bound) :
    elements (value depth) bound ('\n' :: items.flatMap writtenItem ++ ']' :: rest) =
      some (items.map fun item => .string (String.ofList item), rest) := by
  induction items generalizing bound with
  | nil =>
    obtain ⟨bound, rfl⟩ := Nat.exists_eq_add_one.mpr hbound
    simp [elements, skipFiller]
    rfl
  | cons item items ih =>
    obtain ⟨bound, rfl⟩ := Nat.exists_eq_add_one_of_ne_zero (Nat.ne_zero_of_lt hbound)
    have ih := @ih bound (by simpa using hbound)
    refine elements_comma ?_ ih
    have hline : '\n' :: (item :: items).flatMap writtenItem ++ ']' :: rest =
        '\n' :: ' ' :: ' ' :: ' ' :: ' ' ::
          (writtenString item ++ ',' :: ('\n' :: items.flatMap writtenItem ++ ']' :: rest)) := by
      simp [writtenItem]
    rw [hline]
    exact skipFiller_writtenString item _

theorem length_le_length_writtenItems (items : List (List Char)) :
    items.length ≤ (items.flatMap writtenItem).length := by
  induction items with
  | nil => rfl
  | cons item items ih =>
    have hitem : 0 < (writtenItem item).length := Nat.succ_pos _
    rw [List.flatMap_cons, List.length_append, List.length_cons]
    omega

/-- An array of strings is read back. -/
theorem value_writtenArray (depth : Nat) (items : List (List Char)) (rest : List Char) :
    value (depth + 1) (writtenArray items ++ rest) =
      some (.array (items.map fun item => .string (String.ofList item)), rest) := by
  unfold writtenArray
  split
  · next item =>
    have helements (bound : Nat) :=
      elements_last depth bound (skipFiller_writtenString item (']' :: rest))
    simp only [List.cons_append, List.append_assoc, List.nil_append, value, helements]
    rfl
  · have hlength := length_le_length_writtenItems items
    have helements := elements_writtenItems depth items rest
      (show items.length < ('\n' :: items.flatMap writtenItem ++ ']' :: rest).length + 1 by
        simp only [List.length_append, List.length_cons]
        omega)
    simp only [List.cons_append, List.append_assoc, List.nil_append, value] at helements ⊢
    rw [helements]
    rfl

@[simp] theorem skipBlanks_writtenArray (items : List (List Char)) (rest : List Char) :
    skipBlanks (writtenArray items ++ rest) = writtenArray items ++ rest := by
  unfold writtenArray
  split <;> rfl

/-! ### Keys -/

/-- The last part of a key. -/
theorem keyParts_last {bound : Nat} {text part rest left : List Char}
    (hpart : keyPart (skipBlanks text) = some (part, rest)) (hrest : skipBlanks rest = left)
    (hleft : left.head? ≠ some '.') :
    keyParts (bound + 1) text = some ([String.ofList part], left) := by
  rw [keyParts, hpart]
  simp only [Option.bind_eq_bind, Option.bind_some, hrest]
  split
  · simp_all
  · rfl

/-- A part of a key before a dot. -/
theorem keyParts_dot {bound : Nat} {text part rest left : List Char} {parts : List String}
    (hpart : keyPart (skipBlanks text) = some (part, '.' :: rest))
    (hparts : keyParts bound rest = some (parts, left)) :
    keyParts (bound + 1) text = some (String.ofList part :: parts, left) := by
  rw [keyParts, hpart]
  have hdot : skipBlanks ('.' :: rest) = '.' :: rest := rfl
  simp only [Option.bind_eq_bind, Option.bind_some, hdot, hparts]
  rfl

theorem key_of_keyParts {text left : List Char} {parts : List String}
    (hparts : keyParts (text.length + 1) text = some (parts, left))
    (hlength : parts.length ≤ keyLimit) : key text = some (parts, left) := by
  rw [key, hparts]
  simp only [Option.bind_eq_bind, Option.bind_some, if_pos hlength]
  rfl

theorem isBlank_of_isBareChar {c : Char} (h : isBareChar c = true) : isBlank c = false := by
  by_contra hblank
  simp only [isBlank, Bool.or_eq_false_iff, beq_eq_false_iff_ne, not_and_or, not_not] at hblank
  rcases hblank with rfl | rfl <;> cases h

theorem skipBlanks_bare {name : List Char} (hname : isBareName name = true) (rest : List Char) :
    skipBlanks (name ++ rest) = name ++ rest := by
  obtain ⟨c, chars, rfl, hc⟩ := isBareName_eq_cons hname
  exact skipBlanks_cons (isBlank_of_isBareChar hc) _

@[simp] theorem skipBlanks_writtenKey (text rest : List Char) :
    skipBlanks (writtenKey text ++ rest) = writtenKey text ++ rest := by
  unfold writtenKey
  simp only
  split
  · next h => exact skipBlanks_bare h rest
  split
  · rfl
  split <;> rfl

/-- A key of one bare part. -/
theorem key_bare {name rest left : List Char} {c : Char} (hname : isBareName name = true)
    (hc : isBareChar c = false) (hleft : skipBlanks (c :: rest) = left)
    (hdot : left.head? ≠ some '.') :
    key (name ++ c :: rest) = some ([String.ofList name], left) := by
  have hpart : keyPart (skipBlanks (name ++ c :: rest)) = some (name, c :: rest) := by
    rw [skipBlanks_bare hname, keyPart_bare hname hc]
  exact key_of_keyParts (keyParts_last hpart hleft hdot) (Nat.le_add_left 1 78)

/-- The key of a unit's table. -/
theorem key_units (text rest : List Char) :
    key ("units".toList ++ '.' :: (writtenKey text ++ ']' :: rest)) =
      some (["units", String.ofList text], ']' :: rest) := by
  have hname : isBareName "units".toList = true := by decide
  have hunits : keyPart (skipBlanks ("units".toList ++ '.' :: (writtenKey text ++ ']' :: rest))) =
      some ("units".toList, '.' :: (writtenKey text ++ ']' :: rest)) := by
    rw [skipBlanks_bare hname, keyPart_bare hname rfl]
  have hunit : keyPart (skipBlanks (writtenKey text ++ ']' :: rest)) =
      some (text, ']' :: rest) := by
    rw [skipBlanks_writtenKey, keyPart_writtenKey]
  exact key_of_keyParts (keyParts_dot hunits (keyParts_last hunit rfl (by simp)))
    (Nat.le_add_left 2 77)

/-! ### Statements -/

/-- Whether the end of a document says these statements. -/
def Reads (text : List Char) (said : List Statement) : Prop :=
  ∀ bound, text.length < bound → statements bound text = some said

theorem reads_nil : Reads [] [] := by
  intro bound hbound
  obtain ⟨bound, rfl⟩ := Nat.exists_eq_add_one.mpr hbound
  rfl

theorem reads_blankLine {rest : List Char} {said : List Statement} (hrest : Reads rest said) :
    Reads ('\n' :: rest) said := by
  intro bound hbound
  obtain ⟨bound, rfl⟩ := Nat.exists_eq_add_one_of_ne_zero (Nat.ne_zero_of_lt hbound)
  exact hrest bound (by simpa using hbound)

/-- One more line in front of the lines that are read. -/
theorem reads_line {c : Char} {line rest : List Char} {first : Statement} {said : List Statement}
    (hc : isBlank c = false) (hstart : c ∉ ['\n', '\r', '#'])
    (hfirst : statement (c :: line) = some (first, '\n' :: rest))
    (hlength : rest.length ≤ line.length) (hrest : Reads rest said) :
    Reads (c :: line) (first :: said) := by
  intro bound hbound
  obtain ⟨bound, rfl⟩ := Nat.exists_eq_add_one_of_ne_zero (Nat.ne_zero_of_lt hbound)
  have hmore : statements bound rest = some said := hrest bound (by simp at hbound; omega)
  have hend : endLine? ('\n' :: rest) = some rest := rfl
  rw [statements, skipBlanks_cons hc]
  split
  · simp_all
  · simp_all
  · simp_all
  · simp_all
  · rw [hfirst]
    simp only [Option.bind_eq_bind, Option.bind_some, hend, hmore]
    rfl

variable {name : String} (hname : isBareName name.toList = true)
include hname

/-- The line of a field. -/
theorem reads_writtenField {written rest : List Char} {v : Value} {said : List Statement}
    (hblank : skipBlanks (written ++ '\n' :: rest) = written ++ '\n' :: rest)
    (hvalue : value depthLimit (written ++ '\n' :: rest) = some (v, '\n' :: rest))
    (hrest : Reads rest said) :
    Reads (writtenField name written ++ rest) (.pair [name] v :: said) := by
  have hline : writtenField name written ++ rest =
      name.toList ++ ' ' :: '=' :: ' ' :: (written ++ '\n' :: rest) := by simp [writtenField]
  have hequals : skipBlanks (' ' :: '=' :: ' ' :: (written ++ '\n' :: rest)) =
      '=' :: ' ' :: (written ++ '\n' :: rest) := rfl
  have hskip : skipBlanks (' ' :: (written ++ '\n' :: rest)) = written ++ '\n' :: rest := hblank
  have hpair : pair (value depthLimit)
      (name.toList ++ ' ' :: '=' :: ' ' :: (written ++ '\n' :: rest)) =
        some (([name], v), '\n' :: rest) := by
    rw [pair, key_bare hname rfl hequals (by simp), String.ofList_toList]
    simp only [Option.bind_eq_bind, Option.bind_some, drop?, if_true, hskip, hvalue]
    rfl
  rw [hline]
  obtain ⟨c, chars, h, hc⟩ := isBareName_eq_cons hname
  rw [h, List.cons_append] at hpair ⊢
  refine reads_line (isBlank_of_isBareChar hc) ?_ ?_ ?_ hrest
  · simp [ne_of_isBareChar (d := '\n') hc rfl, ne_of_isBareChar (d := '\r') hc rfl,
      ne_of_isBareChar (d := '#') hc rfl]
  · rw [statement, hpair]
    · rfl
    · exact fun more heq => ne_of_isBareChar (d := '[') hc rfl (List.cons_eq_cons.mp heq).1
  · simp
    omega

theorem reads_string (text : List Char) {rest : List Char} {said : List Statement}
    (hrest : Reads rest said) :
    Reads (writtenField name (writtenString text) ++ rest)
      (.pair [name] (.string (String.ofList text)) :: said) :=
  reads_writtenField hname (skipBlanks_writtenString _ _)
    (value_writtenString _ _ (by simp) (by simp)) hrest

theorem reads_integer {number : Int} (hfits : fitting number = some (.integer number))
    {rest : List Char} {said : List Statement} (hrest : Reads rest said) :
    Reads (writtenField name (numeral number) ++ rest) (.pair [name] (.integer number) :: said) :=
  reads_writtenField hname (skipBlanks_numeral _ _) (value_numeral _ hfits _) hrest

theorem reads_array (items : List (List Char)) {rest : List Char} {said : List Statement}
    (hrest : Reads rest said) :
    Reads (writtenField name (writtenArray items) ++ rest)
      (.pair [name] (.array (items.map fun item => .string (String.ofList item))) :: said) :=
  reads_writtenField hname (skipBlanks_writtenArray _ _) (value_writtenArray 78 _ _) hrest

omit hname

/-- The line of a heading. -/
theorem reads_heading {c : Char} {line rest : List Char} {path : List String}
    {said : List Statement} (hopen : c ≠ '[')
    (hkey : key (c :: line) = some (path, ']' :: '\n' :: rest))
    (hlength : rest.length ≤ line.length) (hrest : Reads rest said) :
    Reads ('[' :: c :: line) (.table path :: said) := by
  refine reads_line rfl (by decide) ?_ (le_trans hlength (Nat.le_succ _)) hrest
  rw [statement, heading, hkey]
  · rfl
  · exact fun more h => hopen (List.cons_eq_cons.mp h).1

/-- The heading of a unit's table. -/
theorem reads_unitHeading (text : List Char) {rest : List Char} {said : List Statement}
    (hrest : Reads rest said) :
    Reads ("[units.".toList ++ writtenKey text ++ ']' :: '\n' :: rest)
      (.table ["units", String.ofList text] :: said) := by
  have hline : "[units.".toList ++ writtenKey text ++ ']' :: '\n' :: rest =
      '[' :: 'u' :: ("nits.".toList ++ (writtenKey text ++ ']' :: '\n' :: rest)) := by simp
  rw [hline]
  refine reads_heading (by decide) (key_units text _) ?_ hrest
  simp
  omega

/-- The heading that stands for no units. -/
theorem reads_unitsHeading {rest : List Char} {said : List Statement} (hrest : Reads rest said) :
    Reads ("[units]\n".toList ++ rest) (.table ["units"] :: said) := by
  have hkey : key ("units".toList ++ ']' :: '\n' :: rest) = some (["units"], ']' :: '\n' :: rest) :=
    key_bare (by decide) rfl rfl (by simp)
  refine reads_heading (by decide) hkey ?_ hrest
  simp
  omega

end ActivationOrder.Toml
