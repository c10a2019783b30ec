import Mathlib.Data.List.TakeWhile
import ActivationOrder.Toml.Grammar
import ActivationOrder.Toml.Written

/-!
Written strings are read back. The two readers of double-quoted strings take escapes alike, so what
they share is stated once, in `Unescapes`, and a character comes back from both by one lemma. On
several lines the difficulty is the end: `closing?` takes the quotes before the last three for part
of the string, so the readers are followed by induction over a text that may end in quotes, and the
writer keeps three of them from standing in a row.
-/

namespace ActivationOrder.Toml

/-! ### Characters and escapes -/

/-- A character that needs no escape on one line may stand there as it is. -/
theorem isCommentChar_of_not_isForbidden {c : Char} (h : isForbidden c = false) (hc : c ≠ '\n') :
    isCommentChar c = true := by
  simp only [isForbidden, isCommentChar, isBeyondAscii, Bool.or_eq_false_iff, Bool.and_eq_false_iff,
    bne_eq_false_iff_eq, decide_eq_false_iff_not, beq_eq_false_iff_ne, Bool.or_eq_true,
    Bool.and_eq_true, beq_iff_eq, decide_eq_true_eq] at h ⊢
  obtain ⟨(h | rfl) | rfl, hdel⟩ := h
  · omega
  · simp
  · exact absurd rfl hc

theorem isLiteralChar_of_not_isForbidden {c : Char} (h : isForbidden c = false) (hc : c ≠ '\n')
    (hquote : c ≠ '\x27') : isLiteralChar c = true := by
  simp [isLiteralChar, isCommentChar_of_not_isForbidden h hc, hquote]

/-- The hexadecimal digits of a control character's escape. -/
theorem hexValues_control :
    ∀ n < 0x80, (Text.padZeros 4 ((Text.hexDigits n).map Char.toUpper)).map Text.hexValue? =
      [some 0, some 0, some (n / 16), some (n % 16)] := by
  decide +kernel

theorem charOfCode?_toNat (c : Char) : Text.charOfCode? c.toNat = some c := by
  have hvalid : c.toNat.isValidChar := c.valid
  rw [Text.charOfCode?, dif_pos hvalid]
  rfl

/-- How a reader of a double-quoted string takes what a writer may put there. -/
structure Unescapes (body : Mode → List Char → Option (List Char × List Char)) : Prop where
  plain : ∀ {c rest}, isBasicChar c = true →
    body .plain (c :: rest) = (body .plain rest).map (putBefore c)
  letter : ∀ {c d rest}, escapeValue? c = some d →
    body .plain ('\\' :: c :: rest) = (body .plain rest).map (putBefore d)
  unicode : ∀ {rest}, body .plain ('\\' :: 'u' :: rest) = body (.code 4 0) rest
  digit : ∀ {left value c digit rest}, Text.hexValue? c = some digit →
    body (.code (left + 2) value) (c :: rest) = body (.code (left + 1) (16 * value + digit)) rest
  lastDigit : ∀ {value c digit d rest}, Text.hexValue? c = some digit →
    Text.charOfCode? (16 * value + digit) = some d →
    body (.code 1 value) (c :: rest) = (body .plain rest).map (putBefore d)

theorem unescapes_basicBody : Unescapes basicBody where
  plain {c rest} h := by
    have hc : isBasicChar c = true := h
    simp only [isBasicChar, Bool.and_eq_true, bne_iff_ne] at h
    rw [basicBody, if_neg h.1.2, if_neg h.2, if_pos hc]
  letter {c d rest} h := by
    unfold escapeValue? at h
    split at h <;> cases h <;> rfl
  unicode := rfl
  digit h := by simp [basicBody, h]
  lastDigit h hd := by simp [basicBody, h, hd]

theorem unescapes_multilineBasicBody : Unescapes multilineBasicBody where
  plain {c rest} h := by
    have hc : isBasicChar c = true := h
    have hreturn : c ≠ '\r' := by rintro rfl; exact absurd h (by decide)
    simp only [isBasicChar, Bool.and_eq_true, bne_iff_ne] at h
    simp [multilineBasicBody, h.1.2, h.2, hreturn, hc]
  letter {c d rest} h := by
    unfold escapeValue? at h
    split at h <;> cases h <;> rfl
  unicode := rfl
  digit h := by simp [multilineBasicBody, h]
  lastDigit h hd := by simp [multilineBasicBody, h, hd]

variable {body : Mode → List Char → Option (List Char × List Char)}

namespace Unescapes

variable (hbody : Unescapes body)
include hbody

/-- The escaped code of a control character is read as this character. -/
theorem control {c : Char} (hc : c.toNat < 0x80) (rest : List Char) :
    body .plain
        ('\\' :: 'u' :: Text.padZeros 4 ((Text.hexDigits c.toNat).map Char.toUpper) ++ rest) =
      (body .plain rest).map (putBefore c) := by
  have hvalues := hexValues_control c.toNat hc
  generalize Text.padZeros 4 ((Text.hexDigits c.toNat).map Char.toUpper) = digits at hvalues ⊢
  simp only [List.map_eq_cons_iff, List.map_eq_nil_iff] at hvalues
  obtain ⟨d₁, _, rfl, h₁, d₂, _, rfl, h₂, d₃, _, rfl, h₃, d₄, _, rfl, h₄, rfl⟩ := hvalues
  have hcode : 16 * (16 * (16 * (16 * 0 + 0) + 0) + c.toNat / 16) + c.toNat % 16 = c.toNat := by
    omega
  simp only [List.cons_append, List.nil_append]
  rw [hbody.unicode, hbody.digit h₁, hbody.digit h₂, hbody.digit h₃,
    hbody.lastDigit h₄ (by rw [hcode]; exact charOfCode?_toNat c)]

/-- A character is read back from between double quotes, if it is no quote and no line feed that
stands as it is. -/
theorem escaped {multiline : Bool} {c : Char} (hquote : c ≠ '"')
    (hline : multiline = true → c ≠ '\n') (rest : List Char) :
    body .plain (escaped multiline c ++ rest) = (body .plain rest).map (putBefore c) := by
  unfold Toml.escaped
  split
  · exact hbody.letter rfl
  · exact hbody.letter rfl
  · rw [if_neg fun h => hline h rfl]
    exact hbody.letter rfl
  · exact hbody.letter rfl
  · exact hbody.letter rfl
  · exact hbody.letter rfl
  next htab hfeed _ _ hslash =>
    split
    · next hcontrol =>
      refine hbody.control ?_ rest
      simp [isForbidden] at hcontrol
      omega
    · next hplain =>
      have hcomment := isCommentChar_of_not_isForbidden (by simpa using hplain) hfeed
      have hslash : c ≠ '\\' := hslash
      exact hbody.plain (by simp [isBasicChar, hcomment, hquote, hslash])

end Unescapes

/-! ### One line -/

/-- What a basic string says is read back. -/
theorem basicBody_basicText (text rest : List Char) :
    basicBody .plain (basicText text ++ '"' :: rest) = some (text, rest) := by
  induction text with
  | nil => rfl
  | cons c text ih =>
    have hstep : basicBody .plain ((if c = '"' then ['\\', '"'] else escaped false c) ++
        (basicText text ++ '"' :: rest)) =
        (basicBody .plain (basicText text ++ '"' :: rest)).map (putBefore c) := by
      split
      · next hquote =>
        subst hquote
        exact unescapes_basicBody.letter rfl
      · next hquote => exact unescapes_basicBody.escaped hquote (by simp) _
    rw [basicText, List.flatMap_cons, ← basicText, List.append_assoc, hstep, ih]
    rfl

/-- What a literal string says is read back. -/
theorem literalBody_append {text : List Char} (hchars : ∀ c ∈ text, isLiteralChar c = true)
    (rest : List Char) : literalBody (text ++ '\x27' :: rest) = some (text, rest) := by
  induction text with
  | nil => rfl
  | cons c text ih =>
    obtain ⟨hc, htext⟩ := List.forall_mem_cons.mp hchars
    have hquote : c ≠ '\x27' := by rintro rfl; exact absurd hc (by decide)
    rw [List.cons_append, literalBody, if_neg hquote, if_pos hc, ih htext]
    rfl

/-! ### Several lines -/

/-- Three quotes end a string, and up to two quotes before them belong to it. -/
theorem closing?_append {quote : Char} (text : List Char) {rest : List Char}
    (hrun : (text.takeWhile (· == quote)).length ≤ 2) (hrest : rest.head? ≠ some quote) :
    closing? quote (text ++ quote :: quote :: quote :: rest) =
      if text.all (· == quote) then some (text, rest) else none := by
  have hafter : rest.takeWhile (· == quote) = [] := by
    cases rest with
    | nil => rfl
    | cons c rest => exact List.takeWhile_cons_of_neg (by simpa using hrest)
  split
  · -- the quotes of the text are joined to the three that end it
    next hall =>
    have hquotes : ∀ c ∈ text, (c == quote) = true := List.all_eq_true.mp hall
    rw [List.takeWhile_eq_self_iff.mpr hquotes] at hrun
    have htext : List.replicate text.length quote = text :=
      (List.eq_replicate_iff.mpr ⟨rfl, fun c hc => by simpa using hquotes c hc⟩).symm
    have hlength : ((text ++ quote :: quote :: quote :: rest).takeWhile (· == quote)).length =
        text.length + 3 := by
      rw [List.takeWhile_append_of_pos hquotes]
      simp [hafter]
    have hextra : min (text.length + 3 - 3) 2 = text.length := by omega
    have hdrop : (text ++ quote :: quote :: quote :: rest).drop (text.length + 3) = rest := by
      rw [List.drop_length_add_append]
      rfl
    rw [closing?, hlength, if_neg (by omega)]
    simp only [hextra, hdrop, htext]
  · -- another character stands before the end, after less than three quotes
    next hall =>
    have hlength : (text.takeWhile (· == quote)).length ≠ text.length := fun h =>
      hall (List.all_eq_true.mpr (List.takeWhile_eq_self_iff.mp
        ((List.takeWhile_prefix _).eq_of_length h)))
    rw [closing?, List.takeWhile_append, if_neg hlength, if_pos (by omega)]

theorem closing?_quotes {quote : Char} {rest : List Char} (hrest : rest.head? ≠ some quote) :
    closing? quote (quote :: quote :: quote :: rest) = some ([], rest) :=
  closing?_append [] (by simp) hrest

/-- A text without three quotes in a row has no more than two in front. -/
theorem length_takeWhile_quote {quote : Char} :
    ∀ {text : List Char}, hasTriple quote text = false →
      (text.takeWhile (· == quote)).length ≤ 2
  | [], _ => by simp
  | [_], _ => le_trans (List.takeWhile_prefix _).length_le (by simp)
  | [_, _], _ => (List.takeWhile_prefix _).length_le
  | a :: b :: c :: rest, h => by
    rw [hasTriple, Bool.or_eq_false_iff] at h
    simp only [List.takeWhile_cons]
    cases ha : a == quote <;> cases hb : b == quote <;> cases hc : c == quote <;> simp_all

theorem hasTriple_tail {quote c : Char} {text : List Char}
    (h : hasTriple quote (c :: text) = false) : hasTriple quote text = false := by
  match text with
  | [] => rfl
  | [_] => rfl
  | b :: d :: rest =>
    rw [hasTriple, Bool.or_eq_false_iff] at h
    exact h.2

/-- What a literal string on several lines says is read back. -/
theorem multilineLiteralBody_append {text rest : List Char}
    (hchars : ∀ c ∈ text, isForbidden c = false) (htriple : hasTriple '\x27' text = false)
    (hrest : rest.head? ≠ some '\x27') :
    multilineLiteralBody (text ++ '\x27' :: '\x27' :: '\x27' :: rest) = some (text, rest) := by
  induction text with
  | nil =>
    rw [List.nil_append, multilineLiteralBody, if_pos rfl]
    rw [closing?_quotes hrest]
  | cons c text ih =>
    obtain ⟨hc, htext⟩ := List.forall_mem_cons.mp hchars
    have ih := ih htext (hasTriple_tail htriple)
    have hclosed := closing?_append _ (length_takeWhile_quote htriple) hrest
    rw [List.cons_append] at hclosed ⊢
    rw [multilineLiteralBody, hclosed, ih]
    by_cases hquote : c = '\x27'
    · rw [if_pos hquote]
      by_cases hall : (c :: text).all (· == '\x27') = true
      · rw [if_pos hall]
      · rw [if_neg hall]
        rfl
    · have hreturn : c ≠ '\r' := by rintro rfl; exact absurd hc (by decide)
      have hplain : (c = '\n' || isLiteralChar c) = true := by
        by_cases hfeed : c = '\n'
        · simp [hfeed]
        · simp [isLiteralChar_of_not_isForbidden hc hfeed hquote]
      rw [if_neg hquote, if_neg hreturn, if_pos hplain]
      rfl

/-- What stands for a character starts with a backslash or is the character. -/
theorem escaped_eq_cons (multiline : Bool) (c : Char) :
    ∃ d more, escaped multiline c = d :: more ∧ (d = '\\' ∨ d = c) ∧ d ≠ '\r' := by
  unfold escaped
  split
  · exact ⟨_, _, rfl, .inl rfl, by decide⟩
  · exact ⟨_, _, rfl, .inl rfl, by decide⟩
  · split
    · exact ⟨_, _, rfl, .inr rfl, by decide⟩
    · exact ⟨_, _, rfl, .inl rfl, by decide⟩
  · exact ⟨_, _, rfl, .inl rfl, by decide⟩
  · exact ⟨_, _, rfl, .inl rfl, by decide⟩
  · exact ⟨_, _, rfl, .inl rfl, by decide⟩
  next hreturn _ =>
    split
    · exact ⟨_, _, rfl, .inl rfl, by decide⟩
    · exact ⟨_, _, rfl, .inr rfl, hreturn⟩

theorem head?_escaped (multiline : Bool) {c : Char} (h : c ≠ '"') :
    (escaped multiline c).head? ≠ some '"' := by
  obtain ⟨d, more, hescaped, rfl | rfl, -⟩ := escaped_eq_cons multiline c
  · simp [hescaped]
  · simpa [hescaped] using h

/-- No third quote in a row is written without a backslash. -/
theorem length_takeWhile_multilineBasicText {run : Nat} (hrun : run ≤ 2) (text : List Char) :
    ((multilineBasicText run text).takeWhile (· == '"')).length ≤ 2 - run := by
  induction text generalizing run with
  | nil => simp [multilineBasicText]
  | cons c text ih =>
    rw [multilineBasicText]
    split
    · split
      · simp
      · have ih := @ih (run + 1) (by omega)
        rw [List.takeWhile_cons_of_pos rfl, List.length_cons]
        omega
    · next hquote =>
      obtain ⟨d, more, hescaped, -⟩ := escaped_eq_cons true c
      have hd : d ≠ '"' := by simpa [hescaped] using head?_escaped true hquote
      rw [hescaped, List.cons_append, List.takeWhile_cons_of_neg (by simpa using hd)]
      simp

/-- Nothing but quotes is written only for these quotes. -/
theorem multilineBasicText_of_all (run : Nat) (text : List Char)
    (h : (multilineBasicText run text).all (· == '"') = true) :
    multilineBasicText run text = text := by
  induction text generalizing run with
  | nil => rfl
  | cons c text ih =>
    rw [multilineBasicText] at h ⊢
    split at h
    · next hquote =>
      split at h
      · simp at h
      · next hthird =>
        rw [if_pos hquote, if_neg hthird, ih _ (by simpa using h), hquote]
    · next hquote =>
      obtain ⟨d, more, hescaped, -⟩ := escaped_eq_cons true c
      have hd : d ≠ '"' := by simpa [hescaped] using head?_escaped true hquote
      rw [hescaped, List.cons_append, List.all_cons, Bool.and_eq_true, beq_iff_eq] at h
      exact absurd h.1 hd

/-- What a basic string on several lines says is read back. -/
theorem multilineBasicBody_multilineBasicText {run : Nat} (hrun : run ≤ 2) {text rest : List Char}
    (hrest : rest.head? ≠ some '"') :
    multilineBasicBody .plain (multilineBasicText run text ++ '"' :: '"' :: '"' :: rest) =
      some (text, rest) := by
  induction text generalizing run with
  | nil =>
    rw [multilineBasicText, List.nil_append, multilineBasicBody, if_pos rfl, closing?_quotes hrest]
  | cons c text ih =>
    have hwritten := length_takeWhile_multilineBasicText hrun (c :: text)
    have hall := multilineBasicText_of_all run (c :: text)
    have hclosed := closing?_append _ (le_trans hwritten (by omega)) hrest
    rw [multilineBasicText] at hall hclosed ⊢
    by_cases hquote : c = '"'
    · subst hquote
      by_cases hthird : run = 2
      · -- the third quote in a row has a backslash
        simp only [if_pos hthird, if_true, List.cons_append]
        rw [unescapes_multilineBasicBody.letter (d := '"') rfl, ih (by omega)]
        rfl
      · -- another quote ends the string only if nothing but quotes follows
        simp only [if_neg hthird, if_true, List.cons_append] at hall hclosed ⊢
        rw [multilineBasicBody, if_pos rfl, hclosed, ih (by omega)]
        by_cases hquotes : ('"' :: multilineBasicText (run + 1) text).all (· == '"') = true
        · rw [if_pos hquotes, hall hquotes]
        · rw [if_neg hquotes]
          rfl
    · rw [if_neg hquote, List.append_assoc]
      by_cases hfeed : c = '\n'
      · -- a line feed stands as it is
        subst hfeed
        have hstep (rest : List Char) : multilineBasicBody .plain (escaped true '\n' ++ rest) =
            (multilineBasicBody .plain rest).map (putBefore '\n') := rfl
        rw [hstep, ih (by omega)]
        rfl
      · rw [unescapes_multilineBasicBody.escaped hquote (fun _ => hfeed), ih (by omega)]
        rfl

/-! ### Strings in every style -/

/-- Whether a style has the means to write a text. -/
def Style.Holds (text : List Char) : Style → Prop
  | .basic => True
  | .literal => ∀ c ∈ text, isLiteralChar c = true
  | .multilineBasic => True
  | .multilineLiteral => (∀ c ∈ text, isForbidden c = false) ∧ hasTriple '\x27' text = false

/-- The style of a text has the means to write it. -/
theorem holds_styleOf (text : List Char) : (styleOf text).Holds text := by
  unfold styleOf
  simp only
  split
  · trivial
  split
  · -- neither controls nor line feeds nor single quotes
    next h =>
    simp only [Bool.and_eq_true, Bool.not_eq_true', List.any_eq_false, List.contains_eq_mem,
      decide_eq_false_iff_not] at h
    obtain ⟨⟨hcontrols, hquote⟩, hfeed⟩ := h
    intro c hc
    exact isLiteralChar_of_not_isForbidden (by simpa using hcontrols c hc)
      (fun heq => hfeed (heq ▸ hc)) fun heq => hquote (heq ▸ hc)
  split
  · trivial
  split
  · next h =>
    simp only [Bool.and_eq_true, Bool.not_eq_true', List.any_eq_false] at h
    exact ⟨fun c hc => by simpa using h.1 c hc, h.2⟩
  split <;> trivial

theorem string_quote {text : List Char} (h : ∀ rest, text ≠ '"' :: '"' :: rest) :
    string ('"' :: text) = basicBody .plain text := by
  unfold string
  split <;> simp_all [oneLineString]

theorem string_apostrophe {text : List Char} (h : ∀ rest, text ≠ '\x27' :: '\x27' :: rest) :
    string ('\x27' :: text) = literalBody text := by
  unfold string
  split <;> simp_all [oneLineString]

/-- The line end that starts a string on several lines is no part of it. -/
theorem dropLineEnd_start {text written : List Char}
    (h : '\n' ∉ text → written.head? ≠ some '\n' ∧ written.head? ≠ some '\r') :
    dropLineEnd ((if text.contains '\n' then ['\n'] else []) ++ written) = written := by
  by_cases hfeed : '\n' ∈ text
  · simp [hfeed, dropLineEnd]
  · obtain ⟨hn, hr⟩ := h hfeed
    rw [if_neg (by simpa using hfeed), List.nil_append]
    unfold dropLineEnd
    split <;> simp_all

theorem basicText_ne_quotes {text rest : List Char} (hrest : rest.head? ≠ some '"')
    (more : List Char) : basicText text ++ '"' :: rest ≠ '"' :: '"' :: more := by
  intro h
  cases text with
  | nil => simp_all [basicText]
  | cons c text =>
    rw [basicText, List.flatMap_cons, List.append_assoc] at h
    by_cases hquote : c = '"'
    · simp [hquote] at h
    · obtain ⟨d, more, hescaped, -⟩ := escaped_eq_cons false c
      have hd : d ≠ '"' := by simpa [hescaped] using head?_escaped false hquote
      simp [hquote, hescaped, hd] at h

theorem literal_ne_quotes {text rest : List Char} (htext : ∀ c ∈ text, isLiteralChar c = true)
    (hrest : rest.head? ≠ some '\x27') (more : List Char) :
    text ++ '\x27' :: rest ≠ '\x27' :: '\x27' :: more := by
  rintro h
  cases text with
  | nil => simp_all
  | cons c text =>
    obtain ⟨rfl, -⟩ := List.cons_eq_cons.mp h
    exact absurd (htext '\x27' List.mem_cons_self) (by decide)

theorem head?_multilineBasicText {text rest : List Char} (hfeed : '\n' ∉ text) :
    (multilineBasicText 0 text ++ '"' :: rest).head? ≠ some '\n' ∧
      (multilineBasicText 0 text ++ '"' :: rest).head? ≠ some '\r' := by
  cases text with
  | nil => simp [multilineBasicText]
  | cons c text =>
    rw [multilineBasicText]
    by_cases hquote : c = '"'
    · simp [hquote]
    · obtain ⟨d, more, hescaped, hd, hreturn⟩ := escaped_eq_cons true c
      have hline : d ≠ '\n' := by
        rintro rfl
        simp_all
      simp [hquote, hescaped, hline, hreturn]

theorem head?_multilineLiteral {text rest : List Char} (htext : ∀ c ∈ text, isForbidden c = false)
    (hfeed : '\n' ∉ text) :
    (text ++ '\x27' :: rest).head? ≠ some '\n' ∧ (text ++ '\x27' :: rest).head? ≠ some '\r' := by
  cases text with
  | nil => simp
  | cons c text =>
    have hreturn : c ≠ '\r' := by
      rintro rfl
      exact absurd (htext '\r' List.mem_cons_self) (by decide)
    have hline : c ≠ '\n' := by
      rintro rfl
      exact hfeed List.mem_cons_self
    simp [hline, hreturn]

/-- A string is read back in every style that has the means to write it. -/
theorem string_writtenAs {style : Style} {text : List Char} (h : style.Holds text)
    {rest : List Char} (hbasic : rest.head? ≠ some '"') (hliteral : rest.head? ≠ some '\x27') :
    string (writtenAs style text ++ rest) = some (text, rest) := by
  cases style <;> simp only [writtenAs, List.append_assoc, List.cons_append, List.nil_append]
  case basic => rw [string_quote (basicText_ne_quotes hbasic), basicBody_basicText]
  case literal => rw [string_apostrophe (literal_ne_quotes h hliteral), literalBody_append h]
  case multilineBasic =>
    rw [string, dropLineEnd_start head?_multilineBasicText,
      multilineBasicBody_multilineBasicText (by omega) hbasic]
  case multilineLiteral =>
    rw [string, dropLineEnd_start (head?_multilineLiteral h.1),
      multilineLiteralBody_append h.1 h.2 hliteral]

/-- A written string is read back, and the reader stops behind it. -/
theorem string_writtenString (text : List Char) {rest : List Char}
    (hbasic : rest.head? ≠ some '"') (hliteral : rest.head? ≠ some '\x27') :
    string (writtenString text ++ rest) = some (text, rest) :=
  string_writtenAs (holds_styleOf text) hbasic hliteral

/-! ### Keys -/

theorem writtenString_eq_cons (text : List Char) :
    ∃ c rest, writtenString text = c :: rest ∧ (c = '"' ∨ c = '\x27') := by
  rw [writtenString]
  cases styleOf text
  · exact ⟨_, _, rfl, .inl rfl⟩
  · exact ⟨_, _, rfl, .inr rfl⟩
  · exact ⟨_, _, rfl, .inl rfl⟩
  · exact ⟨_, _, rfl, .inr rfl⟩

/-- Whether a name can stand as a key without quotes. -/
def isBareName (name : List Char) : Bool := !name.isEmpty && name.all isBareChar

theorem isBareName_iff {name : List Char} :
    isBareName name = true ↔ name ≠ [] ∧ ∀ c ∈ name, isBareChar c = true := by
  simp [isBareName]

theorem isBareName_eq_cons {name : List Char} (h : isBareName name = true) :
    ∃ c chars, name = c :: chars ∧ isBareChar c = true := by
  obtain ⟨hne, hchars⟩ := isBareName_iff.mp h
  obtain ⟨c, chars, rfl⟩ := List.exists_cons_of_ne_nil hne
  exact ⟨c, chars, rfl, hchars c List.mem_cons_self⟩

theorem ne_of_isBareChar {c d : Char} (h : isBareChar c = true) (hd : isBareChar d = false) :
    c ≠ d := by
  rintro rfl
  rw [hd] at h
  cases h

/-- A bare key goes on to the first character that it cannot have. -/
theorem keyPart_bare {name rest : List Char} {c : Char} (hname : isBareName name = true)
    (hc : isBareChar c = false) : keyPart (name ++ c :: rest) = some (name, c :: rest) := by
  obtain ⟨hne, hchars⟩ := isBareName_iff.mp hname
  have htake : (name ++ c :: rest).takeWhile isBareChar = name := by
    rw [List.takeWhile_append_of_pos hchars, List.takeWhile_cons_of_neg (by simp [hc]),
      List.append_nil]
  have hdrop : (name ++ c :: rest).dropWhile isBareChar = c :: rest := by
    rw [List.dropWhile_append_of_pos hchars, List.dropWhile_cons_of_neg (by simp [hc])]
  have hquote {quote : Char} (hq : isBareChar quote = false) (more : List Char) :
      name ++ c :: rest ≠ quote :: more := by
    obtain ⟨d, chars, rfl, hd⟩ := isBareName_eq_cons hname
    exact fun heq => ne_of_isBareChar hd hq (List.cons_eq_cons.mp heq).1
  rw [keyPart]
  · simp only [htake, hdrop]
    rw [if_neg (by simpa using hne)]
  · exact hquote rfl
  · exact hquote rfl

theorem keyPart_basic (text rest : List Char) :
    keyPart (writtenAs .basic text ++ rest) = some (text, rest) := by
  simp only [writtenAs, List.append_assoc, List.cons_append, List.nil_append, keyPart,
    oneLineString, basicBody_basicText]

theorem keyPart_literal {text : List Char} (h : ∀ c ∈ text, isLiteralChar c = true)
    (rest : List Char) : keyPart (writtenAs .literal text ++ rest) = some (text, rest) := by
  simp only [writtenAs, List.append_assoc, List.cons_append, List.nil_append, keyPart,
    oneLineString, literalBody_append h]

/-- A written key is read back, and the reader stops at the bracket behind it. -/
theorem keyPart_writtenKey (text rest : List Char) :
    keyPart (writtenKey text ++ ']' :: rest) = some (text, ']' :: rest) := by
  unfold writtenKey
  simp only
  split
  · next h => exact keyPart_bare h rfl
  split
  · exact keyPart_basic text _
  split
  · -- neither controls nor line feeds nor single quotes
    next h =>
    simp only [Bool.and_eq_true, Bool.not_eq_true', List.any_eq_false, List.contains_eq_mem,
      decide_eq_false_iff_not, Bool.or_eq_true, beq_iff_eq, not_or] at h
    refine keyPart_literal (fun c hc => ?_) _
    obtain ⟨hplain, hfeed⟩ := h.1 c hc
    exact isLiteralChar_of_not_isForbidden (by simpa using hplain) hfeed fun heq => h.2 (heq ▸ hc)
  · exact keyPart_basic text _

end ActivationOrder.Toml
