import Mathlib
import ActivationOrder.CommandLine.Commands
import ActivationOrder.Proofs.Reading

/-!
Lists of units as texts. A text is a list when it can be cut into lines that each hold an id with
blanks around it, nothing but blanks, or a comment, and that end with a feed or with a return and a
feed. The reader accepts just these texts, and stops at the first line that holds an id with a
control character in it. A return is a blank and a control character at once, as NEL is: around an
id they belong to its margins, and inside of it they are a fault. So the trimmed line decides, and a
return before a feed need not be told from a margin. What a sort prints is a list of its order.
-/

namespace ActivationOrder

namespace Text

variable {line before body after : List Char}

/-! ### Margins -/

/-- Nothing but blanks. -/
def Blank (text : List Char) : Prop := ∀ c ∈ text, isBlank c = true

instance (text : List Char) : Decidable (Blank text) :=
  decidable_of_iff (text.all isBlank = true) List.all_eq_true

/-- A text that neither starts nor ends with a blank. -/
structure Tight (text : List Char) : Prop where
  head : ∀ c ∈ text.head?, isBlank c = false
  last : ∀ c ∈ text.getLast?, isBlank c = false

instance (text : List Char) : Decidable (Tight text) :=
  decidable_of_iff
    (text.head?.all (isBlank · == false) = true ∧ text.getLast?.all (isBlank · == false) = true)
    ⟨fun h => ⟨by simpa [Option.all_eq_true] using h.1, by simpa [Option.all_eq_true] using h.2⟩,
      fun h => ⟨by simpa [Option.all_eq_true] using h.head,
        by simpa [Option.all_eq_true] using h.last⟩⟩

theorem Blank.append (hbefore : Blank before) (hafter : Blank after) : Blank (before ++ after) :=
  List.forall_mem_append.mpr ⟨hbefore, hafter⟩

theorem dropWhile_blank (h : Blank line) : line.dropWhile isBlank = [] :=
  List.dropWhile_eq_nil_iff.mpr h

theorem dropWhile_of_head (h : ∀ c ∈ line.head?, isBlank c = false) :
    line.dropWhile isBlank = line := by
  cases line with
  | nil => rfl
  | cons c rest => simp [h c rfl]

theorem trim_blank (h : Blank line) : trim line = [] := by
  rw [trim, dropWhile_blank h]
  rfl

/-- Trimming takes the margins and nothing else. -/
theorem trim_margins (hbefore : Blank before) (hbody : Tight body) (hafter : Blank after) :
    trim (before ++ body ++ after) = body := by
  rw [trim, List.append_assoc, List.dropWhile_append_of_pos hbefore]
  cases body with
  | nil => rw [List.nil_append, dropWhile_blank hafter]; rfl
  | cons c rest =>
    have hreverse : ∀ c' ∈ after.reverse, isBlank c' = true := fun c' h =>
      hafter c' (List.mem_reverse.mp h)
    have hhead : ∀ c' ∈ (c :: rest ++ after).head?, isBlank c' = false := hbody.head
    have hlast : ∀ c' ∈ (c :: rest).reverse.head?, isBlank c' = false := by
      rw [List.head?_reverse]
      exact hbody.last
    rw [dropWhile_of_head hhead, List.reverse_append, List.dropWhile_append_of_pos hreverse,
      dropWhile_of_head hlast, List.reverse_reverse]

/-- A line is its text with margins. -/
theorem exists_margins (line : List Char) : ∃ before after,
    Blank before ∧ Blank after ∧ line = before ++ trim line ++ after := by
  refine ⟨line.takeWhile isBlank, ((line.dropWhile isBlank).reverse.takeWhile isBlank).reverse,
    fun c => List.mem_takeWhile_imp, fun c h => List.mem_takeWhile_imp (List.mem_reverse.mp h), ?_⟩
  rw [trim, List.append_assoc, ← List.reverse_append, List.takeWhile_append_dropWhile,
    List.reverse_reverse, List.takeWhile_append_dropWhile]

theorem tight_trim (line : List Char) : Tight (trim line) := by
  have hdropped (text : List Char) : ∀ c ∈ (text.dropWhile isBlank).head?, isBlank c = false := by
    intro c hc
    have h := List.head?_dropWhile_not isBlank text
    rwa [Option.mem_def.mp hc] at h
  refine ⟨fun c hc => ?_, fun c hc => ?_⟩
  · -- what the second pass leaves starts as what the first one left
    refine hdropped line c ?_
    obtain ⟨taken, htaken⟩ := List.dropWhile_suffix isBlank (l := (line.dropWhile isBlank).reverse)
    rw [← List.reverse_eq_iff, List.reverse_append] at htaken
    rw [← htaken, ← trim, List.head?_append, Option.mem_def.mp hc]
    rfl
  · rw [trim, List.getLast?_reverse] at hc
    exact hdropped _ c hc

/-- More margin does not matter. -/
theorem trim_append (line : List Char) (h : Blank after) : trim (line ++ after) = trim line := by
  obtain ⟨before, margin, hbefore, hmargin, hline⟩ := exists_margins line
  rw [hline, List.append_assoc, trim_margins hbefore (tight_trim line) (hmargin.append h), ← hline]

theorem trim_dropReturn (line : List Char) : trim (dropReturn line) = trim line := by
  rw [dropReturn]
  split
  · next h =>
    obtain ⟨rest, rfl⟩ := List.getLast?_eq_some_iff.mp h
    rw [List.dropLast_concat, trim_append rest (by decide)]
  · rfl

/-- What starts a line's text starts the trimmed line, unless it is a blank. -/
theorem head?_trim {c : Char} {words : List Char} (hbefore : Blank before)
    (hc : isBlank c = false) : (trim (before ++ c :: words)).head? = some c := by
  rw [trim, List.dropWhile_append_of_pos hbefore, List.dropWhile_cons_of_neg (by simp [hc]),
    List.reverse_cons, List.dropWhile_append]
  split <;> simp [hc]

end Text

/-! ### Texts that are lists -/

/-- An id that a list can hold. -/
structure Listable (unit : UnitId) : Prop where
  plain : ∀ c ∈ unit.text.toList, Text.isControl c = false
  tight : Text.Tight unit.text.toList
  unmarked : unit.text.toList.head? ≠ some '#'

instance (unit : UnitId) : Decidable (Listable unit) :=
  decidable_of_iff (unit.text.toList.all (Text.isControl · == false) = true ∧
      Text.Tight unit.text.toList ∧ unit.text.toList.head? ≠ some '#')
    ⟨fun h => ⟨by simpa using h.1, h.2.1, h.2.2⟩,
      fun h => ⟨by simpa using h.plain, h.tight, h.unmarked⟩⟩

/-- A line with the units that it holds: one, or none in a blank line and in a comment. -/
inductive LineOf : List Char → List UnitId → Prop
  | unit {unit : UnitId} {before after : List Char} : Listable unit →
      Text.Blank before → Text.Blank after → LineOf (before ++ unit.text.toList ++ after) [unit]
  | blank {line : List Char} : Text.Blank line → LineOf line []
  | comment {before words : List Char} : Text.Blank before → LineOf (before ++ '#' :: words) []

/-- A text that writes these units, one to a line. Every line but the last has an end. -/
inductive Writes : List Char → List UnitId → Prop
  | last {line : List Char} {units : List UnitId} : LineOf line units → '\n' ∉ line →
      Writes line units
  | line {line ending rest : List Char} {units more : List UnitId} : LineOf line units →
      '\n' ∉ line → ending = ['\n'] ∨ ending = ['\r', '\n'] → Writes rest more →
      Writes (line ++ ending ++ rest) (units ++ more)

/-- A line that holds an id with a control character. -/
structure Spoiled (line : List Char) : Prop where
  nonempty : Text.trim line ≠ []
  unmarked : (Text.trim line).head? ≠ some '#'
  control : ∃ c ∈ Text.trim line, Text.isControl c = true

instance (line : List Char) : Decidable (Spoiled line) :=
  decidable_of_iff (Text.trim line ≠ [] ∧ (Text.trim line).head? ≠ some '#' ∧
      (Text.trim line).any Text.isControl = true)
    ⟨fun h => ⟨h.1, h.2.1, List.any_eq_true.mp h.2.2⟩,
      fun h => ⟨h.nonempty, h.unmarked, List.any_eq_true.mpr h.control⟩⟩

variable {path : Path} {text line : List Char} {lines : List (List Char)} {units : List UnitId}
  {unit : UnitId}

theorem Listable.not_mem_feed (h : Listable unit) : '\n' ∉ unit.text.toList := fun hmem =>
  absurd (h.plain _ hmem) (by decide)

theorem LineOf.listable (h : LineOf line units) : ∀ unit ∈ units, Listable unit := by
  cases h with
  | unit hlistable => simpa using hlistable
  | blank => simp
  | comment => simp

theorem Writes.listable (h : Writes text units) : ∀ unit ∈ units, Listable unit := by
  induction h with
  | last hline => exact hline.listable
  | line hline _ _ _ ih => exact List.forall_mem_append.mpr ⟨hline.listable, ih⟩

/-- The return of a line's end may be counted to the line. -/
theorem LineOf.append_return (h : LineOf line units) : LineOf (line ++ ['\r']) units := by
  have hreturn : Text.Blank ['\r'] := by decide
  cases h with
  | unit hlistable hbefore hafter =>
    rw [List.append_assoc]
    exact .unit hlistable hbefore (hafter.append hreturn)
  | blank hblank => exact .blank (hblank.append hreturn)
  | comment hbefore =>
    rw [List.append_assoc, List.cons_append]
    exact .comment hbefore

/-- Every line says something, or it is spoiled. -/
theorem lineOf_or_spoiled (line : List Char) : (∃ units, LineOf line units) ∨ Spoiled line := by
  obtain ⟨before, after, hbefore, hafter, hline⟩ := Text.exists_margins line
  have htight := Text.tight_trim line
  by_cases hempty : Text.trim line = []
  · rw [hempty, List.append_nil] at hline
    exact .inl ⟨[], hline ▸ .blank (hbefore.append hafter)⟩
  by_cases hcomment : (Text.trim line).head? = some '#'
  · obtain ⟨words, hwords⟩ := List.head?_eq_some_iff.mp hcomment
    rw [hwords, List.append_assoc, List.cons_append] at hline
    exact .inl ⟨[], hline ▸ .comment hbefore⟩
  by_cases hcontrol : ∃ c ∈ Text.trim line, Text.isControl c = true
  · exact .inr ⟨hempty, hcomment, hcontrol⟩
  · let unit : UnitId := ⟨String.ofList (Text.trim line), by simpa using hempty⟩
    have htext : unit.text.toList = Text.trim line := String.toList_ofList
    rw [← htext] at htight hcomment hcontrol hline
    have hplain : ∀ c ∈ unit.text.toList, Text.isControl c = false := by simpa using hcontrol
    exact .inl ⟨[unit], hline ▸ .unit ⟨hplain, htight, hcomment⟩ hbefore hafter⟩

/-! ### The reader, line by line -/

/-- The units of lines, the first of which has this number. -/
def readLines (path : Path) : Nat → List (List Char) → Except SetupError (List UnitId)
  | _, [] => .ok []
  | number, line :: rest =>
    let id := Text.trim line
    if id.isEmpty || id.head? = some '#' then readLines path (number + 1) rest
    else match listedUnit id with
      | .error cause => .error (.listedUnit path number cause)
      | .ok unit => (readLines path (number + 1) rest).map (unit :: ·)

/-- Who sees neither returns at the end nor empty lines sees the pieces at feeds as the lines. -/
theorem filterMap_lines {α : Type} {f : List Char × Nat → Option α}
    (hreturn : ∀ line number, f (Text.dropReturn line, number) = f (line, number))
    (hempty : ∀ number, f ([], number) = none) (text : List Char) (number : Nat) :
    ((Text.lines text).zipIdx number).filterMap f =
      ((Text.pieces '\n' text).zipIdx number).filterMap f := by
  have hpieces := List.dropLast_concat_getLast (Text.pieces_ne_nil '\n' text)
  have hmap : f ∘ Prod.map Text.dropReturn id = f :=
    funext fun numbered => hreturn numbered.1 numbered.2
  rw [Text.lines]
  generalize (Text.pieces '\n' text).dropLast = front at *
  generalize (Text.pieces '\n' text).getLast _ = last at *
  rw [← hpieces, List.zipIdx_append, List.zipIdx_append, List.filterMap_append,
    List.filterMap_append, List.zipIdx_map, List.filterMap_map, hmap, List.length_map]
  by_cases hlast : last = []
  · simp [hlast, hempty]
  · simp [hlast]

/-- The reader goes from line to line. -/
theorem readUnitList_eq (path : Path) (text : String) :
    readUnitList path text = readLines path 1 (Text.pieces '\n' text.toList) := by
  rw [readUnitList, listedLines, filterMap_lines]
  · generalize 1 = number
    induction Text.pieces '\n' text.toList generalizing number with
    | nil => rfl
    | cons line rest ih =>
      rw [readLines, ← ih (number + 1), List.zipIdx_cons, List.filterMap_cons]
      by_cases hskip : (Text.trim line).isEmpty || (Text.trim line).head? = some '#'
      · simp only [if_pos hskip]
      · simp only [if_neg hskip, List.mapM_cons]
        cases listedUnit (Text.trim line) <;> rfl
  · simp [Text.trim_dropReturn]
  · simp [Text.trim]

/-- What a line says comes before what the rest says. -/
theorem LineOf.read (h : LineOf line units) (path : Path) (number : Nat) :
    readLines path number (line :: lines) =
      (readLines path (number + 1) lines).map (units ++ ·) := by
  cases h with
  | unit hlistable hbefore hafter =>
    rename_i unit before after
    have hne : unit.text.toList ≠ [] := fun h => unit.nonempty (String.toList_eq_nil_iff.mp h)
    have hplain : ¬ unit.text.toList.any Text.isControl := by simpa using hlistable.plain
    rw [readLines, Text.trim_margins hbefore hlistable.tight hafter, listedUnit, if_neg hplain,
      String.ofList_toList, UnitId.ofString_text]
    simp [hne, hlistable.unmarked]
  | blank hblank =>
    rw [readLines, Text.trim_blank hblank]
    cases readLines path (number + 1) lines <;> rfl
  | comment hbefore =>
    rw [readLines, Text.head?_trim hbefore (by decide)]
    cases readLines path (number + 1) lines <;> simp [Except.map]

/-- The reader stops at a line that is spoiled. -/
theorem Spoiled.read (h : Spoiled line) (path : Path) (number : Nat) :
    readLines path number (line :: lines) =
      .error (.listedUnit path number (.control (String.ofList (Text.trim line)))) := by
  have hcontrol : (Text.trim line).any Text.isControl := by simpa using h.control
  rw [readLines, listedUnit, if_pos hcontrol]
  simp [h.nonempty, h.unmarked]

theorem LineOf.not_spoiled (h : LineOf line units) : ¬ Spoiled line := by
  intro hspoiled
  have hread : readLines ⟨""⟩ 0 [line] = (readLines ⟨""⟩ 1 []).map (units ++ ·) := h.read ⟨""⟩ 0
  rw [hspoiled.read] at hread
  cases hread

/-! ### What the reader accepts -/

theorem Writes.read (h : Writes text units) (path : Path) (number : Nat) :
    readLines path number (Text.pieces '\n' text) = .ok units := by
  induction h generalizing number with
  | last hline hfeed =>
    rw [Text.pieces_of_not_mem hfeed, hline.read, readLines]
    simp [Except.map]
  | @line line ending rest units more hline hfeed hending _ ih =>
    rcases hending with rfl | rfl
    · rw [List.append_assoc, List.singleton_append, Text.pieces_append hfeed, hline.read, ih]
      rfl
    · have hreturn : '\n' ∉ line ++ ['\r'] := by simpa using hfeed
      have hcut : line ++ ['\r', '\n'] ++ rest = (line ++ ['\r']) ++ '\n' :: rest := by simp
      rw [hcut, Text.pieces_append hreturn, hline.append_return.read, ih]
      rfl

/-- Lines that are read, with feeds between them, write what they say. -/
theorem writes_of_readLines {number : Nat} (h : readLines path number (line :: lines) = .ok units)
    (hfeed : ∀ other ∈ line :: lines, '\n' ∉ other) :
    Writes (['\n'].intercalate (line :: lines)) units := by
  induction lines generalizing number line units with
  | nil =>
    obtain ⟨said, hline⟩ | hspoiled := lineOf_or_spoiled line
    · rw [hline.read, readLines] at h
      cases h
      simpa [List.intercalate] using Writes.last hline (hfeed line List.mem_cons_self)
    · rw [hspoiled.read] at h
      cases h
  | cons next lines ih =>
    obtain ⟨said, hline⟩ | hspoiled := lineOf_or_spoiled line
    · rw [hline.read] at h
      cases hrest : readLines path (number + 1) (next :: lines) with
      | error cause => rw [hrest] at h; cases h
      | ok more =>
        rw [hrest] at h
        cases h
        rw [List.intercalate_cons_cons]
        exact .line hline (hfeed line List.mem_cons_self) (.inl rfl)
          (ih hrest fun other hother => hfeed other (List.mem_cons_of_mem _ hother))
    · rw [hspoiled.read] at h
      cases h

/-- The reader accepts just the texts that are lists, with the units that they write. -/
theorem readUnitList_eq_ok_iff {text : String} :
    readUnitList path text = .ok units ↔ Writes text.toList units := by
  rw [readUnitList_eq]
  constructor
  · intro h
    obtain ⟨line, lines, hpieces⟩ :=
      List.exists_cons_of_ne_nil (Text.pieces_ne_nil '\n' text.toList)
    rw [← Text.intercalate_pieces '\n' text.toList, hpieces]
    rw [hpieces] at h
    exact writes_of_readLines h fun other hother =>
      Text.not_mem_of_mem_pieces (hpieces ▸ hother)
  · exact fun h => h.read path 1

/-! ### Where the reader stops -/

/-- The reader comes as far as the first line that is spoiled. -/
theorem Spoiled.read_append (h : Spoiled line) {front : List (List Char)}
    (hfront : ∀ earlier ∈ front, ¬ Spoiled earlier) (path : Path) (number : Nat)
    (back : List (List Char)) : readLines path number (front ++ line :: back) =
      .error (.listedUnit path (number + front.length)
        (.control (String.ofList (Text.trim line)))) := by
  induction front generalizing number with
  | nil => exact h.read path number
  | cons first front ih =>
    obtain ⟨hfirst, hfront⟩ := List.forall_mem_cons.mp hfront
    obtain ⟨said, hline⟩ := (lineOf_or_spoiled first).resolve_right hfirst
    rw [List.cons_append, hline.read, ih hfront, List.length_cons, Nat.add_right_comm,
      Nat.add_assoc]
    rfl

/-- The reader fails only at a line that is spoiled. -/
theorem exists_spoiled_of_error {number : Nat} {error : SetupError}
    (h : readLines path number lines = .error error) : ∃ front line back,
      lines = front ++ line :: back ∧ (∀ earlier ∈ front, ¬ Spoiled earlier) ∧ Spoiled line := by
  induction lines generalizing number with
  | nil => cases h
  | cons first lines ih =>
    obtain ⟨said, hline⟩ | hspoiled := lineOf_or_spoiled first
    · rw [hline.read] at h
      cases hrest : readLines path (number + 1) lines with
      | ok more => rw [hrest] at h; cases h
      | error cause =>
        rw [hrest] at h
        cases h
        obtain ⟨front, line, back, rfl, hfront, hspoiled⟩ := ih hrest
        exact ⟨first :: front, line, back, rfl,
          List.forall_mem_cons.mpr ⟨hline.not_spoiled, hfront⟩, hspoiled⟩
    · exact ⟨[], first, lines, rfl, by simp, hspoiled⟩

/-- The reader fails just at the first line that is spoiled. -/
theorem readUnitList_eq_error_iff {text : String} {error : SetupError} :
    readUnitList path text = .error error ↔ ∃ front line back,
      Text.pieces '\n' text.toList = front ++ line :: back ∧
      (∀ earlier ∈ front, ¬ Spoiled earlier) ∧ Spoiled line ∧
      error = .listedUnit path (front.length + 1)
        (.control (String.ofList (Text.trim line))) := by
  rw [readUnitList_eq]
  constructor
  · intro h
    obtain ⟨front, line, back, hlines, hfront, hspoiled⟩ := exists_spoiled_of_error h
    rw [hlines, hspoiled.read_append hfront, Nat.add_comm] at h
    exact ⟨front, line, back, hlines, hfront, hspoiled, (Except.error.inj h).symm⟩
  · rintro ⟨front, line, back, hlines, hfront, hspoiled, rfl⟩
    rw [hlines, hspoiled.read_append hfront, Nat.add_comm]

/-! ### Printed orders -/

theorem Writes.append_feed (h : Writes text units) : Writes (text ++ ['\n']) units := by
  induction h with
  | last hline hfeed =>
    have hlast : Writes [] [] := .last (.blank (by decide)) (by decide)
    simpa using Writes.line hline hfeed (.inl rfl) hlast
  | line hline hfeed hending _ ih =>
    rw [List.append_assoc]
    exact .line hline hfeed hending ih

theorem LineOf.of_listable (h : Listable unit) : LineOf unit.text.toList [unit] := by
  have hnone : Text.Blank [] := by decide
  simpa using LineOf.unit h hnone hnone

theorem toList_formatList (units : List UnitId) : (formatList (texts units) "").toList =
    ['\n'].intercalate (units.map (·.text.toList)) := by
  simp [formatList, Text.joined, texts, String.toList_intercalate, Function.comp_def]

/-- Units one to a line are a list of them. -/
theorem writes_formatList (h : ∀ unit ∈ units, Listable unit) :
    Writes (formatList (texts units) "").toList units := by
  rw [toList_formatList]
  induction units with
  | nil => exact .last (.blank (by decide)) (by decide)
  | cons unit units ih =>
    have hunit := h unit List.mem_cons_self
    have hrest := ih fun other hother => h other (List.mem_cons_of_mem _ hother)
    cases units with
    | nil => simpa [List.intercalate] using Writes.last (.of_listable hunit) hunit.not_mem_feed
    | cons next units =>
      rw [List.map_cons, List.map_cons, List.intercalate_cons_cons]
      exact .line (.of_listable hunit) hunit.not_mem_feed (.inl rfl) hrest

/-- Lists of listable units are read back, as they are printed and with a last line end. -/
theorem readUnitList_formatList (path : Path) (h : ∀ unit ∈ units, Listable unit) :
    readUnitList path (formatList (texts units) "") = .ok units ∧
      readUnitList path (formatList (texts units) "" ++ "\n") = .ok units := by
  have hwrites := writes_formatList h
  refine ⟨readUnitList_eq_ok_iff.mpr hwrites, readUnitList_eq_ok_iff.mpr ?_⟩
  rw [String.toList_append]
  exact hwrites.append_feed

/-- What a sort prints as text. -/
theorem sortCommand_out {session : Session} {order : List UnitId}
    (hformat : session.settings.format = .text)
    (hsort : (sort session.source session.units).1 = .ok order) :
    (sortCommand session).out = formatList (texts order) "" ++ "\n" := by
  obtain ⟨next, hsort⟩ : ∃ next, sort session.source session.units = (.ok order, next) :=
    ⟨_, Prod.ext hsort rfl⟩
  rw [sortCommand, hsort]
  simp only [Session.print, hformat]
  rfl

/-- A text is read as units just when it writes them, one to a line with any blanks around them,
with line feeds or returns and feeds at the ends, and with blank lines and comments in between. So
the order that a sort prints is read back. All units of a list are listable, and writing them one to
a line gives a text that is read as the same units. Any other text is refused, with the number of
the first line whose trimmed text is neither empty nor a comment and holds a control character. -/
theorem unit_lists_read_back (path : Path) (text : String) :
    (∀ units, Writes text.toList units → readUnitList path text = .ok units) ∧
    (∀ session order, session.settings.format = .text →
      (sort session.source session.units).1 = .ok order → (∀ unit ∈ order, Listable unit) →
      readUnitList path (sortCommand session).out = .ok order) ∧
    (∀ units, readUnitList path text = .ok units → Writes text.toList units ∧
      (∀ unit ∈ units, Listable unit) ∧
      readUnitList path (formatList (texts units) "") = .ok units ∧
      readUnitList path (formatList (texts units) "" ++ "\n") = .ok units) ∧
    ∀ error, readUnitList path text = .error error ↔ ∃ front line back,
      Text.pieces '\n' text.toList = front ++ line :: back ∧
      (∀ earlier ∈ front, ¬ Spoiled earlier) ∧ Spoiled line ∧
      error = .listedUnit path (front.length + 1)
        (.control (String.ofList (Text.trim line))) := by
  refine ⟨fun units => readUnitList_eq_ok_iff.mpr, ?_, ?_, fun error =>
    readUnitList_eq_error_iff⟩
  · intro session order hformat hsort hlistable
    rw [sortCommand_out hformat hsort]
    exact (readUnitList_formatList path hlistable).2
  · intro units h
    have hwrites := readUnitList_eq_ok_iff.mp h
    exact ⟨hwrites, hwrites.listable, readUnitList_formatList path hwrites.listable⟩

namespace Sample

/-- An id with a blank in it. -/
def spaced : UnitId := ⟨"Web Config", by decide⟩

/-- A list with both ends of lines, a comment, and blanks of which one is a control character. -/
def mixedList : String := "# web stack\r\n \t\r\n\u0085Web Config \r\n\na"

theorem writes_mixedList : Writes mixedList.toList [spaced, a] := by
  have hcomment : LineOf ([] ++ '#' :: " web stack".toList) [] := .comment (by decide)
  have hblank : LineOf [' ', '\t'] [] := .blank (by decide)
  have hspaced : LineOf (['\u0085'] ++ spaced.text.toList ++ [' ']) [spaced] :=
    .unit (by decide) (by decide) (by decide)
  have hempty : LineOf [] [] := .blank (by decide)
  have hlast : Writes a.text.toList [a] := .last (.of_listable (by decide)) (by decide)
  exact .line hcomment (by decide) (.inr rfl) (.line hblank (by decide) (.inr rfl)
    (.line hspaced (by decide) (.inr rfl) (.line hempty (by decide) (.inl rfl) hlast)))

/-- A list with a fault in its fourth line, the second line with an id. -/
def spoiledList : String := "a\r\n\u0085# b\n\n b\u0007c\n\u0007"

/-- A batch of two units, of which the second belongs first. -/
def lateSession : Session where
  settings := { index := none, declarations := none, format := .text, warnings := [] }
  source := .leaf (.inl late)
  units := [b, c]

end Sample

/-- A list that is read, an order that is read back, and a fault after lines that hold no ids. -/
theorem unit_lists_read_back_mixed :
    Writes Sample.mixedList.toList [Sample.spaced, Sample.a] ∧
      readUnitList ⟨"units.txt"⟩ Sample.mixedList = .ok [Sample.spaced, Sample.a] ∧
      (sort Sample.lateSession.source Sample.lateSession.units).1 = .ok [Sample.c, Sample.b] ∧
      readUnitList ⟨"units.txt"⟩ (sortCommand Sample.lateSession).out =
        .ok [Sample.c, Sample.b] ∧
      readUnitList ⟨"units.txt"⟩ Sample.spoiledList =
        .error (.listedUnit ⟨"units.txt"⟩ 4 (.control "b\u0007c")) := by
  obtain ⟨hread, hback, -, -⟩ := unit_lists_read_back ⟨"units.txt"⟩ Sample.mixedList
  obtain ⟨-, -, -, hrefused⟩ := unit_lists_read_back ⟨"units.txt"⟩ Sample.spoiledList
  have hwrites := Sample.writes_mixedList
  have hsort : (sort Sample.lateSession.source Sample.lateSession.units).1 =
      .ok [Sample.c, Sample.b] := by
    cbv
  have hlistable : ∀ unit ∈ [Sample.c, Sample.b], Listable unit := by
    decide
  refine ⟨hwrites, hread _ hwrites, hsort, hback _ _ rfl hsort hlistable, (hrefused _).mpr ?_⟩
  exact ⟨["a\r".toList, "\u0085# b".toList, []], " b\u0007c".toList, ["\u0007".toList],
    by decide +kernel, by decide +kernel, by decide +kernel, by decide +kernel⟩

end ActivationOrder
