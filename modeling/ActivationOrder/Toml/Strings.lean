import ActivationOrder.Text.Character
import ActivationOrder.Toml.Value

/-!
The four forms of a string: double or single quotes, on one line or on several. Only double quotes
know escapes. The readers are automata over the characters after the opening quotes: `Mode` is what
has been seen of an escape, so every step takes one character.

    plain ── \ ──▶ escaped ── b t n f r " \ ──▶ plain
                      │ ── u U ──▶ code, one digit less at each step ──▶ plain
                      └ ── blank ──▶ lineEnd ── line feed ──▶ trimming ── other ──▶ plain
-/

namespace ActivationOrder.Toml

/-- Where a reader of a double-quoted string stands. -/
inductive Mode where
  | plain
  /-- After a backslash. -/
  | escaped
  /-- In the digits of an escaped code: how many are to come, and the value of those read. -/
  | code (left : Nat) (value : Nat)
  /-- After a backslash and blanks, where only a line end may follow. -/
  | lineEnd
  /-- After an escaped line end, where white space is dropped. -/
  | trimming
  deriving DecidableEq

/-- The character that a one-letter escape stands for. -/
def escapeValue? (c : Char) : Option Char :=
  match c with
  | 'b' => some '\x08'
  | 't' => some '\t'
  | 'n' => some '\n'
  | 'f' => some '\x0c'
  | 'r' => some '\r'
  | '"' => some '"'
  | '\\' => some '\\'
  | _ => none

/-- The end of a string on several lines: three quotes, before which up to two more belong to the
string. Gives these quotes, and what follows the end. -/
def closing? (quote : Char) (text : List Char) : Option (List Char × List Char) :=
  let run := (text.takeWhile (· == quote)).length
  if run < 3 then none
  else
    let extra := min (run - 3) 2
    some (List.replicate extra quote, text.drop (extra + 3))

/-- The rest of a double-quoted string on one line. -/
def basicBody : Mode → List Char → Option (List Char × List Char)
  | _, [] => none
  | .plain, c :: rest =>
    if c = '"' then some ([], rest)
    else if c = '\\' then basicBody .escaped rest
    else if isBasicChar c then (basicBody .plain rest).map (putBefore c)
    else none
  | .escaped, c :: rest =>
    if c = 'u' then basicBody (.code 4 0) rest
    else if c = 'U' then basicBody (.code 8 0) rest
    else match escapeValue? c with
      | some d => (basicBody .plain rest).map (putBefore d)
      | none => none
  | .code left value, c :: rest =>
    match Text.hexValue? c with
    | none => none
    | some digit =>
      if left ≤ 1 then
        match Text.charOfCode? (16 * value + digit) with
        | some d => (basicBody .plain rest).map (putBefore d)
        | none => none
      else basicBody (.code (left - 1) (16 * value + digit)) rest
  | .lineEnd, _ => none
  | .trimming, _ => none

/-- The rest of a double-quoted string on several lines. Every line end counts as a line feed. -/
def multilineBasicBody : Mode → List Char → Option (List Char × List Char)
  | _, [] => none
  | .plain, c :: rest =>
    if c = '"' then
      match closing? '"' (c :: rest) with
      | some closed => some closed
      | none => (multilineBasicBody .plain rest).map (putBefore c)
    else if c = '\\' then multilineBasicBody .escaped rest
    else if c = '\r' then
      if rest.head? = some '\n' then multilineBasicBody .plain rest else none
    else if c = '\n' || isBasicChar c then (multilineBasicBody .plain rest).map (putBefore c)
    else none
  | .escaped, c :: rest =>
    if c = 'u' then multilineBasicBody (.code 4 0) rest
    else if c = 'U' then multilineBasicBody (.code 8 0) rest
    else if isBlank c then multilineBasicBody .lineEnd rest
    else if c = '\n' then multilineBasicBody .trimming rest
    else if c = '\r' then
      if rest.head? = some '\n' then multilineBasicBody .trimming rest else none
    else match escapeValue? c with
      | some d => (multilineBasicBody .plain rest).map (putBefore d)
      | none => none
  | .code left value, c :: rest =>
    match Text.hexValue? c with
    | none => none
    | some digit =>
      if left ≤ 1 then
        match Text.charOfCode? (16 * value + digit) with
        | some d => (multilineBasicBody .plain rest).map (putBefore d)
        | none => none
      else multilineBasicBody (.code (left - 1) (16 * value + digit)) rest
  | .lineEnd, c :: rest =>
    if isBlank c then multilineBasicBody .lineEnd rest
    else if c = '\n' then multilineBasicBody .trimming rest
    else if c = '\r' && rest.head? = some '\n' then multilineBasicBody .trimming rest
    else none
  | .trimming, c :: rest =>
    if isBlank c || c = '\n' then multilineBasicBody .trimming rest
    else if c = '"' then
      match closing? '"' (c :: rest) with
      | some closed => some closed
      | none => (multilineBasicBody .plain rest).map (putBefore c)
    else if c = '\\' then multilineBasicBody .escaped rest
    else if c = '\r' then
      if rest.head? = some '\n' then multilineBasicBody .trimming rest else none
    else if isBasicChar c then (multilineBasicBody .plain rest).map (putBefore c)
    else none

/-- The rest of a single-quoted string on one line. -/
def literalBody : List Char → Option (List Char × List Char)
  | [] => none
  | c :: rest =>
    if c = '\x27' then some ([], rest)
    else if isLiteralChar c then (literalBody rest).map (putBefore c)
    else none

/-- The rest of a single-quoted string on several lines. Every line end counts as a line feed. -/
def multilineLiteralBody : List Char → Option (List Char × List Char)
  | [] => none
  | c :: rest =>
    if c = '\x27' then
      match closing? '\x27' (c :: rest) with
      | some closed => some closed
      | none => (multilineLiteralBody rest).map (putBefore c)
    else if c = '\r' then
      if rest.head? = some '\n' then multilineLiteralBody rest else none
    else if c = '\n' || isLiteralChar c then (multilineLiteralBody rest).map (putBefore c)
    else none

/-- A text without the line end at its start, if there is one. -/
def dropLineEnd : List Char → List Char
  | '\n' :: rest => rest
  | '\r' :: '\n' :: rest => rest
  | text => text

/-- A string on one line: the only forms that a key may have. -/
def oneLineString : List Char → Option (List Char × List Char)
  | '"' :: rest => basicBody .plain rest
  | '\x27' :: rest => literalBody rest
  | _ => none

/-- A string in any form. -/
def string : List Char → Option (List Char × List Char)
  | '"' :: '"' :: '"' :: rest => multilineBasicBody .plain (dropLineEnd rest)
  | '\x27' :: '\x27' :: '\x27' :: rest => multilineLiteralBody (dropLineEnd rest)
  | text => oneLineString text

end ActivationOrder.Toml
