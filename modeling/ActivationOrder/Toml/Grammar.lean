import ActivationOrder.Toml.Moments
import ActivationOrder.Toml.Numbers
import ActivationOrder.Toml.Strings
import ActivationOrder.Toml.Table

/-!
Keys, values and statements. A document is a run of statements, each on lines of its own: a pair of
a key and a value, or the heading of a table. Arrays and inline tables nest to a fixed depth, and a
dotted key has a greatest length; the readers of nested values recurse on the depth that is left.
Runs of items recurse on a bound for their number, for which the length of the text is enough, since
every item takes a character.
-/

namespace ActivationOrder.Toml

/-- How deep arrays and inline tables may nest. -/
def depthLimit : Nat := 79

/-- How many parts a dotted key may have. -/
def keyLimit : Nat := 79

/-- The text without the blanks at its start. -/
def skipBlanks (text : List Char) : List Char := text.dropWhile isBlank

/-- The text without the white space, line ends and comments at its start. -/
def skipFiller : (inComment : Bool) → List Char → List Char
  | _, [] => []
  | inComment, c :: rest =>
    if c = '\n' then skipFiller false rest
    else if c = '\r' && rest.head? = some '\n' then skipFiller false rest
    else if inComment then if isCommentChar c then skipFiller true rest else c :: rest
    else if isBlank c then skipFiller false rest
    else if c = '#' then skipFiller true rest
    else c :: rest

/-- The end of a statement: blanks, a comment and the line's end. Gives the lines that follow. -/
def endLine? (text : List Char) : Option (List Char) :=
  let rest := skipBlanks text
  let rest := match rest with
    | '#' :: comment => comment.dropWhile isCommentChar
    | rest => rest
  match rest with
  | [] => some []
  | '\n' :: rest => some rest
  | '\r' :: '\n' :: rest => some rest
  | _ => none

/-! ### Keys -/

/-- One part of a key. -/
def keyPart (text : List Char) : Option (List Char × List Char) :=
  match text with
  | '"' :: _ => oneLineString text
  | '\x27' :: _ => oneLineString text
  | _ =>
    let bare := text.takeWhile isBareChar
    if bare.isEmpty then none else some (bare, text.dropWhile isBareChar)

/-- The parts of a dotted key, with the blanks around them. -/
def keyParts : Nat → List Char → Option (List String × List Char)
  | 0, _ => none
  | bound + 1, text => do
    let (part, rest) ← keyPart (skipBlanks text)
    match skipBlanks rest with
    | '.' :: rest =>
      let (parts, rest) ← keyParts bound rest
      pure (String.ofList part :: parts, rest)
    | rest => pure ([String.ofList part], rest)

/-- A dotted key. -/
def key (text : List Char) : Option (List String × List Char) := do
  let (parts, rest) ← keyParts (text.length + 1) text
  if parts.length ≤ keyLimit then pure (parts, rest) else none

/-! ### Values -/

/-- A value that holds no others. -/
def scalar (text : List Char) : Option (Value × List Char) :=
  match text with
  | [] => none
  | 't' :: rest => ['r', 'u', 'e'].isPrefixOf? rest |>.map fun rest => (.boolean true, rest)
  | 'f' :: rest => ['a', 'l', 's', 'e'].isPrefixOf? rest |>.map fun rest => (.boolean false, rest)
  | c :: _ =>
    if c = '"' || c = '\x27' then
      (string text).map fun (chars, rest) => (.string (String.ofList chars), rest)
    else if c = '+' || c = '-' || isDigit c then moment text <|> float text <|> integer text
    else specialFloat text

/-- The elements of an array after its bracket or a comma, up to the closing bracket. -/
def elements (element : List Char → Option (Value × List Char)) :
    Nat → List Char → Option (List Value × List Char)
  | 0, _ => none
  | bound + 1, text =>
    match skipFiller false text with
    | ']' :: rest => some ([], rest)
    | text => do
      let (value, rest) ← element text
      match skipFiller false rest with
      | ']' :: rest => pure ([value], rest)
      | ',' :: rest =>
        let (values, rest) ← elements element bound rest
        pure (value :: values, rest)
      | _ => none

/-- A key and its value. -/
def pair (value : List Char → Option (Value × List Char)) (text : List Char) :
    Option ((List String × Value) × List Char) := do
  let (path, rest) ← key text
  let rest ← drop? '=' rest
  let (v, rest) ← value (skipBlanks rest)
  pure ((path, v), rest)

/-- The pairs of an inline table after its brace or a comma, up to the closing brace. -/
def inlinePairs (value : List Char → Option (Value × List Char)) :
    Nat → List Char → Option (List (List String × Value) × List Char)
  | 0, _ => none
  | bound + 1, text => do
    let (first, rest) ← pair value text
    match skipBlanks rest with
    | '\x7d' :: rest => pure ([first], rest)
    | ',' :: rest =>
      let (more, rest) ← inlinePairs value bound rest
      pure (first :: more, rest)
    | _ => none

/-- An inline table after its brace. -/
def inlineTable (value : List Char → Option (Value × List Char)) (text : List Char) :
    Option (Value × List Char) :=
  match skipBlanks text with
  | '\x7d' :: rest => some (.table [], rest)
  | _ => do
    let (pairs, rest) ← inlinePairs value (text.length + 1) text
    let table ← tableOf pairs
    pure (table, rest)

/-- A value in which arrays and inline tables nest at most `depth` deep. -/
def value : (depth : Nat) → List Char → Option (Value × List Char)
  | 0, text => scalar text
  | depth + 1, text =>
    match text with
    | '[' :: rest =>
      (elements (value depth) (rest.length + 1) rest).map fun (values, rest) =>
        (.array values, rest)
    | '\x7b' :: rest => inlineTable (value depth) rest
    | text => scalar text

/-! ### Statements -/

/-- What the lines of a document say. -/
inductive Statement where
  /-- The pairs that follow belong to this table. -/
  | table (path : List String)
  /-- The pairs that follow belong to a new last element of this array of tables. -/
  | element (path : List String)
  | pair (path : List String) (value : Value)

/-- The heading of a table after its first bracket. -/
def heading (text : List Char) : Option (Statement × List Char) :=
  match text with
  | '[' :: text => do
    let (path, rest) ← key text
    let rest ← drop? ']' rest
    let rest ← drop? ']' rest
    pure (.element path, rest)
  | text => do
    let (path, rest) ← key text
    let rest ← drop? ']' rest
    pure (.table path, rest)

/-- One statement, without its line's end. -/
def statement (text : List Char) : Option (Statement × List Char) :=
  match text with
  | '[' :: rest => heading rest
  | text => (pair (value depthLimit) text).map fun ((path, v), rest) => (.pair path v, rest)

/-- The statements of a document. -/
def statements : Nat → List Char → Option (List Statement)
  | 0, _ => none
  | bound + 1, text =>
    match skipBlanks text with
    | [] => some []
    | '\n' :: rest => statements bound rest
    | '\r' :: '\n' :: rest => statements bound rest
    | '#' :: comment => do statements bound (← endLine? ('#' :: comment))
    | text => do
      let (first, rest) ← statement text
      let more ← statements bound (← endLine? rest)
      pure (first :: more)

end ActivationOrder.Toml
