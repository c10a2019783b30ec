import ActivationOrder.Text.Character
import ActivationOrder.Text.Lines
import ActivationOrder.Toml.Value

/-!
The written form of keys, strings and arrays of strings. The style of a string is the first that can
hold it: double quotes, single quotes, the two forms on several lines, and last escapes. Tabs are
escaped between double quotes and stand as they are between single ones. Between three double quotes
a quote is escaped only when it would be the third in a row.
-/

namespace ActivationOrder.Toml

/-- How a string is written. -/
inductive Style where
  | basic
  | literal
  | multilineBasic
  | multilineLiteral
  deriving DecidableEq

/-- Control characters that no string holds unescaped on several lines. -/
def isForbidden (c : Char) : Bool :=
  (c.toNat < 0x20 && c != '\t' && c != '\n') || c.toNat == 0x7f

/-- Whether three of these quotes stand in a row. -/
def hasTriple (quote : Char) : List Char → Bool
  | a :: b :: c :: rest =>
    (a == quote && b == quote && c == quote) || hasTriple quote (b :: c :: rest)
  | _ => false

/-- The style of a string. -/
def styleOf (text : List Char) : Style :=
  let lines := text.contains '\n'
  let controls := text.any isForbidden
  let backslash := text.contains '\\'
  if !controls && !backslash && !text.contains '"' && !lines then .basic
  else if !controls && !text.contains '\x27' && !lines then .literal
  else if !controls && !backslash && !hasTriple '"' text then .multilineBasic
  else if !controls && !hasTriple '\x27' text then .multilineLiteral
  else if lines then .multilineBasic
  else .basic

/-- A character other than a quote between double quotes. -/
def escaped (multiline : Bool) (c : Char) : List Char :=
  match c with
  | '\x08' => ['\\', 'b']
  | '\t' => ['\\', 't']
  | '\n' => if multiline then ['\n'] else ['\\', 'n']
  | '\x0c' => ['\\', 'f']
  | '\r' => ['\\', 'r']
  | '\\' => ['\\', '\\']
  | c =>
    if isForbidden c then
      '\\' :: 'u' :: Text.padZeros 4 ((Text.hexDigits c.toNat).map Char.toUpper)
    else [c]

/-- A text between double quotes. -/
def basicText (text : List Char) : List Char :=
  text.flatMap fun c => if c = '"' then ['\\', '"'] else escaped false c

/-- A text between three double quotes, after `run` quotes in a row. -/
def multilineBasicText : (run : Nat) → List Char → List Char
  | _, [] => []
  | run, c :: rest =>
    if c = '"' then
      if run = 2 then '\\' :: '"' :: multilineBasicText 0 rest
      else '"' :: multilineBasicText (run + 1) rest
    else escaped true c ++ multilineBasicText 0 rest

/-- A string in a style. -/
def writtenAs (style : Style) (text : List Char) : List Char :=
  let start := if text.contains '\n' then ['\n'] else []
  match style with
  | .basic => '"' :: basicText text ++ ['"']
  | .literal => '\x27' :: text ++ ['\x27']
  | .multilineBasic => ['"', '"', '"'] ++ start ++ multilineBasicText 0 text ++ ['"', '"', '"']
  | .multilineLiteral => ['\x27', '\x27', '\x27'] ++ start ++ text ++ ['\x27', '\x27', '\x27']

/-- The written form of a string. -/
def writtenString (text : List Char) : List Char := writtenAs (styleOf text) text

/-- The written form of a key: bare if it can be, else a string on one line. -/
def writtenKey (text : List Char) : List Char :=
  let controls := text.any fun c => isForbidden c || c == '\n'
  if !text.isEmpty && text.all isBareChar then text
  else if !controls && !text.contains '"' && !text.contains '\\' then writtenAs .basic text
  else if !controls && !text.contains '\x27' then writtenAs .literal text
  else writtenAs .basic text

/-- The line of one string in an array on several lines. -/
def writtenItem (item : List Char) : List Char :=
  [' ', ' ', ' ', ' '] ++ writtenString item ++ [',', '\n']

/-- The written form of an array of strings: one on the line of the brackets, more on lines of their
own. -/
def writtenArray (items : List (List Char)) : List Char :=
  match items with
  | [item] => '[' :: writtenString item ++ [']']
  | items => '[' :: '\n' :: items.flatMap writtenItem ++ [']']

end ActivationOrder.Toml
