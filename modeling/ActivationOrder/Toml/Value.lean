import ActivationOrder.Decimal.Binary64

/-!
The values of a document. A table keeps its keys in the order in which the document first names
them, because the first fault in that order is the one reported. Dates and times keep their text
only: nothing here is a date, so a moment is only ever refused.
-/

namespace ActivationOrder.Toml

/-- A value of a document. -/
inductive Value where
  | string (text : String)
  | integer (value : Int)
  | float (value : Binary64)
  | boolean (value : Bool)
  | moment (text : String)
  | array (items : List Value)
  | table (entries : List (String × Value))
  deriving Inhabited

/-- The entries of a table. -/
abbrev Entries := List (String × Value)

/-- Puts a character before the text that a reader took; the second component is what it left. -/
def putBefore (c : Char) (taken : List Char × List Char) : List Char × List Char :=
  (c :: taken.1, taken.2)

/-! ### Character classes -/

/-- White space inside a line. -/
def isBlank (c : Char) : Bool := c == ' ' || c == '\t'

/-- Characters beyond ASCII are allowed wherever text is. -/
def isBeyondAscii (c : Char) : Bool := 0x80 ≤ c.toNat

/-- Characters of a comment. -/
def isCommentChar (c : Char) : Bool :=
  c == '\t' || (0x20 ≤ c.toNat && c.toNat ≤ 0x7e) || isBeyondAscii c

/-- Characters that stand for themselves between double quotes. -/
def isBasicChar (c : Char) : Bool := isCommentChar c && c != '"' && c != '\\'

/-- Characters that stand for themselves between single quotes. -/
def isLiteralChar (c : Char) : Bool := isCommentChar c && c != '\x27'

/-- Characters of a key without quotes. -/
def isBareChar (c : Char) : Bool :=
  ('a' ≤ c && c ≤ 'z') || ('A' ≤ c && c ≤ 'Z') || ('0' ≤ c && c ≤ '9') || c == '_' || c == '-'

/-- Digits of base ten. -/
def isDigit (c : Char) : Bool := '0' ≤ c && c ≤ '9'

end ActivationOrder.Toml
