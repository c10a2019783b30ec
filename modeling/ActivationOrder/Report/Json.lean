import ActivationOrder.Text.Character
import ActivationOrder.Text.Lines

/-!
Results as JSON, laid out over several lines: two spaces for each level, every element and member
on lines of its own, nothing inside empty brackets. In a string only quotes, backslashes and the
control characters below the space are escaped; all else stands as it is.
-/

namespace ActivationOrder

/-- A JSON value. Members keep their order. -/
inductive Json where
  | number (value : Int)
  | string (text : String)
  | array (items : List Json)
  | object (members : List (String × Json))

namespace Json

/-- One character inside a string. -/
def escaped (c : Char) : List Char :=
  match c with
  | '"' => ['\\', '"']
  | '\\' => ['\\', '\\']
  | '\x08' => ['\\', 'b']
  | '\t' => ['\\', 't']
  | '\n' => ['\\', 'n']
  | '\x0c' => ['\\', 'f']
  | '\r' => ['\\', 'r']
  | c =>
    if c.toNat < 0x20 then '\\' :: 'u' :: Text.padZeros 4 (Text.hexDigits c.toNat) else [c]

/-- A string with its quotes. -/
def quoted (text : String) : List Char := '"' :: text.toList.flatMap escaped ++ ['"']

/-- The start of a line at a level. -/
def newLine (level : Nat) : List Char := '\n' :: List.replicate (2 * level) ' '

/-- Brackets around items that are laid out one level deeper. -/
def bracketed (level : Nat) (opening closing : Char) (items : List (List Char)) : List Char :=
  if items.isEmpty then [opening, closing]
  else
    opening :: newLine (level + 1) ++ (',' :: newLine (level + 1)).intercalate items ++
      newLine level ++ [closing]

mutual

/-- A value whose first line stands at a level. -/
def layout (level : Nat) : Json → List Char
  | .number value => (toString value).toList
  | .string text => quoted text
  | .array items => bracketed level '[' ']' (layoutItems (level + 1) items)
  | .object members => bracketed level '\x7b' '\x7d' (layoutMembers (level + 1) members)

/-- The items of an array. -/
def layoutItems (level : Nat) : List Json → List (List Char)
  | [] => []
  | item :: items => layout level item :: layoutItems level items

/-- The members of an object. -/
def layoutMembers (level : Nat) : List (String × Json) → List (List Char)
  | [] => []
  | (name, value) :: members =>
    (quoted name ++ ':' :: ' ' :: layout level value) :: layoutMembers level members

end

/-- The text of a value. -/
def text (value : Json) : String := String.ofList (layout 0 value)

/-- An array of unit ids. -/
def ofTexts (texts : List String) : Json := .array (texts.map .string)

end Json

end ActivationOrder
