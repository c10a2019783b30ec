import ActivationOrder.Toml.Grammar

/-!
Documents. The statements of a document fall into sections, each a heading with the pairs under it;
the pairs before the first heading are the top of the document. Sections are put into the document
one after the other, so a table takes its place among its neighbours when it is first named, and a
table that was only implied moves to the end when it gets its own heading.
-/

namespace ActivationOrder.Toml

/-- The pairs under a heading. -/
abbrev Pairs := List (List String × Value)

/-- A heading with the pairs under it. -/
structure Section where
  isElement : Bool
  path : List String
  pairs : Pairs

/-- The pairs at the top and the sections that follow. -/
def sections : List Statement → Pairs × List Section
  | [] => ([], [])
  | .pair path value :: rest =>
    let (pairs, more) := sections rest
    ((path, value) :: pairs, more)
  | .table path :: rest =>
    let (pairs, more) := sections rest
    ([], ⟨false, path, pairs⟩ :: more)
  | .element path :: rest =>
    let (pairs, more) := sections rest
    ([], ⟨true, path, pairs⟩ :: more)

/-- Assigns pairs one after the other. -/
def Items.assignAll (items : Items) (pairs : Pairs) : Option Items :=
  pairs.foldlM (fun items pair => Items.assign items pair.1 pair.2) items

/-- Puts a table with its own heading into the table that holds it. -/
def Items.addTable (key : String) (pairs : Pairs) (_ : Origin) (items : Items) : Option Items :=
  match items.lookup key with
  | none => (Items.assignAll [] pairs).map fun inner => items ++ [(key, .table .header inner)]
  | some (.table .implied inner) =>
    (Items.assignAll inner pairs).map fun inner =>
      Items.remove items key ++ [(key, .table .header inner)]
  | some _ => none

/-- Puts an element of an array of tables into the table that holds the array. -/
def Items.addElement (key : String) (pairs : Pairs) (_ : Origin) (items : Items) : Option Items :=
  match items.lookup key with
  | none => (Items.assignAll [] pairs).map fun inner => items ++ [(key, .tables [inner])]
  | some (.tables elements) =>
    (Items.assignAll [] pairs).map fun inner =>
      Items.replace items key (.tables (elements ++ [inner]))
  | some _ => none

/-- Puts a section into the document. -/
def Items.addSection (items : Items) (s : Section) : Option Items :=
  match s.path.getLast? with
  | none => none
  | some key =>
    let change := if s.isElement then addElement key s.pairs else addTable key s.pairs
    Items.update .implied change s.path.dropLast .header items

/-- The document that statements make up, if they are compatible. -/
def documentOf (statements : List Statement) : Option Entries := do
  let (top, more) := sections statements
  let items ← Items.assignAll [] top
  let items ← more.foldlM Items.addSection items
  pure (Items.toEntries items)

/-- The text without the byte order mark at its start. -/
def dropMark : List Char → List Char
  | c :: rest => if c = '\ufeff' then rest else c :: rest
  | [] => []

/-- Reads a document; `none` means that the text is none. -/
def document? (text : String) : Option Entries := do
  let chars := dropMark text.toList
  documentOf (← statements (chars.length + 1) chars)

end ActivationOrder.Toml
