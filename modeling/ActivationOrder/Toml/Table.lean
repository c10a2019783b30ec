import ActivationOrder.Toml.Value

/-!
Building tables. While a document is read, a table remembers how it came to be, because that decides
who may still add to it: a table of its own header is closed to dotted keys from outside, a table
implied by a longer header may get its own header once, and a table of a dotted key is only extended
by dotted keys. A value, and so an inline table, is never extended.
-/

namespace ActivationOrder.Toml

/-! ### Look-up -/

section

variable {α : Type} {entries : List (String × α)} {key : String} {item : α}

theorem lookup_eq_none_iff : entries.lookup key = none ↔ key ∉ entries.map (·.1) := by
  rw [List.lookup_eq_none_iff, List.mem_map]
  constructor
  · rintro h ⟨entry, hentry, rfl⟩
    simpa using h entry hentry
  · intro h entry hentry
    have hne : key ≠ entry.1 := fun heq => h ⟨entry, hentry, heq.symm⟩
    simpa using hne

theorem mem_of_lookup (h : entries.lookup key = some item) : (key, item) ∈ entries := by
  obtain ⟨before, after, rfl, -⟩ := List.lookup_eq_some_iff.mp h
  simp

/-- With different keys, each entry is the one that is found under its key. -/
theorem lookup_of_mem : ∀ {entries : List (String × α)}, (entries.map (·.1)).Nodup →
    (key, item) ∈ entries → entries.lookup key = some item
  | [], _, hmem => by cases hmem
  | (first, _) :: entries, hnodup, hmem => by
    rw [List.map_cons, List.nodup_cons] at hnodup
    rcases List.mem_cons.mp hmem with heq | hrest
    · cases heq
      simp
    · have hne : key ≠ first := by
        rintro rfl
        exact hnodup.1 (List.mem_map.mpr ⟨_, hrest, rfl⟩)
      rw [List.lookup_cons, beq_false_of_ne hne]
      exact lookup_of_mem hnodup.2 hrest

/-- With different keys, what holds of the entries of a key holds of what is found under it. -/
theorem forall_mem_iff_lookup (hnodup : (entries.map (·.1)).Nodup) {P : α → Prop} :
    (∀ entry ∈ entries, entry.1 = key → P entry.2) ↔
      ∀ item, entries.lookup key = some item → P item := by
  constructor
  · intro h item hitem
    exact h (key, item) (mem_of_lookup hitem) rfl
  · rintro h entry hentry rfl
    exact h entry.2 (lookup_of_mem hnodup hentry)

end

/-! ### Tables under construction -/

/-- How a table came to be. -/
inductive Origin where
  /-- By its own header; also the top of the document and of an inline table. -/
  | header
  /-- By the header of a table inside it. -/
  | implied
  /-- By a dotted key. -/
  | dotted
  deriving DecidableEq

/-- What a key names in a table under construction. -/
inductive Item where
  | value (value : Value)
  | table (origin : Origin) (entries : List (String × Item))
  | tables (elements : List (List (String × Item)))
  deriving Inhabited

/-- The entries of a table under construction. -/
abbrev Items := List (String × Item)

/-- The entries with `item` in the place of what `key` names. -/
def Items.replace (items : Items) (key : String) (item : Item) : Items :=
  items.map fun entry => if entry.1 = key then (key, item) else entry

/-- The entries without `key`. -/
def Items.remove (items : Items) (key : String) : Items :=
  items.filter fun entry => entry.1 ≠ key

/-- Changes the table at the end of a path by `change`. Tables that are missing on the way are made,
with origin `made`; an array of tables stands for its last element. Dotted keys do not enter tables
that have a header. -/
def Items.update (made : Origin) (change : Origin → Items → Option Items) :
    List String → Origin → Items → Option Items
  | [], origin, items => change origin items
  | key :: path, _, items =>
    match items.lookup key with
    | none =>
      (update made change path made []).map fun inner => items ++ [(key, .table made inner)]
    | some (.value _) => none
    | some (.tables elements) =>
      match elements.getLast? with
      | none => none
      | some last =>
        (update made change path .header last).map fun inner =>
          items.replace key (.tables (elements.dropLast ++ [inner]))
    | some (.table origin inner) =>
      if made = .dotted ∧ origin = .header then none
      else (update made change path origin inner).map fun inner =>
        items.replace key (.table origin inner)

/-- Adds a new entry to a table: a key without dots to a table that no dotted key made, and the last
part of a dotted key to one that a dotted key made. -/
def Items.add (isDotted : Bool) (key : String) (value : Value) (origin : Origin) (items : Items) :
    Option Items :=
  if isDotted ≠ decide (origin = .dotted) then none
  else if (items.lookup key).isSome then none
  else some (items ++ [(key, .value value)])

/-- Assigns a value to a dotted key. -/
def Items.assign (items : Items) (path : List String) (value : Value) : Option Items :=
  match path.getLast? with
  | none => none
  | some key =>
    let outer := path.dropLast
    items.update .dotted (add (!outer.isEmpty) key value) outer .header

mutual

/-- A finished item as a value; an array of tables is an array. -/
def Item.toValue : Item → Value
  | .value value => value
  | .table _ entries => .table (Items.toEntries entries)
  | .tables elements => .array (Items.toTables elements)

/-- Finished entries. -/
def Items.toEntries : List (String × Item) → Entries
  | [] => []
  | (key, item) :: rest => (key, item.toValue) :: Items.toEntries rest

/-- The elements of a finished array of tables. -/
def Items.toTables : List (List (String × Item)) → List Value
  | [] => []
  | entries :: rest => .table (Items.toEntries entries) :: Items.toTables rest

end

theorem toEntries_eq_map (items : Items) :
    Items.toEntries items = items.map fun entry => (entry.1, entry.2.toValue) := by
  induction items with
  | nil => rfl
  | cons entry items ih => rw [Items.toEntries, ih, List.map_cons]

theorem toTables_eq_map (elements : List Items) :
    Items.toTables elements = elements.map fun items => .table (Items.toEntries items) := by
  induction elements with
  | nil => rfl
  | cons items elements ih => rw [Items.toTables, ih, List.map_cons]

theorem map_fst_toEntries (items : Items) :
    (Items.toEntries items).map (·.1) = items.map (·.1) := by
  rw [toEntries_eq_map, List.map_map]
  rfl

/-- A table with these dotted keys and values, if they are compatible. -/
def tableOf (pairs : List (List String × Value)) : Option Value :=
  (pairs.foldlM (fun items pair => Items.assign items pair.1 pair.2) []).map fun items =>
    .table (Items.toEntries items)

end ActivationOrder.Toml
