import Mathlib.Data.List.Nodup
import ActivationOrder.Toml.Document

/-!
Documents of flat tables. Fields without dots under one heading become the entries of its table as
they are, and headings `units.x` for different `x` become the entries of one table `units`. Both are
inductions over what is still to be put in, for any entries that are there already and none of whose
keys comes again.
-/

namespace ActivationOrder.Toml

/-! ### Sections -/

/-- Pairs as the statements that they are read from. -/
def pairsSaid (pairs : Pairs) : List Statement := pairs.map fun pair => .pair pair.1 pair.2

/-- The statements of a section: its heading, and its pairs. -/
def Section.said (s : Section) : List Statement :=
  (if s.isElement then .element s.path else .table s.path) :: pairsSaid s.pairs

theorem sections_pairsSaid (pairs : Pairs) (rest : List Statement) :
    sections (pairsSaid pairs ++ rest) = (pairs ++ (sections rest).1, (sections rest).2) := by
  induction pairs with
  | nil => rfl
  | cons pair pairs ih =>
    rw [pairsSaid] at ih ⊢
    rw [List.map_cons, List.cons_append, sections, ih, List.cons_append]

/-- Statements fall into the sections that they are made from. -/
theorem sections_said (more : List Section) :
    sections (more.flatMap Section.said) = ([], more) := by
  induction more with
  | nil => rfl
  | cons s more ih =>
    obtain ⟨isElement, path, pairs⟩ := s
    rw [List.flatMap_cons, Section.said, List.cons_append]
    cases isElement <;> simp only [Bool.false_eq_true, if_true, if_false] <;>
      rw [sections, sections_pairsSaid, ih, List.append_nil]

/-! ### Fields -/

/-- Fields as the pairs under a heading. -/
def fieldPairs (fields : Entries) : Pairs := fields.map fun field => ([field.1], field.2)

/-- Fields as the statements that they are read from. -/
def fieldsSaid (fields : Entries) : List Statement := pairsSaid (fieldPairs fields)

/-- Fields as the entries of a table under construction. -/
def fieldItems (fields : Entries) : Items := fields.map fun field => (field.1, .value field.2)

@[simp] theorem fieldsSaid_nil : fieldsSaid [] = [] := rfl

@[simp] theorem fieldsSaid_cons (field : String × Value) (fields : Entries) :
    fieldsSaid (field :: fields) = .pair [field.1] field.2 :: fieldsSaid fields := rfl

@[simp] theorem fieldsSaid_append (fields more : Entries) :
    fieldsSaid (fields ++ more) = fieldsSaid fields ++ fieldsSaid more := by
  simp [fieldsSaid, fieldPairs, pairsSaid]

theorem assign_field {items : Items} {name : String} (v : Value) (h : items.lookup name = none) :
    Items.assign items [name] v = some (items ++ [(name, .value v)]) := by
  simp [Items.assign, Items.update, Items.add, h]

theorem lookup_append_single {items : Items} {key other : String} (item : Item)
    (h : items.lookup key = none) (hne : key ≠ other) :
    (items ++ [(other, item)]).lookup key = none := by
  rw [List.lookup_append, h, Option.none_or, List.lookup_cons, beq_false_of_ne hne]
  rfl

/-- Fields with different names are put in one behind the other. -/
theorem assignAll_fieldPairs {fields : Entries} {items : Items}
    (hnodup : (fields.map (·.1)).Nodup) (hfresh : ∀ field ∈ fields, items.lookup field.1 = none) :
    Items.assignAll items (fieldPairs fields) = some (items ++ fieldItems fields) := by
  induction fields generalizing items with
  | nil => simp [Items.assignAll, fieldPairs, fieldItems]
  | cons field fields ih =>
    obtain ⟨hfield, hfields⟩ := List.forall_mem_cons.mp hfresh
    rw [List.map_cons, List.nodup_cons] at hnodup
    have hmore : ∀ next ∈ fields,
        (items ++ [(field.1, Item.value field.2)]).lookup next.1 = none := fun next hnext =>
      lookup_append_single _ (hfields next hnext) fun h => hnodup.1 (h ▸ List.mem_map_of_mem hnext)
    have ih := ih hnodup.2 hmore
    simp only [Items.assignAll, fieldPairs, List.map_cons, List.foldlM_cons] at ih ⊢
    rw [assign_field field.2 hfield]
    simpa [fieldItems] using ih

@[simp] theorem toEntries_append (items more : Items) :
    Items.toEntries (items ++ more) = Items.toEntries items ++ Items.toEntries more := by
  simp [toEntries_eq_map]

@[simp] theorem toEntries_fieldItems (fields : Entries) :
    Items.toEntries (fieldItems fields) = fields := by
  simp [toEntries_eq_map, fieldItems, Function.comp_def, Item.toValue]

/-! ### The tables in a table -/

/-- A table of fields under its own heading. -/
def tableItems (tables : List (String × Entries)) : Items :=
  tables.map fun table => (table.1, .table .header (fieldItems table.2))

/-- The section of a table in the table `outer`. -/
def tableSection (outer : String) (table : String × Entries) : Section :=
  ⟨false, [outer, table.1], fieldPairs table.2⟩

variable {outer : String} {top inner : Items} {table : String × Entries}

theorem addTable_fresh {items : Items} (origin : Origin) (hnodup : (table.2.map (·.1)).Nodup)
    (hfresh : items.lookup table.1 = none) :
    Items.addTable table.1 (fieldPairs table.2) origin items =
      some (items ++ tableItems [table]) := by
  have hfields : Items.assignAll [] (fieldPairs table.2) = some (fieldItems table.2) :=
    assignAll_fieldPairs hnodup fun _ _ => rfl
  simp [Items.addTable, hfresh, hfields, tableItems]

/-- The first heading in `outer` makes the table `outer`. -/
theorem addSection_first (htop : top.lookup outer = none) (hnodup : (table.2.map (·.1)).Nodup) :
    Items.addSection top (tableSection outer table) =
      some (top ++ [(outer, .table .implied (tableItems [table]))]) := by
  have hadd : Items.addTable table.1 (fieldPairs table.2) .implied [] = some (tableItems [table]) :=
    addTable_fresh .implied hnodup rfl
  simp [Items.addSection, tableSection, Items.update, htop, hadd]

/-- A further heading in `outer` adds to the table `outer`. -/
theorem addSection_next (htop : top.lookup outer = none) (hnodup : (table.2.map (·.1)).Nodup)
    (hfresh : inner.lookup table.1 = none) :
    Items.addSection (top ++ [(outer, .table .implied inner)]) (tableSection outer table) =
      some (top ++ [(outer, .table .implied (inner ++ tableItems [table]))]) := by
  have hlookup : (top ++ [(outer, Item.table .implied inner)]).lookup outer =
      some (.table .implied inner) := by
    simp [List.lookup_append, htop]
  have hreplace (item : Item) :
      Items.replace (top ++ [(outer, .table .implied inner)]) outer item =
        top ++ [(outer, item)] := by
    have hkeep : ∀ entry ∈ top, (if entry.1 = outer then (outer, item) else entry) = entry := by
      intro entry hentry
      have hne : entry.1 ≠ outer := fun h =>
        lookup_eq_none_iff.mp htop (h ▸ List.mem_map_of_mem hentry)
      rw [if_neg hne]
    simp [Items.replace, List.map_congr_left hkeep]
  simp [Items.addSection, tableSection, Items.update, hlookup, hreplace,
    addTable_fresh .implied hnodup hfresh]

/-- Headings in `outer` with different names add their tables one behind the other. -/
theorem foldlM_addSection_next {tables : List (String × Entries)} (htop : top.lookup outer = none)
    (hnodup : (tables.map (·.1)).Nodup) (hfields : ∀ table ∈ tables, (table.2.map (·.1)).Nodup)
    (hfresh : ∀ table ∈ tables, inner.lookup table.1 = none) :
    (tables.map (tableSection outer)).foldlM Items.addSection
        (top ++ [(outer, .table .implied inner)]) =
      some (top ++ [(outer, .table .implied (inner ++ tableItems tables))]) := by
  induction tables generalizing inner with
  | nil => simp [tableItems]
  | cons table tables ih =>
    obtain ⟨htable, hmore⟩ := List.forall_mem_cons.mp hfields
    obtain ⟨hfirst, hrest⟩ := List.forall_mem_cons.mp hfresh
    rw [List.map_cons, List.nodup_cons] at hnodup
    have hlater : ∀ next ∈ tables, (inner ++ tableItems [table]).lookup next.1 = none :=
      fun next hnext => lookup_append_single _ (hrest next hnext)
        fun h => hnodup.1 (h ▸ List.mem_map_of_mem hnext)
    rw [List.map_cons, List.foldlM_cons, addSection_next htop htable hfirst]
    simpa [tableItems] using ih hnodup.2 hmore hlater

/-- A document that is nothing but headings in `outer` below its top. -/
theorem foldlM_addSection {tables : List (String × Entries)} (hne : tables ≠ [])
    (htop : top.lookup outer = none) (hnodup : (tables.map (·.1)).Nodup)
    (hfields : ∀ table ∈ tables, (table.2.map (·.1)).Nodup) :
    (tables.map (tableSection outer)).foldlM Items.addSection top =
      some (top ++ [(outer, .table .implied (tableItems tables))]) := by
  obtain ⟨table, tables, rfl⟩ := List.exists_cons_of_ne_nil hne
  obtain ⟨htable, hmore⟩ := List.forall_mem_cons.mp hfields
  rw [List.map_cons, List.nodup_cons] at hnodup
  have hlater : ∀ next ∈ tables, (tableItems [table]).lookup next.1 = none := fun next hnext =>
    @lookup_append_single [] _ _ _ rfl fun h => hnodup.1 (h ▸ List.mem_map_of_mem hnext)
  rw [List.map_cons, List.foldlM_cons, addSection_first htop htable]
  exact foldlM_addSection_next htop hnodup.2 hmore hlater

@[simp] theorem toEntries_tableItems (tables : List (String × Entries)) :
    Items.toEntries (tableItems tables) = tables.map fun table => (table.1, .table table.2) := by
  rw [toEntries_eq_map]
  simp [tableItems, Function.comp_def, Item.toValue]

/-! ### Documents -/

variable {fields : Entries}

/-- A document is made from the fields at its top, and then from its sections. -/
theorem documentOf_said {more : List Section} {items : Items} (hnodup : (fields.map (·.1)).Nodup)
    (hmore : more.foldlM Items.addSection (fieldItems fields) = some items) :
    documentOf (fieldsSaid fields ++ more.flatMap Section.said) = some (Items.toEntries items) := by
  have htop : Items.assignAll [] (fieldPairs fields) = some (fieldItems fields) :=
    assignAll_fieldPairs hnodup fun _ _ => rfl
  rw [documentOf, fieldsSaid, sections_pairsSaid, sections_said, List.append_nil]
  simp only [htop, hmore, Option.bind_eq_bind, Option.bind_some]
  rfl

theorem lookup_fieldItems {name : String} (h : name ∉ fields.map (·.1)) :
    (fieldItems fields).lookup name = none := by
  rw [lookup_eq_none_iff]
  simpa [fieldItems] using h

/-- The sections of the table `outer`: one for each of its tables, or one for `outer` itself if it
has none. -/
def outerSections (outer : String) (tables : List (String × Entries)) : List Section :=
  if tables = [] then [⟨false, [outer], []⟩] else tables.map (tableSection outer)

/-- A document of fields and of the tables in one more table. -/
theorem documentOf_tables {tables : List (String × Entries)} (htop : (fields.map (·.1)).Nodup)
    (houter : outer ∉ fields.map (·.1)) (hnodup : (tables.map (·.1)).Nodup)
    (htables : ∀ table ∈ tables, (table.2.map (·.1)).Nodup) :
    documentOf (fieldsSaid fields ++ (outerSections outer tables).flatMap Section.said) =
      some (fields ++ [(outer, .table (tables.map fun table => (table.1, .table table.2)))]) := by
  have hlookup := lookup_fieldItems houter
  rw [outerSections]
  split
  · next hnil =>
    have hadd : [⟨false, [outer], []⟩].foldlM Items.addSection (fieldItems fields) =
        some (fieldItems fields ++ [(outer, .table .header [])]) := by
      simp [Items.addSection, Items.update, Items.addTable, Items.assignAll, hlookup]
    rw [documentOf_said htop hadd]
    simp [Items.toEntries, Item.toValue, hnil]
  · next hne =>
    rw [documentOf_said htop (foldlM_addSection hne hlookup hnodup htables)]
    simp [Items.toEntries, Item.toValue]

end ActivationOrder.Toml
