import Mathlib.Data.List.Nodup
import ActivationOrder.Toml.Document

/-!
No table of a document names a key twice, however deep it stands. While a document is put together,
every change of a table either adds an entry under a key that is not there, or changes the entry of
a key in its place; the readers of values put inline tables together in the same way.
-/

namespace ActivationOrder.Toml

/-! ### Tables under construction -/

/-- Neither an array nor a table. -/
def Value.IsScalar : Value → Prop
  | .array _ => False
  | .table _ => False
  | _ => True

/-- No table in the value names a key twice. -/
inductive Value.Distinct : Value → Prop
  | scalar {value : Value} (h : value.IsScalar) : Distinct value
  | array {items : List Value} (h : ∀ item ∈ items, Distinct item) : Distinct (.array items)
  | table {entries : Entries} (hnodup : (entries.map (·.1)).Nodup)
      (h : ∀ entry ∈ entries, Distinct entry.2) : Distinct (.table entries)

theorem Value.Distinct.nodup_keys {entries : Entries} (h : (Value.table entries).Distinct) :
    (entries.map (·.1)).Nodup := by
  cases h with
  | scalar h => exact h.elim
  | table hnodup _ => exact hnodup

theorem Value.Distinct.of_mem {entries : Entries} (h : (Value.table entries).Distinct)
    {entry : String × Value} (hentry : entry ∈ entries) : entry.2.Distinct := by
  cases h with
  | scalar h => exact h.elim
  | table _ h => exact h entry hentry

/-- No table in the item names a key twice. -/
inductive Item.Distinct : Item → Prop
  | value {value : Value} (h : value.Distinct) : Distinct (.value value)
  | table {origin : Origin} {items : Items} (hnodup : (items.map (·.1)).Nodup)
      (h : ∀ entry ∈ items, Distinct entry.2) : Distinct (.table origin items)
  | tables {elements : List Items} (hnodup : ∀ items ∈ elements, (items.map (·.1)).Nodup)
      (h : ∀ items ∈ elements, ∀ entry ∈ items, Distinct entry.2) : Distinct (.tables elements)

/-- A table under construction has different keys, and so have those in it. -/
structure Items.Distinct (items : Items) : Prop where
  nodup : (items.map (·.1)).Nodup
  all : ∀ entry ∈ items, entry.2.Distinct

/-- Finished tables have the keys that they had under construction. -/
theorem Item.Distinct.toValue {item : Item} (h : item.Distinct) : item.toValue.Distinct := by
  induction h with
  | value h => exact h
  | @table origin items hnodup _ ih =>
    rw [Item.toValue]
    refine .table (by rwa [map_fst_toEntries]) ?_
    rw [toEntries_eq_map]
    exact List.forall_mem_map.mpr ih
  | @tables elements hnodup _ ih =>
    rw [Item.toValue, toTables_eq_map]
    refine .array (List.forall_mem_map.mpr fun items hitems => ?_)
    refine .table (by rw [map_fst_toEntries]; exact hnodup items hitems) ?_
    rw [toEntries_eq_map]
    exact List.forall_mem_map.mpr (ih items hitems)

namespace Items.Distinct

variable {items next : Items} {key : String} {item : Item}

theorem nil : Items.Distinct [] := ⟨List.nodup_nil, by simp⟩

theorem of_table {origin : Origin} (h : (Item.table origin items).Distinct) : items.Distinct := by
  cases h with
  | table hnodup h => exact ⟨hnodup, h⟩

theorem of_tables {elements : List Items} (h : (Item.tables elements).Distinct) :
    ∀ items ∈ elements, Items.Distinct items := by
  cases h with
  | tables hnodup h => exact fun items hitems => ⟨hnodup items hitems, h items hitems⟩

theorem tables {elements : List Items} (h : ∀ items ∈ elements, Items.Distinct items) :
    (Item.tables elements).Distinct :=
  .tables (fun items hitems => (h items hitems).nodup) fun items hitems => (h items hitems).all

theorem toEntries (h : items.Distinct) : (Value.table (Items.toEntries items)).Distinct := by
  have htable : (Item.table .header items).Distinct := .table h.nodup h.all
  exact htable.toValue

theorem of_lookup (h : items.Distinct) (hlookup : items.lookup key = some item) :
    item.Distinct :=
  h.all (key, item) (mem_of_lookup hlookup)

/-- A new key. -/
theorem append (h : items.Distinct) (hkey : items.lookup key = none) (hitem : item.Distinct) :
    Items.Distinct (items ++ [(key, item)]) := by
  refine ⟨?_, List.forall_mem_append.mpr ⟨h.all, by simpa using hitem⟩⟩
  rw [List.map_append, List.nodup_append_comm]
  exact List.nodup_cons.mpr ⟨lookup_eq_none_iff.mp hkey, h.nodup⟩

/-- A key that is there already. -/
theorem replace (h : items.Distinct) (hitem : item.Distinct) :
    (Items.replace items key item).Distinct := by
  rw [Items.replace]
  constructor
  · have hkeys : (items.map fun entry => if entry.1 = key then (key, item) else entry).map (·.1) =
        items.map (·.1) := by
      rw [List.map_map]
      refine List.map_congr_left fun entry _ => ?_
      rw [Function.comp_apply]
      split
      · next heq => exact heq.symm
      · rfl
    rw [hkeys]
    exact h.nodup
  · refine List.forall_mem_map.mpr fun entry hentry => ?_
    split
    · exact hitem
    · exact h.all entry hentry

theorem remove (h : items.Distinct) : (Items.remove items key).Distinct := by
  have hsub : (Items.remove items key).Sublist items := List.filter_sublist
  exact ⟨h.nodup.sublist (hsub.map _), fun entry hentry => h.all entry (hsub.subset hentry)⟩

/-- A change at the end of a path keeps keys different when it does so where it is made. -/
theorem update {made : Origin} {change : Origin → Items → Option Items}
    (hchange : ∀ {origin : Origin} {items next : Items}, items.Distinct →
      change origin items = some next → next.Distinct) :
    ∀ {path : List String} {origin : Origin} {items next : Items}, items.Distinct →
      Items.update made change path origin items = some next → next.Distinct
  | [], _, _, _, h, hupdate => hchange h hupdate
  | key :: path, _, items, _, h, hupdate => by
    rw [Items.update] at hupdate
    cases hlookup : items.lookup key with
    | none =>
      simp only [hlookup, Option.map_eq_some_iff] at hupdate
      obtain ⟨inner, hinner, rfl⟩ := hupdate
      have hdistinct := update hchange nil hinner
      exact h.append hlookup (.table hdistinct.nodup hdistinct.all)
    | some item =>
      cases item with
      | value v => simp [hlookup] at hupdate
      | tables elements =>
        have helements := of_tables (h.of_lookup hlookup)
        cases hlast : elements.getLast? with
        | none => simp [hlookup, hlast] at hupdate
        | some last =>
          simp only [hlookup, hlast, Option.map_eq_some_iff] at hupdate
          obtain ⟨inner, hinner, rfl⟩ := hupdate
          have hdistinct := update hchange (helements last (List.mem_of_getLast? hlast)) hinner
          refine h.replace (tables (List.forall_mem_append.mpr ⟨fun items hitems => ?_, ?_⟩))
          · exact helements items (List.dropLast_subset elements hitems)
          · simpa using hdistinct
      | table origin inner =>
        simp only [hlookup] at hupdate
        split at hupdate
        · cases hupdate
        · rw [Option.map_eq_some_iff] at hupdate
          obtain ⟨next, hnext, rfl⟩ := hupdate
          have hdistinct := update hchange (of_table (h.of_lookup hlookup)) hnext
          exact h.replace (.table hdistinct.nodup hdistinct.all)

theorem add {isDotted : Bool} {v : Value} {origin : Origin} (hv : v.Distinct) (h : items.Distinct)
    (hadd : Items.add isDotted key v origin items = some next) : next.Distinct := by
  rw [Items.add] at hadd
  split at hadd
  · cases hadd
  · split at hadd
    · cases hadd
    · next hnone =>
      cases hadd
      exact h.append (Option.not_isSome_iff_eq_none.mp hnone) (.value hv)

theorem assign {path : List String} {v : Value} (hv : v.Distinct) (h : items.Distinct)
    (hassign : Items.assign items path v = some next) : next.Distinct := by
  rw [Items.assign] at hassign
  cases hkey : path.getLast? with
  | none => simp [hkey] at hassign
  | some key =>
    simp only [hkey] at hassign
    exact update (add hv) h hassign

theorem assignAll {pairs : Pairs} (hpairs : ∀ pair ∈ pairs, pair.2.Distinct) :
    ∀ {items next : Items}, items.Distinct → Items.assignAll items pairs = some next →
      next.Distinct := by
  induction pairs with
  | nil =>
    rintro items _ h ⟨⟩
    exact h
  | cons pair pairs ih =>
    intro items next h hassign
    obtain ⟨hpair, hrest⟩ := List.forall_mem_cons.mp hpairs
    simp only [Items.assignAll, List.foldlM_cons, Option.bind_eq_bind,
      Option.bind_eq_some_iff] at hassign
    obtain ⟨mid, hmid, hnext⟩ := hassign
    exact ih hrest (h.assign hpair hmid) hnext

end Items.Distinct

theorem distinct_tableOf {pairs : Pairs} {v : Value} (hpairs : ∀ pair ∈ pairs, pair.2.Distinct)
    (h : tableOf pairs = some v) : v.Distinct := by
  rw [tableOf, Option.map_eq_some_iff] at h
  obtain ⟨items, hitems, rfl⟩ := h
  exact (Items.Distinct.assignAll hpairs .nil hitems).toEntries

/-! ### Sections -/

namespace Items.Distinct

variable {items next : Items} {key : String} {pairs : Pairs} {origin : Origin}

theorem addTable (hpairs : ∀ pair ∈ pairs, pair.2.Distinct) (h : items.Distinct)
    (hadd : Items.addTable key pairs origin items = some next) : next.Distinct := by
  rw [Items.addTable] at hadd
  split at hadd
  · next hnone =>
    obtain ⟨inner, hinner, rfl⟩ := Option.map_eq_some_iff.mp hadd
    have hdistinct := assignAll hpairs nil hinner
    exact h.append hnone (.table hdistinct.nodup hdistinct.all)
  · next inner hlookup =>
    obtain ⟨last, hlast, rfl⟩ := Option.map_eq_some_iff.mp hadd
    have hdistinct := assignAll hpairs (of_table (h.of_lookup hlookup)) hlast
    refine h.remove.append ?_ (.table hdistinct.nodup hdistinct.all)
    rw [lookup_eq_none_iff, Items.remove, List.mem_map]
    rintro ⟨entry, hentry, rfl⟩
    exact of_decide_eq_true (List.mem_filter.mp hentry).2 rfl
  · cases hadd

theorem addElement (hpairs : ∀ pair ∈ pairs, pair.2.Distinct) (h : items.Distinct)
    (hadd : Items.addElement key pairs origin items = some next) : next.Distinct := by
  rw [Items.addElement] at hadd
  split at hadd
  · next hnone =>
    obtain ⟨inner, hinner, rfl⟩ := Option.map_eq_some_iff.mp hadd
    refine h.append hnone (tables (List.forall_mem_singleton.mpr ?_))
    exact assignAll hpairs nil hinner
  · next elements hlookup =>
    obtain ⟨inner, hinner, rfl⟩ := Option.map_eq_some_iff.mp hadd
    refine h.replace (tables (List.forall_mem_append.mpr ⟨of_tables (h.of_lookup hlookup), ?_⟩))
    exact List.forall_mem_singleton.mpr (assignAll hpairs nil hinner)
  · cases hadd

theorem addSection {s : Section} (hpairs : ∀ pair ∈ s.pairs, pair.2.Distinct) (h : items.Distinct)
    (hadd : Items.addSection items s = some next) : next.Distinct := by
  rw [Items.addSection] at hadd
  split at hadd
  · cases hadd
  · dsimp only at hadd
    split at hadd
    · exact update (addElement hpairs) h hadd
    · exact update (addTable hpairs) h hadd

end Items.Distinct

/-! ### Values -/

/-- Every value that the reader gives has the property. -/
def Yields (P : Value → Prop) (reader : List Char → Option (Value × List Char)) : Prop :=
  ∀ ⦃text : List Char⦄ ⦃v : Value⦄ ⦃rest : List Char⦄, reader text = some (v, rest) → P v

theorem Yields.orElse {P : Value → Prop} {first second : List Char → Option (Value × List Char)}
    (hfirst : Yields P first) (hsecond : Yields P second) :
    Yields P fun text => first text <|> second text := by
  intro text v rest h
  simp only [Option.orElse_eq_orElse, Option.orElse_eq_or, Option.or_eq_some_iff] at h
  rcases h with h | ⟨-, h⟩
  · exact hfirst h
  · exact hsecond h

theorem isScalar_of_fitting {number : Int} {v : Value} (h : fitting number = some v) :
    v.IsScalar := by
  rw [fitting] at h
  split at h
  · cases h
    trivial
  · cases h

theorem yields_based (base : Nat) : Yields Value.IsScalar (based base) := by
  intro text v rest h
  simp only [based, Option.bind_eq_bind, Option.bind_eq_some_iff] at h
  obtain ⟨ds, hds, number, hnumber, heq⟩ := h
  cases heq
  exact isScalar_of_fitting hnumber

theorem yields_integer : Yields Value.IsScalar integer := by
  intro text v rest h
  rw [integer.eq_def] at h
  split at h
  · exact yields_based 16 h
  · exact yields_based 8 h
  · exact yields_based 2 h
  · simp only [Option.bind_eq_bind, Option.bind_eq_some_iff] at h
    obtain ⟨ds, hds, number, hnumber, heq⟩ := h
    cases heq
    exact isScalar_of_fitting hnumber

theorem yields_specialFloat : Yields Value.IsScalar specialFloat := by
  intro text v rest h
  rw [specialFloat] at h
  dsimp only at h
  split at h <;> cases h <;> trivial

theorem yields_finiteFloat : Yields Value.IsScalar finiteFloat := by
  intro text v rest h
  simp only [finiteFloat, Option.bind_eq_bind, Option.bind_eq_some_iff] at h
  obtain ⟨whole, hwhole, tail, htail, h⟩ := h
  split at h <;> cases h
  trivial

theorem yields_float : Yields Value.IsScalar float := yields_finiteFloat.orElse yields_specialFloat

theorem yields_moment : Yields Value.IsScalar moment := by
  intro text v rest h
  rw [moment] at h
  split at h
  · cases h
    trivial
  · obtain ⟨clock, hclock, heq⟩ := Option.map_eq_some_iff.mp h
    cases heq
    trivial

/-- What holds no others is neither an array nor a table. -/
theorem yields_scalar : Yields Value.IsScalar scalar := by
  intro text v rest h
  rw [scalar.eq_def] at h
  split at h
  · cases h
  · obtain ⟨left, -, heq⟩ := Option.map_eq_some_iff.mp h
    cases heq
    trivial
  · obtain ⟨left, -, heq⟩ := Option.map_eq_some_iff.mp h
    cases heq
    trivial
  · split at h
    · obtain ⟨chars, -, heq⟩ := Option.map_eq_some_iff.mp h
      cases heq
      trivial
    · split at h
      · exact yields_moment.orElse (yields_float.orElse yields_integer) h
      · exact yields_specialFloat h

variable {reader : List Char → Option (Value × List Char)}

theorem distinct_elements (hreader : Yields Value.Distinct reader) : ∀ {bound : Nat}
    {text : List Char} {values : List Value} {rest : List Char},
    elements reader bound text = some (values, rest) → ∀ v ∈ values, v.Distinct
  | 0, _, _, _, h => by simp [elements] at h
  | bound + 1, text, values, rest, h => by
    rw [elements] at h
    split at h
    · cases h
      simp
    · simp only [Option.bind_eq_bind, Option.bind_eq_some_iff] at h
      obtain ⟨⟨v, left⟩, hv, h⟩ := h
      split at h
      · cases h
        exact List.forall_mem_singleton.mpr (hreader hv)
      · simp only [Option.bind_eq_some_iff] at h
        obtain ⟨⟨more, left⟩, hmore, heq⟩ := h
        cases heq
        exact List.forall_mem_cons.mpr ⟨hreader hv, distinct_elements hreader hmore⟩
      · cases h

theorem distinct_pair (hreader : Yields Value.Distinct reader) {text rest : List Char}
    {said : List String × Value} (h : pair reader text = some (said, rest)) : said.2.Distinct := by
  simp only [pair, Option.bind_eq_bind, Option.bind_eq_some_iff] at h
  obtain ⟨path, -, left, -, ⟨v, last⟩, hv, heq⟩ := h
  cases heq
  exact hreader hv

theorem distinct_inlinePairs (hreader : Yields Value.Distinct reader) : ∀ {bound : Nat}
    {text : List Char} {pairs : Pairs} {rest : List Char},
    inlinePairs reader bound text = some (pairs, rest) → ∀ pair ∈ pairs, pair.2.Distinct
  | 0, _, _, _, h => by simp [inlinePairs] at h
  | bound + 1, text, pairs, rest, h => by
    simp only [inlinePairs, Option.bind_eq_bind, Option.bind_eq_some_iff] at h
    obtain ⟨⟨first, left⟩, hfirst, h⟩ := h
    have hdistinct := distinct_pair hreader hfirst
    split at h
    · cases h
      exact List.forall_mem_singleton.mpr hdistinct
    · simp only [Option.bind_eq_some_iff] at h
      obtain ⟨⟨more, left⟩, hmore, heq⟩ := h
      cases heq
      exact List.forall_mem_cons.mpr ⟨hdistinct, distinct_inlinePairs hreader hmore⟩
    · cases h

theorem yields_inlineTable (hreader : Yields Value.Distinct reader) :
    Yields Value.Distinct (inlineTable reader) := by
  intro text v rest h
  rw [inlineTable] at h
  split at h
  · cases h
    exact .table List.nodup_nil (by simp)
  · simp only [Option.bind_eq_bind, Option.bind_eq_some_iff] at h
    obtain ⟨⟨pairs, left⟩, hpairs, table, htable, heq⟩ := h
    cases heq
    exact distinct_tableOf (distinct_inlinePairs hreader hpairs) htable

theorem yields_value (depth : Nat) : Yields Value.Distinct (value depth) := by
  induction depth with
  | zero => exact fun _ _ _ h => .scalar (yields_scalar h)
  | succ depth ih =>
    intro text v rest h
    rw [value.eq_def] at h
    dsimp only at h
    split at h
    · obtain ⟨⟨values, left⟩, hvalues, heq⟩ := Option.map_eq_some_iff.mp h
      cases heq
      exact .array (distinct_elements ih hvalues)
    · exact yields_inlineTable ih h
    · exact .scalar (yields_scalar h)

/-! ### Documents -/

/-- In what a statement assigns, no table names a key twice. -/
def Statement.Distinct : Statement → Prop
  | .pair _ v => v.Distinct
  | _ => True

theorem distinct_heading {text rest : List Char} {said : Statement}
    (h : heading text = some (said, rest)) : said.Distinct := by
  rw [heading.eq_def] at h
  split at h <;> simp only [Option.bind_eq_bind, Option.bind_eq_some_iff] at h
  · obtain ⟨path, -, left, -, last, -, heq⟩ := h
    cases heq
    trivial
  · obtain ⟨path, -, left, -, heq⟩ := h
    cases heq
    trivial

theorem distinct_statement {text rest : List Char} {said : Statement}
    (h : statement text = some (said, rest)) : said.Distinct := by
  rw [statement.eq_def] at h
  split at h
  · exact distinct_heading h
  · obtain ⟨⟨pair, left⟩, hpair, heq⟩ := Option.map_eq_some_iff.mp h
    cases heq
    exact distinct_pair (yields_value depthLimit) hpair

theorem distinct_statements : ∀ {bound : Nat} {text : List Char} {said : List Statement},
    statements bound text = some said → ∀ s ∈ said, s.Distinct
  | 0, _, _, h => by simp [statements] at h
  | bound + 1, text, said, h => by
    rw [statements] at h
    split at h
    · cases h
      simp
    · exact distinct_statements h
    · exact distinct_statements h
    · simp only [Option.bind_eq_bind, Option.bind_eq_some_iff] at h
      obtain ⟨left, -, h⟩ := h
      exact distinct_statements h
    · simp only [Option.bind_eq_bind, Option.bind_eq_some_iff] at h
      obtain ⟨⟨first, left⟩, hfirst, next, -, more, hmore, heq⟩ := h
      cases heq
      exact List.forall_mem_cons.mpr ⟨distinct_statement hfirst, distinct_statements hmore⟩

theorem distinct_sections {said : List Statement} (h : ∀ s ∈ said, s.Distinct) :
    (∀ pair ∈ (sections said).1, pair.2.Distinct) ∧
      ∀ s ∈ (sections said).2, ∀ pair ∈ s.pairs, pair.2.Distinct := by
  induction said with
  | nil => simp [sections]
  | cons s said ih =>
    obtain ⟨hs, hsaid⟩ := List.forall_mem_cons.mp h
    obtain ⟨hpairs, hmore⟩ := ih hsaid
    cases s with
    | pair path v => exact ⟨List.forall_mem_cons.mpr ⟨hs, hpairs⟩, hmore⟩
    | table path => exact ⟨by simp [sections], List.forall_mem_cons.mpr ⟨hpairs, hmore⟩⟩
    | element path => exact ⟨by simp [sections], List.forall_mem_cons.mpr ⟨hpairs, hmore⟩⟩

theorem Items.Distinct.addSections {more : List Section}
    (hmore : ∀ s ∈ more, ∀ pair ∈ s.pairs, pair.2.Distinct) : ∀ {items next : Items},
    items.Distinct → more.foldlM Items.addSection items = some next → next.Distinct := by
  induction more with
  | nil =>
    rintro items _ h ⟨⟩
    exact h
  | cons s more ih =>
    intro items next h hadd
    obtain ⟨hs, hrest⟩ := List.forall_mem_cons.mp hmore
    simp only [List.foldlM_cons, Option.bind_eq_bind, Option.bind_eq_some_iff] at hadd
    obtain ⟨mid, hmid, hnext⟩ := hadd
    exact ih hrest (h.addSection hs hmid) hnext

/-- No table of a document names a key twice. -/
theorem distinct_of_document {text : String} {fields : Entries} (h : document? text = some fields) :
    (Value.table fields).Distinct := by
  simp only [document?, documentOf, Option.bind_eq_bind, Option.bind_eq_some_iff] at h
  obtain ⟨said, hsaid, top, htop, items, hitems, heq⟩ := h
  cases heq
  obtain ⟨hpairs, hmore⟩ := distinct_sections (distinct_statements hsaid)
  exact (Items.Distinct.addSections hmore (.assignAll hpairs .nil htop) hitems).toEntries

end ActivationOrder.Toml
