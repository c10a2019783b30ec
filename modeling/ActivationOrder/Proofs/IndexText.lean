import ActivationOrder.Proofs.Documents
import ActivationOrder.Proofs.FileNames
import ActivationOrder.Proofs.Reading
import ActivationOrder.Proofs.Statements

/-!
The text of an index is read back as this index, whatever characters its unit ids are made of. Four
steps meet in `ofText_text`: the lines of the text are read as statements, the statements make up
the entries of a document, the entries decode to the declarations they were written from, and these
mean the metadata that was declared. Writer and reader share no text in these steps, only the
entries in the middle: `Declaration.fields` for one unit, `indexEntries` for the whole index.
-/

namespace ActivationOrder

open Toml

/-! ### What is written -/

/-- A set of units as a value. -/
def unitsValue (units : UnitSet) : Value :=
  .array (units.toList.map fun unit => .string unit.text)

/-- The field of a set of units, unless it is empty. -/
def unitsField (name : String) (units : UnitSet) : Entries :=
  if units.isEmpty then [] else [(name, unitsValue units)]

/-- The field of an order, if there is one. -/
def orderField : Option Order → Entries
  | some order => [("order", .integer order.value)]
  | none => []

/-- The fields that a declaration is written as. -/
def Declaration.fields (declared : Declaration) : Entries :=
  orderField declared.order ++ unitsField "before" declared.before ++
    unitsField "after" declared.after

/-- The tables that declarations are written as. -/
def tablesOf (units : UnitMap Declaration) : List (String × Entries) :=
  units.toList.map fun entry => (entry.1.text, entry.2.fields)

/-- The fields that every index starts with. -/
def indexHead : Entries :=
  [("kind", .string indexKind), ("schema_version", .integer indexVersion)]

/-- The entries that an index is written as. -/
def indexEntries (units : UnitMap Declaration) : Entries :=
  indexHead ++ [("units", .table ((tablesOf units).map fun table => (table.1, .table table.2)))]

/-! ### Lines -/

variable {rest : List Char} {said : List Statement}

theorem reads_writtenOrder (order : Option Order) (hrest : Reads rest said) :
    Reads (writtenOrder order ++ rest) (fieldsSaid (orderField order) ++ said) := by
  cases order with
  | none => exact hrest
  | some order =>
    have htext : order.text.toList = numeral order.value := toList_toString_int order.value
    have hlower := order.lower
    have hupper := order.upper
    have hfits : fitting order.value = some (.integer order.value) := if_pos (by omega)
    rw [writtenOrder, htext]
    exact reads_integer (by decide) hfits hrest

theorem reads_writtenUnits (name : String) (units : UnitSet)
    (hname : isBareName name.toList = true) (hrest : Reads rest said) :
    Reads (writtenUnits name units ++ rest) (fieldsSaid (unitsField name units) ++ said) := by
  rw [writtenUnits, unitsField]
  split
  · exact hrest
  · have hline := reads_array hname (units.toList.map fun unit => unit.text.toList) hrest
    simp only [List.map_map, Function.comp_def, String.ofList_toList] at hline
    exact hline

/-- The lines of one unit. -/
theorem reads_writtenUnit (unit : UnitId) (declared : Declaration) (hrest : Reads rest said) :
    Reads (writtenUnit unit declared ++ rest)
      ((tableSection "units" (unit.text, declared.fields)).said ++ said) := by
  -- from the last line to the first
  have hafter := reads_writtenUnits "after" declared.after (by decide) hrest
  have hbefore := reads_writtenUnits "before" declared.before (by decide) hafter
  have hfields := reads_writtenOrder declared.order hbefore
  have hlines := reads_blankLine (reads_unitHeading unit.text.toList hfields)
  have hsaid : (tableSection "units" (unit.text, declared.fields)).said =
      .table ["units", String.ofList unit.text.toList] :: fieldsSaid declared.fields := by
    rw [String.ofList_toList]
    rfl
  rw [hsaid]
  unfold writtenUnit
  simpa [Declaration.fields] using hlines

/-- The lines of all units. -/
theorem reads_flatMap_writtenUnit (units : List (UnitId × Declaration)) :
    Reads (units.flatMap fun (unit, declared) => writtenUnit unit declared)
      (units.flatMap fun entry => (tableSection "units" (entry.1.text, entry.2.fields)).said) := by
  induction units with
  | nil => exact reads_nil
  | cons entry units ih => exact reads_writtenUnit entry.1 entry.2 ih

/-- The text of an index. -/
theorem reads_writtenIndex (units : UnitMap Declaration) :
    Reads (writtenIndex units).toList
      (fieldsSaid indexHead ++ (outerSections "units" (tablesOf units)).flatMap Section.said) := by
  have hunits : Reads
      (if units.isEmpty then "\n[units]\n".toList
        else units.toList.flatMap fun (unit, declared) => writtenUnit unit declared)
      ((outerSections "units" (tablesOf units)).flatMap Section.said) := by
    have hempty : tablesOf units = [] ↔ units.isEmpty = true := by
      rw [tablesOf, List.map_eq_nil_iff, ← List.isEmpty_iff, Std.ExtTreeMap.isEmpty_toList]
    rw [outerSections]
    by_cases h : units.isEmpty = true
    · rw [if_pos h, if_pos (hempty.mpr h)]
      exact reads_blankLine (reads_unitsHeading reads_nil)
    · rw [if_neg h, if_neg fun heq => h (hempty.mp heq)]
      simpa [tablesOf, List.flatMap_map] using reads_flatMap_writtenUnit units.toList
  have hversion := @reads_integer "schema_version" (by decide) 1 rfl _ _ hunits
  have hkind := @reads_string "kind" (by decide) indexKind.toList _ _ hversion
  rw [String.ofList_toList] at hkind
  unfold writtenIndex
  rw [String.toList_ofList, List.append_assoc]
  exact hkind

/-! ### Decoding -/

/-- A fold whose steps all succeed is a fold without failures. -/
theorem foldlM_map_eq_ok {α β γ ε : Type} {encode : α → β} {read : γ → β → Except ε γ}
    {add : γ → α → γ} (h : ∀ state item, read state (encode item) = .ok (add state item))
    (items : List α) (start : γ) :
    (items.map encode).foldlM read start = .ok (items.foldl add start) := by
  induction items generalizing start with
  | nil => rfl
  | cons item items ih =>
    rw [List.map_cons, List.foldlM_cons, h, List.foldl_cons]
    exact ih _

/-- A set is made again from its members. -/
theorem foldl_insert_toList_set (set : UnitSet) : set.toList.foldl (·.insert ·) ∅ = set := by
  refine Std.ExtTreeSet.ext_mem fun unit => ?_
  rw [mem_foldl_insert, Std.ExtTreeSet.mem_toList]
  simp

theorem decodeUnits_unitsValue (units : UnitSet) : decodeUnits (unitsValue units) = .ok units := by
  have hunit (set : UnitSet) (unit : UnitId) :
      (return set.insert (← decodeUnit (.string unit.text)) : Except DecodeError UnitSet) =
        .ok (set.insert unit) := by
    simp [decodeUnit, decodeText, bind, Except.bind, pure, Except.pure]
  rw [unitsValue, decodeUnits, foldlM_map_eq_ok hunit, foldl_insert_toList_set]

/-- A declaration with more fields, one after the other. -/
def Declaration.withFields (declared : Declaration) (fields : Entries) :
    Except DecodeError Declaration :=
  fields.foldlM (fun declared field => declared.withField field.1 field.2) declared

/-- A field of units is read, or it was left out because there are none. -/
theorem withFields_unitsField {declared next : Declaration} {name : String} {units : UnitSet}
    (hempty : units = ∅ → next = declared)
    (hfield : declared.withField name (unitsValue units) = .ok next) :
    declared.withFields (unitsField name units) = .ok next := by
  rw [unitsField]
  split
  · next h =>
    rw [hempty (Std.ExtTreeSet.isEmpty_iff.mp h)]
    rfl
  · rw [Declaration.withFields, List.foldlM_cons, hfield]
    rfl

/-- A declaration is read back from its fields. -/
theorem decodeFields_fields (declared : Declaration) :
    decodeFields declared.fields = .ok declared := by
  obtain ⟨order, before, after⟩ := declared
  have horder : Declaration.withFields {} (orderField order) = .ok ⟨order, ∅, ∅⟩ := by
    cases order with
    | none => rfl
    | some order =>
      have hfield : Declaration.withField {} "order" (.integer order.value) =
          .ok ⟨some order, ∅, ∅⟩ := by
        simp [Declaration.withField, decodeOrder, bind, Except.bind, pure, Except.pure]
      rw [orderField, Declaration.withFields, List.foldlM_cons, hfield]
      rfl
  have hbefore : Declaration.withFields ⟨order, ∅, ∅⟩ (unitsField "before" before) =
      .ok ⟨order, before, ∅⟩ := by
    refine withFields_unitsField (fun h => by rw [h]) ?_
    simp [Declaration.withField, decodeUnits_unitsValue, bind, Except.bind, pure, Except.pure]
  have hafter : Declaration.withFields ⟨order, before, ∅⟩ (unitsField "after" after) =
      .ok ⟨order, before, after⟩ := by
    refine withFields_unitsField (fun h => by rw [h]) ?_
    simp [Declaration.withField, decodeUnits_unitsValue, bind, Except.bind, pure, Except.pure]
  rw [Declaration.withFields] at horder hbefore hafter
  rw [decodeFields, Declaration.fields, List.foldlM_append, List.foldlM_append, horder]
  simp only [bind, Except.bind, hbefore, hafter]

/-- A map is made again from its entries. -/
theorem foldl_insert_toList {α : Type} (map : UnitMap α) :
    map.toList.foldl (fun units entry => units.insert entry.1 entry.2) ∅ = map := by
  rw [← Std.ExtTreeMap.insertMany_list_eq_foldl, ← Std.ExtTreeMap.ofList_eq_insertMany_empty]
  refine Std.ExtTreeMap.ext_getElem? fun unit => ?_
  cases h : map[unit]? with
  | none =>
    have hout : unit ∉ map := fun hmem => by
      rw [Std.ExtTreeMap.mem_iff_isSome_getElem?, h] at hmem
      cases hmem
    exact Std.ExtTreeMap.getElem?_ofList_of_contains_eq_false (by simpa using hout)
  | some entry =>
    exact Std.ExtTreeMap.getElem?_ofList_of_mem Std.ReflCmp.compare_self
      Std.ExtTreeMap.distinct_keys_toList (Std.ExtTreeMap.mem_toList_iff_getElem?_eq_some.mpr h)

theorem decodeIndexUnits_tables (units : UnitMap Declaration) :
    decodeIndexUnits (.table ((tablesOf units).map fun table => (table.1, .table table.2))) =
      .ok units := by
  have hentry (units : UnitMap Declaration) (entry : UnitId × Declaration) :
      addUnit units (entry.1.text, .table entry.2.fields) =
        .ok (units.insert entry.1 entry.2) := by
    simp [addUnit, decodeDeclaration, Value.entries?, decodeFields_fields, bind, Except.bind,
      pure, Except.pure]
  simp only [decodeIndexUnits, Value.entries?, tablesOf, List.map_map, Function.comp_def]
  rw [foldlM_map_eq_ok hentry, foldl_insert_toList]

theorem dispatchIndex_indexEntries (units : UnitMap Declaration) :
    dispatchIndex (indexEntries units) = .ok ⟨indexKind, indexVersion, units⟩ := by
  have hkind : decodeText (.string indexKind) = .ok indexKind := rfl
  have hversion : decodeVersion (.integer indexVersion) = .ok indexVersion := rfl
  have henvelope : decodeEnvelope (indexEntries units) = .ok (indexKind, indexVersion) := by
    simp [decodeEnvelope, indexEntries, indexHead, IndexFields.withEnvelopeField,
      IndexFields.envelope, hkind, hversion, bind, Except.bind, pure, Except.pure]
  have hindex : decodeIndex (indexEntries units) = .ok ⟨indexKind, indexVersion, units⟩ := by
    simp [decodeIndex, indexEntries, indexHead, IndexFields.withField, IndexFields.envelope, hkind,
      hversion, decodeIndexUnits_tables, bind, Except.bind, pure, Except.pure]
  rw [dispatchIndex, henvelope]
  simp [hindex]

theorem nodup_tablesOf (units : UnitMap Declaration) : ((tablesOf units).map (·.1)).Nodup := by
  rw [tablesOf, List.map_map, List.Nodup, List.pairwise_map]
  refine Std.ExtTreeMap.distinct_keys_toList.imp fun {a b} h heq => h ?_
  rw [UnitId.ext heq]
  exact Std.ReflCmp.compare_self

theorem nodup_fields (declared : Declaration) : (declared.fields.map (·.1)).Nodup := by
  obtain ⟨order, before, after⟩ := declared
  cases order <;> by_cases hbefore : before.isEmpty = true <;>
    by_cases hafter : after.isEmpty = true <;>
    simp [Declaration.fields, orderField, unitsField, hbefore, hafter]

theorem document?_writtenIndex (units : UnitMap Declaration) :
    document? (writtenIndex units) = some (indexEntries units) := by
  have hmark : dropMark (writtenIndex units).toList = (writtenIndex units).toList := by
    unfold writtenIndex
    rw [String.toList_ofList]
    rfl
  have htables : ∀ table ∈ tablesOf units, (table.2.map (·.1)).Nodup := by
    rintro table htable
    obtain ⟨entry, -, rfl⟩ := List.mem_map.mp htable
    exact nodup_fields entry.2
  rw [document?, hmark]
  simp only [reads_writtenIndex units _ (Nat.lt_succ_self _), Option.bind_eq_bind, Option.bind_some]
  exact documentOf_tables (by decide) (by decide) (nodup_tablesOf units) htables

theorem readIndex_writtenIndex (units : UnitMap Declaration) :
    readIndex (writtenIndex units) = .ok ⟨indexKind, indexVersion, units⟩ := by
  rw [readIndex, readDocument, document?_writtenIndex]
  exact dispatchIndex_indexEntries units

/-- What a declaration says that was made from metadata is this metadata. -/
theorem map_metadata_declaration (units : UnitMap Metadata) :
    (units.map fun _ metadata => metadata.declaration).map (fun _ declared => declared.metadata) =
      units := by
  refine Std.ExtTreeMap.ext_getElem? fun unit => ?_
  rw [Std.ExtTreeMap.getElem?_map, Std.ExtTreeMap.getElem?_map, Option.map_map]
  simp [Function.comp_def]

/-- A file with the text of an index is loaded as this index. -/
theorem Index.load_of_find {index : Index} {files : Files} {path : Path}
    (h : files.find path = .ok (.file index.text.toUTF8)) : load files path = .ok index := by
  rw [load, Files.readText_of_find h]
  simp only [ofText, text, readIndex_writtenIndex, ofDocument, map_metadata_declaration]

/-- Every index is read back from its own text: writing it loses nothing, and what is written is
always well-formed. -/
theorem Index.ofText_text (index : Index) : Index.ofText index.text = .ok index := by
  obtain ⟨units⟩ := index
  rw [Index.ofText, Index.text, readIndex_writtenIndex]
  simp only [ofDocument, map_metadata_declaration]

end ActivationOrder
