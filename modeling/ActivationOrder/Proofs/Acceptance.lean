import ActivationOrder.Proofs.Dispatch
import ActivationOrder.Proofs.Reading

/-!
What is accepted. Declarations and indexes are read strictly: a document is accepted just when it
has the keys that it may have and each of them holds what it should, and then what is read is what
the document says. `Places` are the three things that a declaration may hold, which a table gives by
name and an array by position; `Right` is when they are accepted, and `Say` what they declare.
-/

namespace ActivationOrder

open Toml (Value Entries document?)

/-- What stands in the places of order, before and after, where anything does. -/
structure Places where
  order : Option Value
  before : Option Value
  after : Option Value

namespace Places

/-- An integer of 32 bits. -/
def IsOrder (value : Value) : Prop :=
  ∃ number : Int, value = .integer number ∧ -2147483648 ≤ number ∧ number ≤ 2147483647

/-- An array of texts that are not empty. -/
def IsUnits (value : Value) : Prop :=
  ∃ items, value = .array items ∧ ∀ item ∈ items, ∃ text, item = .string text ∧ text ≠ ""

/-- What stands there may stand there. -/
structure Right (places : Places) : Prop where
  order : ∀ value, places.order = some value → IsOrder value
  before : ∀ value, places.before = some value → IsUnits value
  after : ∀ value, places.after = some value → IsUnits value

/-- What stands there is what is declared. -/
structure Say (places : Places) (declared : Declaration) : Prop where
  order_iff : ∀ order, declared.order = some order ↔ places.order = some (.integer order.value)
  mem_before_iff : ∀ unit, unit ∈ declared.before ↔
    ∃ items, places.before = some (.array items) ∧ .string unit.text ∈ items
  mem_after_iff : ∀ unit, unit ∈ declared.after ↔
    ∃ items, places.after = some (.array items) ∧ .string unit.text ∈ items

/-- The places of a table, by name. -/
def ofFields (fields : Entries) : Places :=
  ⟨fields.lookup "order", fields.lookup "before", fields.lookup "after"⟩

/-- The places of an array, by position. -/
def ofItems (items : List Value) : Places := ⟨items[0]?, items[1]?, items[2]?⟩

end Places

/-- The value has the shape of a declaration, with these places. -/
inductive HasPlaces : Value → Places → Prop
  | table {fields : Entries} (hknown : ∀ field ∈ fields, field.1 ∈ declarationFields) :
      HasPlaces (.table fields) (.ofFields fields)
  | array (items : List Value) : HasPlaces (.array items) (.ofItems items)

/-- The value is a declaration, in either shape. -/
def IsDeclaration (value : Value) : Prop := ∃ places, HasPlaces value places ∧ places.Right

/-- What the value declares. -/
def Declares (value : Value) (declared : Declaration) : Prop :=
  ∃ places, HasPlaces value places ∧ places.Right ∧ places.Say declared

/-- The value is a table of declarations, none of whose keys is empty. -/
def IsUnitTable (value : Value) : Prop :=
  ∃ entries, value = .table entries ∧ ∀ entry ∈ entries, entry.1 ≠ "" ∧ IsDeclaration entry.2

/-! ### Declarations -/

namespace Declaration

variable {declared next : Declaration} {name : String} {value : Value}

theorem withField_eq_ok_iff : declared.withField name value = .ok next ↔
    (∃ order : Order, name = "order" ∧ value = .integer order.value ∧
      next = { declared with order := some order }) ∨
    (∃ units, name = "before" ∧ decodeUnits value = .ok units ∧
      next = { declared with before := units }) ∨
    ∃ units, name = "after" ∧ decodeUnits value = .ok units ∧
      next = { declared with after := units } := by
  rw [withField]
  split
  · next heq =>
    subst heq
    rw [bind_pure_eq_ok_iff]
    simp [decodeOrder_eq_ok_iff]
  · next horder =>
    split
    · next heq =>
      subst heq
      rw [bind_pure_eq_ok_iff]
      simp
    · next hbefore =>
      split
      · next heq =>
        subst heq
        rw [bind_pure_eq_ok_iff]
        simp
      · next hafter =>
        simp [horder, hbefore, hafter, throw, throwThe, MonadExceptOf.throw]

/-- Reading one more field. -/
abbrev addField (declared : Declaration) (field : String × Value) :
    Except DecodeError Declaration :=
  declared.withField field.1 field.2

theorem sets_order : Sets addField "order" order fun found order =>
      ∀ number, order = some number ↔ found = some (.integer number.value) where
  set h := by
    rcases withField_eq_ok_iff.mp h with ⟨⟨first, _, _⟩, -, rfl, rfl⟩ | ⟨_, heq, -⟩ | ⟨_, heq, -⟩
    · rintro ⟨number, _, _⟩
      simp
    · simp at heq
    · simp at heq
  keep h hne := by
    rcases withField_eq_ok_iff.mp h with ⟨_, heq, -⟩ | ⟨_, -, -, rfl⟩ | ⟨_, -, -, rfl⟩
    · exact absurd heq hne
    · rfl
    · rfl

theorem mem_of_decodeUnits {units : UnitSet} (h : decodeUnits value = .ok units) (unit : UnitId) :
    unit ∈ units ↔ ∃ items, some value = some (.array items) ∧ .string unit.text ∈ items := by
  obtain ⟨items, rfl, -, hmem⟩ := decodeUnits_eq_ok_iff.mp h
  rw [hmem]
  simp

theorem sets_before : Sets addField "before" before fun found units => ∀ unit, unit ∈ units ↔
      ∃ items, found = some (.array items) ∧ .string unit.text ∈ items where
  set h := by
    rcases withField_eq_ok_iff.mp h with ⟨_, heq, -⟩ | ⟨units, -, hunits, rfl⟩ | ⟨_, heq, -⟩
    · simp at heq
    · exact mem_of_decodeUnits hunits
    · simp at heq
  keep h hne := by
    rcases withField_eq_ok_iff.mp h with ⟨_, -, -, rfl⟩ | ⟨_, heq, -⟩ | ⟨_, -, -, rfl⟩
    · rfl
    · exact absurd heq hne
    · rfl

theorem sets_after : Sets addField "after" after fun found units => ∀ unit, unit ∈ units ↔
      ∃ items, found = some (.array items) ∧ .string unit.text ∈ items where
  set h := by
    rcases withField_eq_ok_iff.mp h with ⟨_, heq, -⟩ | ⟨_, heq, -⟩ | ⟨units, -, hunits, rfl⟩
    · simp at heq
    · simp at heq
    · exact mem_of_decodeUnits hunits
  keep h hne := by
    rcases withField_eq_ok_iff.mp h with ⟨_, -, -, rfl⟩ | ⟨_, -, -, rfl⟩ | ⟨_, heq, -⟩
    · rfl
    · rfl
    · exact absurd heq hne

theorem exists_order_iff :
    (∃ order : Order, value = .integer order.value) ↔ Places.IsOrder value :=
  ⟨fun ⟨order, h⟩ => ⟨order.value, h, order.lower, order.upper⟩,
    fun ⟨number, h, hlower, hupper⟩ => ⟨⟨number, hlower, hupper⟩, h⟩⟩

theorem exists_units_iff : (∃ units, decodeUnits value = .ok units) ↔ Places.IsUnits value := by
  have hitem (units : UnitSet) (item : Value) :
      (∃ next, (return units.insert (← decodeUnit item) : Except DecodeError UnitSet) = .ok next) ↔
        ∃ text, item = .string text ∧ text ≠ "" := by
    simp only [bind_pure_eq_ok_iff, decodeUnit_eq_ok_iff]
    constructor
    · rintro ⟨_, unit, rfl, -⟩
      exact ⟨unit.text, rfl, unit.nonempty⟩
    · rintro ⟨text, rfl, hne⟩
      exact ⟨_, ⟨text, hne⟩, rfl, rfl⟩
  cases value with
  | array items =>
    rw [decodeUnits, Places.IsUnits]
    simpa using exists_foldlM_ok_iff hitem ∅
  | _ => simp [decodeUnits, Value.refuse, Places.IsUnits]

/-- Whether a field is accepted does not depend on the fields before it. -/
theorem exists_addField_iff (declared : Declaration) (field : String × Value) :
    (∃ next, declared.addField field = .ok next) ↔ field.1 ∈ declarationFields ∧
      (field.1 = "order" → Places.IsOrder field.2) ∧
      (field.1 = "before" → Places.IsUnits field.2) ∧
      (field.1 = "after" → Places.IsUnits field.2) := by
  obtain ⟨name, value⟩ := field
  rw [← exists_order_iff, ← exists_units_iff]
  simp only [addField, withField_eq_ok_iff]
  by_cases horder : name = "order"
  · simp [horder, declarationFields]
  · by_cases hbefore : name = "before"
    · simp [hbefore, declarationFields]
    · by_cases hafter : name = "after"
      · simp [hafter, declarationFields]
      · simp [horder, hbefore, hafter, declarationFields]

end Declaration

/-- What is said in places is said of one declaration only. -/
theorem Places.Say.unique {places : Places} {declared declared' : Declaration}
    (h : places.Say declared) (h' : places.Say declared') : declared = declared' := by
  obtain ⟨order, before, after⟩ := declared
  obtain ⟨order', before', after'⟩ := declared'
  have horder : order = order' :=
    Option.ext fun o => (h.order_iff o).trans (h'.order_iff o).symm
  have hbefore : before = before' :=
    Std.ExtTreeSet.ext_mem fun unit => (h.mem_before_iff unit).trans (h'.mem_before_iff unit).symm
  have hafter : after = after' :=
    Std.ExtTreeSet.ext_mem fun unit => (h.mem_after_iff unit).trans (h'.mem_after_iff unit).symm
  rw [horder, hbefore, hafter]

variable {fields : Entries} {declared : Declaration}

theorem say_of_decodeFields (hnodup : (fields.map (·.1)).Nodup)
    (h : decodeFields fields = .ok declared) : (Places.ofFields fields).Say declared :=
  ⟨Declaration.sets_order.foldlM hnodup h (by simp),
    Declaration.sets_before.foldlM hnodup h (by simp),
    Declaration.sets_after.foldlM hnodup h (by simp)⟩

theorem exists_decodeFields_iff (hnodup : (fields.map (·.1)).Nodup) :
    (∃ declared, decodeFields fields = .ok declared) ↔
      (∀ field ∈ fields, field.1 ∈ declarationFields) ∧ (Places.ofFields fields).Right := by
  refine (exists_foldlM_ok_iff Declaration.exists_addField_iff {}).trans ?_
  simp only [forall_and]
  rw [Toml.forall_mem_iff_lookup hnodup, Toml.forall_mem_iff_lookup hnodup,
    Toml.forall_mem_iff_lookup hnodup]
  refine and_congr_right fun _ => ⟨?_, ?_⟩
  · rintro ⟨horder, hbefore, hafter⟩
    exact ⟨horder, hbefore, hafter⟩
  · rintro ⟨horder, hbefore, hafter⟩
    exact ⟨horder, hbefore, hafter⟩

theorem decodeFields_eq_ok_iff (hnodup : (fields.map (·.1)).Nodup) :
    decodeFields fields = .ok declared ↔ (∀ field ∈ fields, field.1 ∈ declarationFields) ∧
      (Places.ofFields fields).Right ∧ (Places.ofFields fields).Say declared := by
  constructor
  · intro h
    obtain ⟨hknown, hright⟩ := (exists_decodeFields_iff hnodup).mp ⟨declared, h⟩
    exact ⟨hknown, hright, say_of_decodeFields hnodup h⟩
  · rintro ⟨hknown, hright, hsay⟩
    obtain ⟨read, hread⟩ := (exists_decodeFields_iff hnodup).mpr ⟨hknown, hright⟩
    rw [hread, (say_of_decodeFields hnodup hread).unique hsay]

/-! ### Declarations in an index -/

/-- The fields that an array gives by position. -/
theorem zip_declarationFields (items : List Value) :
    ((declarationFields.zip items).map (·.1)).Nodup ∧
      (∀ field ∈ declarationFields.zip items, field.1 ∈ declarationFields) ∧
      Places.ofFields (declarationFields.zip items) = Places.ofItems items := by
  rcases items with _ | ⟨a, _ | ⟨b, _ | ⟨c, rest⟩⟩⟩ <;>
    simp [declarationFields, Places.ofFields, Places.ofItems, List.lookup_cons]

/-- A declaration in an index is a table or an array of the right shape. -/
theorem decodeDeclaration_eq_ok_iff {value : Value} (hdistinct : value.Distinct) :
    decodeDeclaration value = .ok declared ↔ Declares value declared := by
  cases value with
  | array items =>
    obtain ⟨hnodup, hknown, hplaces⟩ := zip_declarationFields items
    rw [decodeDeclaration, decodeFields_eq_ok_iff hnodup, hplaces]
    constructor
    · rintro ⟨-, hright, hsay⟩
      exact ⟨_, .array items, hright, hsay⟩
    · rintro ⟨_, ⟨⟩, hright, hsay⟩
      exact ⟨hknown, hright, hsay⟩
  | table fields =>
    have hdecode : decodeDeclaration (.table fields) = decodeFields fields := rfl
    rw [hdecode, decodeFields_eq_ok_iff hdistinct.nodup_keys]
    constructor
    · rintro ⟨hknown, hright, hsay⟩
      exact ⟨_, .table hknown, hright, hsay⟩
    · rintro ⟨_, ⟨hknown⟩, hright, hsay⟩
      exact ⟨hknown, hright, hsay⟩
  | moment text =>
    -- a moment is taken for a table of one entry, under a key that is never known
    have hdecode : decodeDeclaration (.moment text) =
        decodeFields [(Value.momentKey, .string text)] := rfl
    rw [hdecode, decodeFields_eq_ok_iff (by simp)]
    refine iff_of_false (fun ⟨hknown, _⟩ => ?_) (fun ⟨_, hplaces, _⟩ => nomatch hplaces)
    simp [Value.momentKey, declarationFields] at hknown
  | _ => exact iff_of_false (fun h => nomatch h) fun ⟨_, hplaces, _⟩ => nomatch hplaces

theorem exists_decodeDeclaration_iff {value : Value} (hdistinct : value.Distinct) :
    (∃ declared, decodeDeclaration value = .ok declared) ↔ IsDeclaration value := by
  constructor
  · rintro ⟨declared, h⟩
    obtain ⟨places, hplaces, hright, -⟩ := (decodeDeclaration_eq_ok_iff hdistinct).mp h
    exact ⟨places, hplaces, hright⟩
  · rintro ⟨_, hplaces, hright⟩
    cases hplaces with
    | table hknown => exact (exists_decodeFields_iff hdistinct.nodup_keys).mpr ⟨hknown, hright⟩
    | array items =>
      obtain ⟨hnodup, hknown, hplaces⟩ := zip_declarationFields items
      exact (exists_decodeFields_iff hnodup).mpr ⟨hknown, hplaces ▸ hright⟩

/-! ### Indexes -/

theorem addUnit_eq_ok_iff {units next : UnitMap Declaration} {field : String × Value} :
    addUnit units field = .ok next ↔ ∃ (unit : UnitId) (declared : Declaration),
      field.1 = unit.text ∧ decodeDeclaration field.2 = .ok declared ∧
        next = units.insert unit declared := by
  simp only [← UnitId.ofString_eq_ok_iff]
  rw [addUnit]
  cases UnitId.ofString field.1 with
  | error cause => exact iff_of_false (fun h => nomatch h) fun ⟨_, _, hname, _⟩ => nomatch hname
  | ok unit =>
    rw [bind_pure_eq_ok_iff]
    simp

theorem sets_unit (unit : UnitId) : Sets addUnit unit.text (·[unit]?) fun found declared? =>
    ∀ declared, declared? = some declared ↔
      ∃ value, found = some value ∧ decodeDeclaration value = .ok declared where
  set h := by
    obtain ⟨u, first, hunit, hfirst, rfl⟩ := addUnit_eq_ok_iff.mp h
    obtain rfl : unit = u := UnitId.ext hunit
    intro declared
    simp [hfirst]
  keep h hne := by
    obtain ⟨u, first, hunit, hfirst, rfl⟩ := addUnit_eq_ok_iff.mp h
    have hother : compare u unit ≠ .eq := fun heq =>
      hne (hunit.trans (congrArg UnitId.text (Std.LawfulEqCmp.compare_eq_iff_eq.mp heq)))
    simp [Std.ExtTreeMap.getElem?_insert, hother]

theorem exists_addUnit_iff (units : UnitMap Declaration) (field : String × Value) :
    (∃ next, addUnit units field = .ok next) ↔
      field.1 ≠ "" ∧ ∃ declared, decodeDeclaration field.2 = .ok declared := by
  simp only [addUnit_eq_ok_iff]
  constructor
  · rintro ⟨_, unit, declared, hname, hdeclared, -⟩
    exact ⟨hname ▸ unit.nonempty, declared, hdeclared⟩
  · rintro ⟨hne, declared, hdeclared⟩
    exact ⟨_, ⟨field.1, hne⟩, declared, rfl, hdeclared, rfl⟩

/-- What the units of an index are read from. -/
theorem exists_decodeIndexUnits_iff {value : Value} (hdistinct : value.Distinct) :
    (∃ units, decodeIndexUnits value = .ok units) ↔ IsUnitTable value := by
  cases value with
  | table entries =>
    have hdecode : decodeIndexUnits (.table entries) = entries.foldlM addUnit ∅ := rfl
    rw [hdecode, exists_foldlM_ok_iff exists_addUnit_iff]
    have hdeclared (entry : String × Value) (hentry : entry ∈ entries) :=
      exists_decodeDeclaration_iff (hdistinct.of_mem hentry)
    constructor
    · intro h
      exact ⟨entries, rfl, fun entry hentry => ⟨(h entry hentry).1,
        (hdeclared entry hentry).mp (h entry hentry).2⟩⟩
    · rintro ⟨_, ⟨⟩, h⟩ entry hentry
      exact ⟨(h entry hentry).1, (hdeclared entry hentry).mpr (h entry hentry).2⟩
  | moment text =>
    -- a moment is taken for a table of one entry, which is no declaration
    have hdecode : decodeIndexUnits (.moment text) =
        [(Value.momentKey, .string text)].foldlM addUnit ∅ := rfl
    rw [hdecode, exists_foldlM_ok_iff exists_addUnit_iff]
    refine iff_of_false (fun h => ?_) fun ⟨_, htable, _⟩ => nomatch htable
    obtain ⟨-, declared, hdeclared⟩ := h _ List.mem_cons_self
    cases hdeclared
  | _ => exact iff_of_false (fun ⟨_, h⟩ => nomatch h) fun ⟨_, htable, _⟩ => nomatch htable

/-- Which units an index declares, and what. -/
theorem getElem?_of_decodeIndexUnits {value : Value} (hdistinct : value.Distinct)
    {units : UnitMap Declaration} (h : decodeIndexUnits value = .ok units) (unit : UnitId)
    (declared : Declaration) : units[unit]? = some declared ↔ ∃ entries found,
      value = .table entries ∧ entries.lookup unit.text = some found ∧ Declares found declared := by
  obtain ⟨entries, rfl, -⟩ := (exists_decodeIndexUnits_iff hdistinct).mp ⟨units, h⟩
  have hunit := (sets_unit unit).foldlM hdistinct.nodup_keys h (by simp)
  rw [hunit]
  have hdeclares {found : Value} (hfound : entries.lookup unit.text = some found) :
      decodeDeclaration found = .ok declared ↔ Declares found declared :=
    decodeDeclaration_eq_ok_iff (hdistinct.of_mem (Toml.mem_of_lookup hfound))
  constructor
  · rintro ⟨found, hfound, hdeclared⟩
    exact ⟨entries, found, rfl, hfound, (hdeclares hfound).mp hdeclared⟩
  · rintro ⟨_, found, ⟨⟩, hfound, hdeclared⟩
    exact ⟨found, hfound, (hdeclares hfound).mpr hdeclared⟩

/-- The keys of an index document. -/
def indexFields : List String := ["kind", "schema_version", "units"]

namespace IndexFields

theorem exists_withField_iff (state : IndexFields) (field : String × Value) :
    (∃ next, state.withField field = .ok next) ↔ field.1 ∈ indexFields ∧
      (field.1 = "kind" → ∃ text, field.2 = .string text) ∧
      (field.1 = "schema_version" → ∃ number : Nat, field.2 = .integer number ∧
        number ≤ 4294967295) ∧
      (field.1 = "units" → ∃ units, decodeIndexUnits field.2 = .ok units) := by
  obtain ⟨name, value⟩ := field
  simp only [withField_eq_ok_iff, Prod.mk.injEq]
  by_cases hkind : name = "kind"
  · simp [hkind, indexFields]
  · by_cases hversion : name = "schema_version"
    · simp [hversion, indexFields]
    · by_cases hunits : name = "units"
      · simp [hunits, indexFields]
      · simp [hkind, hversion, hunits, indexFields]

theorem sets_units : Sets withField "units" units fun found units => found = none ∧ units = ∅ ∨
    ∃ value, found = some value ∧ decodeIndexUnits value = .ok units where
  set h := by
    rcases withField_eq_ok_iff.mp h with ⟨_, heq, -⟩ | ⟨_, heq, -⟩ | ⟨_, units, heq, hunits, rfl⟩
    · simp at heq
    · simp at heq
    · cases heq
      exact .inr ⟨_, rfl, hunits⟩
  keep h hne := by
    rcases withField_eq_ok_iff.mp h with ⟨_, -, rfl⟩ | ⟨_, -, -, rfl⟩ | ⟨_, _, rfl, -⟩
    · rfl
    · rfl
    · exact absurd rfl hne

end IndexFields

/-- With a right envelope, the strict reading succeeds when there are only units beside it. -/
theorem exists_decodeIndex_iff (hdistinct : (Value.table fields).Distinct) {kind : String}
    {version : Nat} (henvelope : Envelope fields kind version) :
    (∃ document, decodeIndex fields = .ok document) ↔ (∀ field ∈ fields, field.1 ∈ indexFields) ∧
      ∀ value, fields.lookup "units" = some value → IsUnitTable value := by
  have hnodup := hdistinct.nodup_keys
  have hstrict : (∃ document, decodeIndex fields = .ok document) ↔
      ∃ all, fields.foldlM IndexFields.withField {} = .ok all := by
    constructor
    · rintro ⟨document, h⟩
      obtain ⟨all, hfold, -⟩ := decodeIndex_eq_ok_iff.mp h
      exact ⟨all, hfold⟩
    · rintro ⟨all, hfold⟩
      have htakes := IndexFields.takesEnvelope_withField
      have hall := (htakes.envelope_eq_ok_iff hnodup hfold).mpr henvelope
      exact ⟨⟨kind, version, all.units⟩, decodeIndex_eq_ok_iff.mpr ⟨all, hfold, hall, rfl⟩⟩
  have hunits : (∀ value, fields.lookup "units" = some value →
      ∃ units, decodeIndexUnits value = .ok units) ↔
      ∀ value, fields.lookup "units" = some value → IsUnitTable value :=
    forall₂_congr fun value hfound =>
      exists_decodeIndexUnits_iff (hdistinct.of_mem (Toml.mem_of_lookup hfound))
  have henvelope := henvelope.forall_mem hnodup
  rw [hstrict, exists_foldlM_ok_iff IndexFields.exists_withField_iff, ← hunits,
    ← Toml.forall_mem_iff_lookup hnodup]
  constructor
  · intro h
    exact ⟨fun field hfield => (h field hfield).1, fun field hfield => (h field hfield).2.2.2⟩
  · rintro ⟨hknown, hunits⟩ field hfield
    exact ⟨hknown field hfield, (henvelope field hfield).1, (henvelope field hfield).2,
      hunits field hfield⟩

theorem getElem?_units_of_decodeIndex (hdistinct : (Value.table fields).Distinct)
    {document : IndexDocument} (h : decodeIndex fields = .ok document) (unit : UnitId)
    (declared : Declaration) : document.units[unit]? = some declared ↔ ∃ entries found,
      fields.lookup "units" = some (.table entries) ∧ entries.lookup unit.text = some found ∧
        Declares found declared := by
  obtain ⟨all, hfold, -, hall⟩ := decodeIndex_eq_ok_iff.mp h
  rw [← hall]
  rcases IndexFields.sets_units.foldlM hdistinct.nodup_keys hfold (.inl ⟨rfl, rfl⟩) with
    ⟨hnone, hempty⟩ | ⟨value, hfound, hunits⟩
  · simp [hnone, hempty]
  · have hvalue := hdistinct.of_mem (Toml.mem_of_lookup hfound)
    rw [getElem?_of_decodeIndexUnits hvalue hunits]
    simp [hfound]

/-- The units of an index are the keys of its table of units. -/
theorem mem_units_of_decodeIndex (hdistinct : (Value.table fields).Distinct)
    {document : IndexDocument} (h : decodeIndex fields = .ok document) (unit : UnitId) :
    unit ∈ document.units ↔ ∃ entries,
      fields.lookup "units" = some (.table entries) ∧ unit.text ∈ entries.map (·.1) := by
  rw [Std.ExtTreeMap.mem_iff_isSome_getElem?, Option.isSome_iff_exists]
  simp only [getElem?_units_of_decodeIndex hdistinct h]
  constructor
  · rintro ⟨_, entries, found, hunits, hfound, -⟩
    exact ⟨entries, hunits, List.mem_map_of_mem (Toml.mem_of_lookup hfound)⟩
  · rintro ⟨entries, hunits, hkey⟩
    obtain ⟨⟨_, found⟩, hentry, rfl⟩ := List.mem_map.mp hkey
    have htable := hdistinct.of_mem (Toml.mem_of_lookup hunits)
    have henvelope := envelope_of_decodeIndex hdistinct.nodup_keys h
    obtain ⟨_, ⟨⟩, hright⟩ :=
      ((exists_decodeIndex_iff hdistinct henvelope).mp ⟨document, h⟩).2 _ hunits
    have hvalue := htable.of_mem hentry
    obtain ⟨declared, hdeclared⟩ :=
      (exists_decodeDeclaration_iff hvalue).mpr (hright _ hentry).2
    exact ⟨declared, entries, found, hunits, Toml.lookup_of_mem htable.nodup_keys hentry,
      (decodeDeclaration_eq_ok_iff hvalue).mp hdeclared⟩

/-! ### Documents -/

theorem readDeclaration_eq_ok_iff {text : String} (h : document? text = some fields) :
    readDeclaration text = .ok declared ↔ decodeFields fields = .ok declared := by
  simp only [readDeclaration, readDocument, h, bind, Except.bind]
  cases decodeFields fields <;> simp

theorem readIndex_eq_dispatchIndex {text : String} (h : document? text = some fields) :
    readIndex text = dispatchIndex fields := by
  simp only [readIndex, readDocument, h]

/-- Which documents are accepted, and what is read from them. A declaration has no other keys than
its own, an index with a right envelope no other key than `units` beside it, and what is found under
each key is right. What is left out declares nothing. -/
theorem accepts_exactly {text : String} {fields : Entries} (h : document? text = some fields) :
    ((∃ declared, readDeclaration text = .ok declared) ↔
      (∀ field ∈ fields, field.1 ∈ declarationFields) ∧ (Places.ofFields fields).Right) ∧
    (∀ declared, readDeclaration text = .ok declared → (Places.ofFields fields).Say declared) ∧
    (Envelope fields indexKind indexVersion →
      ((∃ document, readIndex text = .ok document) ↔ (∀ field ∈ fields, field.1 ∈ indexFields) ∧
        ∀ value, fields.lookup "units" = some value → IsUnitTable value) ∧
      ∀ document, readIndex text = .ok document →
        document.kind = indexKind ∧ document.version = indexVersion ∧
        (∀ unit, unit ∈ document.units ↔ ∃ entries,
          fields.lookup "units" = some (.table entries) ∧ unit.text ∈ entries.map (·.1)) ∧
        ∀ (unit : UnitId) declared, document.units[unit]? = some declared ↔ ∃ entries found,
          fields.lookup "units" = some (.table entries) ∧ entries.lookup unit.text = some found ∧
            Declares found declared) := by
  have hdistinct := Toml.distinct_of_document h
  have hnodup := hdistinct.nodup_keys
  simp only [readDeclaration_eq_ok_iff h, readIndex_eq_dispatchIndex h,
    dispatchIndex_eq_ok_iff hnodup]
  refine ⟨exists_decodeFields_iff hnodup, fun declared => say_of_decodeFields hnodup,
    fun henvelope => ⟨?_, ?_⟩⟩
  · rw [← exists_decodeIndex_iff hdistinct henvelope]
    refine exists_congr fun document => and_iff_left_of_imp fun hstrict => ?_
    exact henvelope.unique (envelope_of_decodeIndex hnodup hstrict)
  · rintro document ⟨hstrict, hkind, hversion⟩
    exact ⟨hkind, hversion, mem_units_of_decodeIndex hdistinct hstrict,
      getElem?_units_of_decodeIndex hdistinct hstrict⟩

namespace Sample

/-- The index declares `a` by position, as before `b`, which is named twice. -/
def positional : String :=
  "kind = \"precedence.index\"\nschema_version = 1\nunits.a = [3, [\"b\", \"b\"]]\n"

/-- The places of `a`. -/
def positionalItems : List Value := [.integer 3, .array [.string "b", .string "b"]]

def positionalFields : Entries :=
  [("kind", .string indexKind), ("schema_version", .integer indexVersion),
    ("units", .table [("a", .array positionalItems)])]

/-- What `a` declares. -/
def positionalDeclaration : Declaration where
  order := some ⟨3, by decide, by decide⟩
  before := (∅ : UnitSet).insert b

end Sample

theorem accepts_exactly_positional :
    document? Sample.positional = some Sample.positionalFields ∧
      Envelope Sample.positionalFields indexKind indexVersion ∧
      ∃ document, readIndex Sample.positional = .ok document ∧
        document.units[Sample.a]? = some Sample.positionalDeclaration := by
  have hdocument : document? Sample.positional = some Sample.positionalFields := by cbv
  have henvelope : Envelope Sample.positionalFields indexKind indexVersion :=
    ⟨rfl, rfl, by decide⟩
  have hright : (Places.ofItems Sample.positionalItems).Right := by
    constructor <;> simp [Places.ofItems, Places.IsOrder, Places.IsUnits, Sample.positionalItems]
  have hsay : (Places.ofItems Sample.positionalItems).Say Sample.positionalDeclaration := by
    refine ⟨?_, fun unit => ?_, fun unit => ?_⟩
    · rintro ⟨number, _, _⟩
      simp [Places.ofItems, Sample.positionalItems, Sample.positionalDeclaration]
    · rw [Sample.positionalDeclaration, mem_insert_iff, UnitId.ext_iff]
      simp [Places.ofItems, Sample.positionalItems, Sample.b]
    · simp [Places.ofItems, Sample.positionalItems, Sample.positionalDeclaration]
  have hplaces := HasPlaces.array Sample.positionalItems
  obtain ⟨haccepted, hread⟩ := (accepts_exactly hdocument).2.2 henvelope
  have hunits : ∀ value, Sample.positionalFields.lookup "units" = some value →
      IsUnitTable value := by
    rintro _ ⟨⟩
    exact ⟨_, rfl, List.forall_mem_singleton.mpr ⟨by decide, _, hplaces, hright⟩⟩
  obtain ⟨document, hok⟩ := haccepted.mpr ⟨by decide, hunits⟩
  have hunit := ((hread document hok).2.2.2 Sample.a Sample.positionalDeclaration).mpr
    ⟨_, _, rfl, rfl, _, hplaces, hright, hsay⟩
  exact ⟨hdocument, henvelope, document, hok, hunit⟩

end ActivationOrder
