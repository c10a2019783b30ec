import Mathlib
import ActivationOrder.Proofs.Fields

/-!
Kind and version come first. An index document is read twice, once for its kind and version, with
everything else left alone, and once strictly. Both readings take kind and version from the same two
keys, and no key comes twice, so they agree; and the first one alone decides whether there is a
second.
-/

namespace ActivationOrder

open Toml (Value Entries document?)

/-- The kind and the version that a document names, the version a number of 32 bits. -/
structure Envelope (fields : Entries) (kind : String) (version : Nat) : Prop where
  kind_eq : fields.lookup "kind" = some (.string kind)
  version_eq : fields.lookup "schema_version" = some (.integer version)
  version_le : version ≤ 4294967295

namespace IndexFields

variable {fields next : IndexFields} {field : String × Value}

/-! ### The two readings -/

/-- What the first reading does with a field. -/
theorem withEnvelopeField_eq_ok_iff : fields.withEnvelopeField field = .ok next ↔
    (∃ text, field = ("kind", .string text) ∧ next = { fields with kind := some text }) ∨
    (∃ version : Nat, field = ("schema_version", .integer version) ∧ version ≤ 4294967295 ∧
      next = { fields with version := some version }) ∨
    field.1 ≠ "kind" ∧ field.1 ≠ "schema_version" ∧ next = fields := by
  obtain ⟨name, value⟩ := field
  rw [withEnvelopeField]
  dsimp only
  split
  · next heq =>
    subst heq
    rw [bind_pure_eq_ok_iff]
    simp [decodeText_eq_ok_iff]
  · next hkind =>
    split
    · next heq =>
      subst heq
      rw [bind_pure_eq_ok_iff]
      simp [decodeVersion_eq_ok_iff, and_assoc]
    · next hversion =>
      simp [hkind, hversion, pure, Except.pure, eq_comm]

/-- What the strict reading does with a field. -/
theorem withField_eq_ok_iff : fields.withField field = .ok next ↔
    (∃ text, field = ("kind", .string text) ∧ next = { fields with kind := some text }) ∨
    (∃ version : Nat, field = ("schema_version", .integer version) ∧ version ≤ 4294967295 ∧
      next = { fields with version := some version }) ∨
    ∃ value units, field = ("units", value) ∧ decodeIndexUnits value = .ok units ∧
      next = { fields with units } := by
  obtain ⟨name, value⟩ := field
  rw [withField]
  dsimp only
  split
  · next heq =>
    subst heq
    rw [bind_pure_eq_ok_iff]
    simp [decodeText_eq_ok_iff]
  · next hkind =>
    split
    · next heq =>
      subst heq
      rw [bind_pure_eq_ok_iff]
      simp [decodeVersion_eq_ok_iff, and_assoc]
    · next hversion =>
      split
      · next heq =>
        subst heq
        rw [bind_pure_eq_ok_iff]
        simp
      · next hunits =>
        simp [hkind, hversion, hunits, throw, throwThe, MonadExceptOf.throw]

/-- A reading that takes kind and version from their keys, whatever else it does. -/
def TakesEnvelope (step : IndexFields → String × Value → Except DecodeError IndexFields) : Prop :=
  ∀ ⦃fields next : IndexFields⦄ ⦃field : String × Value⦄, step fields field = .ok next →
    (∃ text, field = ("kind", .string text) ∧ next.kind = some text ∧
      next.version = fields.version) ∨
    (∃ version : Nat, field = ("schema_version", .integer version) ∧ version ≤ 4294967295 ∧
      next.kind = fields.kind ∧ next.version = some version) ∨
    field.1 ≠ "kind" ∧ field.1 ≠ "schema_version" ∧ next.kind = fields.kind ∧
      next.version = fields.version

theorem takesEnvelope_withEnvelopeField : TakesEnvelope withEnvelopeField := by
  intro fields next field h
  rcases withEnvelopeField_eq_ok_iff.mp h with
    ⟨text, rfl, rfl⟩ | ⟨version, rfl, hle, rfl⟩ | ⟨hkind, hversion, rfl⟩
  · exact .inl ⟨text, rfl, rfl, rfl⟩
  · exact .inr (.inl ⟨version, rfl, hle, rfl, rfl⟩)
  · exact .inr (.inr ⟨hkind, hversion, rfl, rfl⟩)

theorem takesEnvelope_withField : TakesEnvelope withField := by
  intro fields next field h
  rcases withField_eq_ok_iff.mp h with
    ⟨text, rfl, rfl⟩ | ⟨version, rfl, hle, rfl⟩ | ⟨value, units, rfl, -, rfl⟩
  · exact .inl ⟨text, rfl, rfl, rfl⟩
  · exact .inr (.inl ⟨version, rfl, hle, rfl, rfl⟩)
  · exact .inr (.inr ⟨by simp, by simp, rfl, rfl⟩)

namespace TakesEnvelope

variable {step : IndexFields → String × Value → Except DecodeError IndexFields}

theorem sets_kind (h : TakesEnvelope step) : Sets step "kind" kind fun found kind =>
    ∀ text, kind = some text ↔ found = some (.string text) where
  set hstep := by
    rcases h hstep with ⟨text, heq, hkind, -⟩ | ⟨version, heq, -⟩ | ⟨hne, -⟩
    · cases heq
      simp [hkind]
    · simp at heq
    · exact absurd rfl hne
  keep hstep hne := by
    rcases h hstep with ⟨text, rfl, -⟩ | ⟨_, -, -, hkind, -⟩ | ⟨-, -, hkind, -⟩
    · exact absurd rfl hne
    · exact hkind
    · exact hkind

theorem sets_version (h : TakesEnvelope step) :
    Sets step "schema_version" version fun found version =>
      ∀ number, version = some number ↔ found = some (.integer number) ∧ number ≤ 4294967295 where
  set hstep := by
    rcases h hstep with ⟨text, heq, -⟩ | ⟨version, heq, hle, -, hversion⟩ | ⟨-, hne, -⟩
    · simp at heq
    · cases heq
      intro number
      rw [hversion, Option.some.injEq, Option.some.injEq, Value.integer.injEq]
      omega
    · exact absurd rfl hne
  keep hstep hne := by
    rcases h hstep with ⟨text, -, -, hversion⟩ | ⟨_, rfl, -⟩ | ⟨-, -, -, hversion⟩
    · exact hversion
    · exact absurd rfl hne
    · exact hversion

/-- Such a reading, where it gets through, finds the kind and the version that are named. -/
theorem envelope_eq_ok_iff (h : TakesEnvelope step) {entries : Entries} {all : IndexFields}
    (hnodup : (entries.map (·.1)).Nodup) (hfold : entries.foldlM step {} = .ok all)
    {kind : String} {version : Nat} :
    all.envelope = .ok (kind, version) ↔ Envelope entries kind version := by
  have hkind := h.sets_kind.foldlM hnodup hfold (by simp)
  have hversion := h.sets_version.foldlM hnodup hfold (by simp)
  have hall : all.envelope = .ok (kind, version) ↔
      all.kind = some kind ∧ all.version = some version := by
    rw [envelope]
    split <;> simp_all
  rw [hall, hkind, hversion]
  exact ⟨fun ⟨hk, hv, hle⟩ => ⟨hk, hv, hle⟩, fun ⟨hk, hv, hle⟩ => ⟨hk, hv, hle⟩⟩

end TakesEnvelope

end IndexFields

/-! ### Dispatch -/

variable {fields : Entries} {kind : String} {version : Nat}

theorem Envelope.unique {kind' : String} {version' : Nat} (h : Envelope fields kind version)
    (h' : Envelope fields kind' version') : kind' = kind ∧ version' = version := by
  have hkind := h'.kind_eq.symm.trans h.kind_eq
  have hversion := h'.version_eq.symm.trans h.version_eq
  rw [Option.some.injEq, Value.string.injEq] at hkind
  rw [Option.some.injEq, Value.integer.injEq] at hversion
  exact ⟨hkind, by omega⟩

/-- Where kind and version are right, both readings accept their fields. -/
theorem Envelope.forall_mem (h : Envelope fields kind version) (hnodup : (fields.map (·.1)).Nodup) :
    ∀ field ∈ fields, (field.1 = "kind" → ∃ text, field.2 = .string text) ∧
      (field.1 = "schema_version" → ∃ number : Nat, field.2 = .integer number ∧
        number ≤ 4294967295) := by
  refine fun field hfield => ⟨fun hname => ?_, fun hname => ?_⟩
  · have hfound := Toml.lookup_of_mem hnodup hfield
    rw [hname, h.kind_eq, Option.some.injEq] at hfound
    exact ⟨kind, hfound.symm⟩
  · have hfound := Toml.lookup_of_mem hnodup hfield
    rw [hname, h.version_eq, Option.some.injEq] at hfound
    exact ⟨version, hfound.symm, h.version_le⟩

/-- The first reading gets through when kind and version are right. -/
theorem exists_foldlM_envelope (hnodup : (fields.map (·.1)).Nodup)
    (h : Envelope fields kind version) :
    ∃ all, fields.foldlM IndexFields.withEnvelopeField {} = .ok all := by
  have hright (state : IndexFields) (field : String × Value) :
      (∃ next, state.withEnvelopeField field = .ok next) ↔
        (field.1 = "kind" → ∃ text, field.2 = .string text) ∧
        (field.1 = "schema_version" → ∃ number : Nat, field.2 = .integer number ∧
          number ≤ 4294967295) := by
    obtain ⟨name, value⟩ := field
    simp only [IndexFields.withEnvelopeField_eq_ok_iff, Prod.mk.injEq]
    by_cases hkind : name = "kind"
    · simp [hkind]
    · by_cases hversion : name = "schema_version"
      · simp [hversion]
      · simp [hkind, hversion]
  exact (exists_foldlM_ok_iff hright {}).mpr (h.forall_mem hnodup)

/-- Kind and version are found whatever else the document holds. -/
theorem decodeEnvelope_eq_ok_iff (hnodup : (fields.map (·.1)).Nodup) :
    decodeEnvelope fields = .ok (kind, version) ↔ Envelope fields kind version := by
  have hiff {all : IndexFields} (hfold : fields.foldlM IndexFields.withEnvelopeField {} = .ok all) :
      decodeEnvelope fields = .ok (kind, version) ↔ Envelope fields kind version := by
    rw [decodeEnvelope, hfold]
    exact IndexFields.takesEnvelope_withEnvelopeField.envelope_eq_ok_iff hnodup hfold
  constructor
  · intro h
    cases hfold : fields.foldlM IndexFields.withEnvelopeField {} with
    | error cause => simp [decodeEnvelope, hfold, bind, Except.bind] at h
    | ok all => exact (hiff hfold).mp h
  · intro h
    obtain ⟨all, hfold⟩ := exists_foldlM_envelope hnodup h
    exact (hiff hfold).mpr h

theorem decodeIndex_eq_ok_iff {document : IndexDocument} : decodeIndex fields = .ok document ↔
    ∃ all, fields.foldlM IndexFields.withField {} = .ok all ∧
      all.envelope = .ok (document.kind, document.version) ∧ all.units = document.units := by
  obtain ⟨kind, version, units⟩ := document
  rw [decodeIndex]
  cases fields.foldlM IndexFields.withField {} with
  | error cause => simp [bind, Except.bind]
  | ok all =>
    cases henvelope : all.envelope with
    | error cause => simp [henvelope, bind, Except.bind]
    | ok named => simp [henvelope, bind, Except.bind, pure, Except.pure, Prod.ext_iff, and_assoc]

/-- What is read strictly has the kind and the version that are named. -/
theorem envelope_of_decodeIndex (hnodup : (fields.map (·.1)).Nodup) {document : IndexDocument}
    (h : decodeIndex fields = .ok document) : Envelope fields document.kind document.version := by
  obtain ⟨all, hfold, henvelope, -⟩ := decodeIndex_eq_ok_iff.mp h
  exact (IndexFields.takesEnvelope_withField.envelope_eq_ok_iff hnodup hfold).mp henvelope

/-- Kind and version alone decide how the document is read. -/
theorem dispatchIndex_eq (hnodup : (fields.map (·.1)).Nodup) (h : Envelope fields kind version) :
    dispatchIndex fields =
      if kind ≠ indexKind then .error (.invalidKind kind)
      else if version ≠ indexVersion then .error (.unsupportedVersion version)
      else (decodeIndex fields).mapError .parse := by
  rw [dispatchIndex, (decodeEnvelope_eq_ok_iff hnodup).mpr h]
  dsimp only
  cases decodeIndex fields <;> rfl

theorem dispatchIndex_eq_ok_iff (hnodup : (fields.map (·.1)).Nodup) {document : IndexDocument} :
    dispatchIndex fields = .ok document ↔
      decodeIndex fields = .ok document ∧ document.kind = indexKind ∧
        document.version = indexVersion := by
  constructor
  · intro hok
    cases henvelope : decodeEnvelope fields with
    | error cause => simp [dispatchIndex, henvelope] at hok
    | ok named =>
      have h := (decodeEnvelope_eq_ok_iff hnodup).mp henvelope
      rw [dispatchIndex_eq hnodup h] at hok
      split at hok
      · cases hok
      · next hkind =>
        split at hok
        · cases hok
        · next hversion =>
          cases hstrict : decodeIndex fields with
          | error cause => simp [hstrict, Except.mapError] at hok
          | ok read =>
            rw [hstrict] at hok
            cases hok
            obtain ⟨hk, hv⟩ := h.unique (envelope_of_decodeIndex hnodup hstrict)
            exact ⟨rfl, hk.trans (not_not.mp hkind), hv.trans (not_not.mp hversion)⟩
  · rintro ⟨hstrict, hkind, hversion⟩
    have h := envelope_of_decodeIndex hnodup hstrict
    rw [dispatchIndex_eq hnodup h, if_neg (not_not.mpr hkind), if_neg (not_not.mpr hversion),
      hstrict]
    rfl

/-- Reading an index: a text that is no document or does not name kind and version cannot be parsed;
a wrong kind is refused whatever the version and the rest are, then a wrong version whatever the
rest is; and only what is left is read strictly. -/
theorem readIndex_dispatches (text : String) :
    (∀ fields kind version, document? text = some fields → Envelope fields kind version →
      readIndex text =
        if kind ≠ indexKind then .error (.invalidKind kind)
        else if version ≠ indexVersion then .error (.unsupportedVersion version)
        else (decodeIndex fields).mapError .parse) ∧
    ((∀ fields kind version, document? text = some fields → ¬Envelope fields kind version) →
      ∃ cause, readIndex text = .error (.parse cause)) ∧
    ∀ document, readIndex text = .ok document →
      document.kind = indexKind ∧ document.version = indexVersion := by
  rw [readIndex, readDocument]
  cases hdocument : document? text with
  | none => simp
  | some fields =>
    have hnodup := (Toml.distinct_of_document hdocument).nodup_keys
    refine ⟨?_, ?_, fun document hok => ((dispatchIndex_eq_ok_iff hnodup).mp hok).2⟩
    · rintro _ kind version ⟨⟩ h
      exact dispatchIndex_eq hnodup h
    · intro hnone
      cases henvelope : decodeEnvelope fields with
      | error cause => exact ⟨cause, by simp only [dispatchIndex, henvelope]⟩
      | ok named =>
        exact absurd ((decodeEnvelope_eq_ok_iff hnodup).mp henvelope) (hnone fields _ _ rfl)

/-- A later version is reported, not the units that are none and not the key that is not known. -/
theorem readIndex_dispatches_later :
    Envelope [("units", .integer 3), ("kind", .string indexKind), ("extra", .boolean true),
        ("schema_version", .integer 2)] indexKind 2 ∧
      readIndex ("units = 3\nkind = \"precedence.index\"\nextra = true\nschema_version = 2\n") =
        .error (.unsupportedVersion 2) := by
  have hdocument : document?
      "units = 3\nkind = \"precedence.index\"\nextra = true\nschema_version = 2\n" =
      some [("units", .integer 3), ("kind", .string indexKind), ("extra", .boolean true),
        ("schema_version", .integer 2)] := by
    cbv
  have henvelope : Envelope [("units", .integer 3), ("kind", .string indexKind),
      ("extra", .boolean true), ("schema_version", .integer 2)] indexKind 2 :=
    ⟨rfl, rfl, by decide⟩
  exact ⟨henvelope, (readIndex_dispatches _).1 _ _ _ hdocument henvelope⟩

end ActivationOrder
