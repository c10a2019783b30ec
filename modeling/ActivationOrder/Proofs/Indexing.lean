import Mathlib
import ActivationOrder.Batch.Check
import ActivationOrder.Proofs.Alike
import ActivationOrder.Proofs.FileNames
import ActivationOrder.Source.Tree

/-!
Indexing a directory. The index of a directory covers just the units whose declarations can be read,
and answers for them what the directory answers. So over the directory it never shows: sorts and
checks of the index with the directory behind it give what they give for the directory alone, and
so does the index without it for units that it covers. A directory with a declaration that cannot be
read has no index; what is reported is the first such declaration.
-/

namespace ActivationOrder

open Source (Alike)

namespace Declarations

variable {source : Declarations} {units : List UnitId} {unit : UnitId} {index result : Index}

/-! ### The index of some units -/

/-- An index takes in the units one after the other, and all of them can be read. -/
theorem foldlM_indexed_eq_ok : ∀ {units : List UnitId} {index : Index},
    units.foldlM source.indexed index = .ok result →
    ∀ unit, (unit ∈ units → ∃ metadata, source.metadataOf unit = .ok metadata ∧
        result.units[unit]? = some metadata) ∧
      (unit ∉ units → result.units[unit]? = index.units[unit]?)
  | [], index, h, unit => by
    cases h
    simp
  | first :: units, index, h, unit => by
    rw [List.foldlM_cons, indexed] at h
    cases hfirst : source.metadataOf first with
    | error cause =>
      rw [hfirst] at h
      cases h
    | ok metadata =>
      rw [hfirst] at h
      obtain ⟨hmem, hother⟩ := foldlM_indexed_eq_ok h unit
      by_cases hunit : unit ∈ units
      · exact ⟨fun _ => hmem hunit, fun hnot => absurd (List.mem_cons_of_mem _ hunit) hnot⟩
      · have hresult := hother hunit
        rw [Index.insert, Std.ExtTreeMap.getElem?_insert] at hresult
        by_cases heq : first = unit
        · subst heq
          rw [if_pos (Std.LawfulEqCmp.compare_eq_iff_eq.mpr rfl)] at hresult
          exact ⟨fun _ => ⟨metadata, hfirst, hresult⟩, fun h => absurd List.mem_cons_self h⟩
        · rw [if_neg fun h => heq (Std.LawfulEqCmp.compare_eq_iff_eq.mp h)] at hresult
          refine ⟨fun h => ?_, fun _ => hresult⟩
          exact absurd ((List.mem_cons.mp h).resolve_left (Ne.symm heq)) hunit

/-- The first unit that cannot be read is reported. -/
theorem foldlM_indexed_eq_error : ∀ {units : List UnitId} (index : Index),
    (∃ unit ∈ units, ∃ cause, source.metadataOf unit = .error cause) →
    ∃ front unit rest cause, units = front ++ unit :: rest ∧
      (∀ earlier ∈ front, ∃ metadata, source.metadataOf earlier = .ok metadata) ∧
      source.metadataOf unit = .error cause ∧ units.foldlM source.indexed index = .error cause
  | [], _, ⟨_, hmem, _⟩ => by cases hmem
  | first :: units, index, ⟨unit, hmem, cause, hcause⟩ => by
    rw [List.foldlM_cons, indexed]
    cases hfirst : source.metadataOf first with
    | error cause => exact ⟨[], first, units, cause, rfl, by simp, hfirst, rfl⟩
    | ok metadata =>
      have hunits : unit ∈ units := by
        refine (List.mem_cons.mp hmem).resolve_left ?_
        rintro rfl
        rw [hfirst] at hcause
        cases hcause
      obtain ⟨front, failing, rest, cause, rfl, hfront, hfailing, hresult⟩ :=
        foldlM_indexed_eq_error (index.insert first metadata) ⟨unit, hunits, cause, hcause⟩
      refine ⟨first :: front, failing, rest, cause, rfl, ?_, hfailing, hresult⟩
      exact List.forall_mem_cons.mpr ⟨⟨metadata, hfirst⟩, hfront⟩

/-! ### The index of the directory -/

theorem metadataOf_eq_ok {text : String} {declared : Declaration}
    (hname : nameFault? unit = none)
    (htext : source.files.readText (source.dir.join ⟨fileName unit⟩) = .ok text)
    (hread : readDeclaration text = .ok declared) :
    source.metadataOf unit = .ok declared.metadata := by
  simp only [metadataOf, pathFor_eq_ok_iff.mpr ⟨hname, rfl⟩, htext, hread]

theorem metadataOf_eq_error {text : String} {cause : SchemaError}
    (hname : nameFault? unit = none)
    (htext : source.files.readText (source.dir.join ⟨fileName unit⟩) = .ok text)
    (hread : readDeclaration text = .error cause) :
    source.metadataOf unit =
      .error (.unreadable unit (.malformed (source.dir.join ⟨fileName unit⟩) cause)) := by
  simp only [metadataOf, pathFor_eq_ok_iff.mpr ⟨hname, rfl⟩, htext, hread]

theorem isFile_of_metadataOf {metadata : Metadata} (h : source.metadataOf unit = .ok metadata) :
    ∃ path, source.pathFor unit = .ok path ∧ source.files.isFile path = true := by
  rw [metadataOf] at h
  split at h
  · cases h
  · next path hpath =>
    split at h
    · cases h
    · next text htext => exact ⟨path, hpath, Files.isFile_of_readText htext⟩

/-- The index has the metadata of the units that can be read, and no other units. -/
theorem getElem?_buildIndex (h : source.buildIndex = .ok index) (unit : UnitId) :
    index.units[unit]? = (source.metadataOf unit).toOption := by
  rw [buildIndex] at h
  split at h
  · cases h
  · next units hunits =>
    obtain ⟨hmem, hother⟩ := foldlM_indexed_eq_ok h unit
    by_cases hunit : unit ∈ units
    · obtain ⟨metadata, hread, hentry⟩ := hmem hunit
      rw [hentry, hread]
      rfl
    · rw [hother hunit]
      cases hread : source.metadataOf unit with
      | error cause => simp [Index.empty, Except.toOption]
      | ok metadata =>
        exact absurd ((mem_discover hunits).mpr (isFile_of_metadataOf hread)) hunit

theorem covers_buildIndex (h : source.buildIndex = .ok index) (unit : UnitId) :
    index.covers unit = true ↔ ∃ metadata, source.metadataOf unit = .ok metadata := by
  rw [Index.covers, Std.ExtTreeMap.contains_iff_mem, Std.ExtTreeMap.mem_iff_isSome_getElem?,
    getElem?_buildIndex h]
  cases source.metadataOf unit <;> simp [Except.toOption]

theorem read_buildIndex (h : source.buildIndex = .ok index) (hcovers : index.covers unit = true) :
    (Source.read index unit).1 = (Source.read source unit).1 := by
  obtain ⟨metadata, hread⟩ := (covers_buildIndex h unit).mp hcovers
  have hentry : index.metadataOf unit = metadata := by
    rw [Index.metadataOf, Std.ExtTreeMap.getD_eq_getD_getElem?, getElem?_buildIndex h, hread]
    rfl
  change Except.ok (index.metadataOf unit) = source.metadataOf unit
  rw [hentry, hread]

/-- The index alone is alike to the directory on the units that it covers. -/
theorem alike_index (h : source.buildIndex = .ok index) :
    Alike (fun unit => index.covers unit = true) index source :=
  .of_constant (fun _ hunit => hunit) (fun _ hunit => read_buildIndex h hunit) (fun _ => rfl)
    fun _ => rfl

/-- An index with the directory behind it. -/
def behind (source : Declarations) (index : Index) : SourceTree Store :=
  .layered (.leaf (.inl index)) (.leaf (.inr source))

/-- The index over the directory is alike to the directory. -/
theorem alike_behind (h : source.buildIndex = .ok index) :
    Alike (fun _ => True) (source.behind index) source := by
  refine .of_constant (fun unit _ => ?_) (fun unit _ => ?_) (fun unit => ?_) fun _ => rfl
  · exact Bool.or_true (index.covers unit)
  · change ((SourceTree.layered _ _).read unit).1 = _
    rw [SourceTree.read]
    split
    · next hcovers => exact read_buildIndex h hcovers
    · rfl
  · change ((SourceTree.layered _ _).read unit).2 = _
    rw [SourceTree.read]
    split <;> rfl

/-- A directory without index has a first declaration that cannot be read. -/
theorem buildIndex_eq_error (hunits : source.discover = .ok units)
    (hfails : ∃ unit ∈ units, ∃ cause, source.metadataOf unit = .error cause) :
    ∃ unit ∈ units, ∃ cause, source.metadataOf unit = .error cause ∧
      (∀ earlier ∈ units, compare earlier unit = .lt →
        ∃ metadata, source.metadataOf earlier = .ok metadata) ∧
      source.buildIndex = .error cause := by
  obtain ⟨front, unit, rest, cause, hsplit, hfront, hcause, hresult⟩ :=
    foldlM_indexed_eq_error .empty hfails
  refine ⟨unit, by simp [hsplit], cause, hcause, fun earlier hearlier hlt => ?_, ?_⟩
  · obtain ⟨names, -, hnames⟩ := list_of_discover hunits
    have hsorted : (front ++ unit :: rest).Pairwise fun a b => (compare a b).isLE :=
      hsplit ▸ hnames ▸ pairwise_unitsAmong
    rw [hsplit] at hearlier
    rcases List.mem_append.mp hearlier with hearlier | hearlier
    · exact hfront earlier hearlier
    · rcases List.mem_cons.mp hearlier with rfl | hearlier
      · exact absurd hlt (Std.OrientedCmp.not_lt_of_lt hlt)
      · have hle := (List.pairwise_cons.mp (List.pairwise_append.mp hsorted).2.1).1 earlier hearlier
        rw [Std.OrientedCmp.gt_of_lt hlt] at hle
        cases hle
  · rw [buildIndex, hunits]
    exact hresult

end Declarations

/-- The index of a directory covers what can be read there and answers alike, so it never shows in
sorts and checks, with the directory behind it or, for covered units, alone. The units are found in
whatever order the directory is listed, and if one cannot be read, the least such unit is reported
in place of an index. -/
theorem buildIndex_agrees (source : Declarations) :
    (∀ index, source.buildIndex = .ok index →
      (∀ unit, (Source.covers index unit = true ↔
          ∃ metadata, (Source.read source unit).1 = .ok metadata) ∧
        (Source.covers index unit = true →
          (Source.read index unit).1 = (Source.read source unit).1)) ∧
      (∀ units, (sort (source.behind index) units).1 = (sort source units).1 ∧
        (check (source.behind index) units).1 = (check source units).1) ∧
      ∀ units, (∀ unit ∈ units, Source.covers index unit = true) →
        (sort index units).1 = (sort source units).1 ∧
          (check index units).1 = (check source units).1) ∧
    ∀ units, source.discover = .ok units →
      (∀ names listed, source.files.list source.dir = .ok names → listed.Perm names →
        source.unitsAmong listed = units) ∧
      ((∃ unit ∈ units, ∃ cause, (Source.read source unit).1 = .error cause) →
        ∃ unit ∈ units, ∃ cause, (Source.read source unit).1 = .error cause ∧
          (∀ earlier ∈ units, compare earlier unit = .lt →
            ∃ metadata, (Source.read source earlier).1 = .ok metadata) ∧
          source.buildIndex = .error cause) := by
  constructor
  · intro index hindex
    refine ⟨fun unit => ⟨?_, ?_⟩, ?_, ?_⟩
    · exact Declarations.covers_buildIndex hindex unit
    · exact Declarations.read_buildIndex hindex
    · intro units
      exact results_eq_of_alike (Declarations.alike_behind hindex) fun _ _ => trivial
    · intro units hunits
      exact results_eq_of_alike (Declarations.alike_index hindex) hunits
  · intro units hunits
    refine ⟨fun names listed hnames hlisted => ?_, Declarations.buildIndex_eq_error hunits⟩
    obtain ⟨names', hnames', rfl⟩ := Declarations.list_of_discover hunits
    rw [hnames] at hnames'
    cases hnames'
    exact Declarations.unitsAmong_perm hlisted

namespace Sample

/-- A directory in which `a` declares nothing, and `b` what the text says. -/
def directory (text : String) : Declarations where
  dir := ⟨"units"⟩
  files :=
    { entries := .ofList [(["units"], Entry.directory),
        (["units", "a.toml"], Entry.file "".toUTF8),
        (["units", "b.toml"], Entry.file text.toUTF8)]
      here := [] }

variable (text : String)

theorem readText_directory :
    (directory text).files.readText ((directory text).dir.join ⟨Declarations.fileName a⟩) =
        .ok "" ∧
      (directory text).files.readText ((directory text).dir.join ⟨Declarations.fileName b⟩) =
        .ok text := by
  have hjoinA : (Path.mk "units").join ⟨Declarations.fileName a⟩ = ⟨"units/a.toml"⟩ := by
    decide +kernel
  have hjoinB : (Path.mk "units").join ⟨Declarations.fileName b⟩ = ⟨"units/b.toml"⟩ := by
    decide +kernel
  change (directory text).files.readText ((Path.mk "units").join ⟨Declarations.fileName a⟩) = _ ∧
    (directory text).files.readText ((Path.mk "units").join ⟨Declarations.fileName b⟩) = _
  rw [hjoinA, hjoinB]
  exact ⟨Files.readText_of_find rfl, Files.readText_of_find rfl⟩

theorem discover_directory : (directory text).discover = .ok [a, b] := by
  obtain ⟨htextA, htextB⟩ := readText_directory text
  have hlist : (directory text).files.list (directory text).dir =
      .ok [Declarations.fileName a, Declarations.fileName b] := by
    cbv
  have hunitA : (directory text).unitAt? (Declarations.fileName a) = some a := by
    rw [Declarations.unitAt?, if_pos (Files.isFile_of_readText htextA)]
    decide +kernel
  have hunitB : (directory text).unitAt? (Declarations.fileName b) = some b := by
    rw [Declarations.unitAt?, if_pos (Files.isFile_of_readText htextB)]
    decide +kernel
  refine Declarations.discover_of_list hlist ?_ (by decide +kernel)
  simp only [List.filterMap_cons, hunitA, hunitB, List.filterMap_nil]

theorem metadataOf_directory : (directory text).metadataOf a = .ok {} := by
  have hread : readDeclaration "" = .ok {} := by cbv
  exact Declarations.metadataOf_eq_ok (by decide +kernel) (readText_directory text).1 hread

end Sample

/-- With an order for `b` the directory has an index; with a text that is no document, `b` is what
is reported. -/
theorem buildIndex_agrees_directory :
    (∃ index, (Sample.directory "order = 1").buildIndex = .ok index ∧
      (sort index [Sample.a, Sample.b]).1 =
        (sort (Sample.directory "order = 1") [Sample.a, Sample.b]).1) ∧
    (Sample.directory "order = x").buildIndex =
      .error (.unreadable Sample.b (.malformed ⟨"units/b.toml"⟩ (.parse .notDocument))) := by
  constructor
  · have hread : readDeclaration "order = 1" =
        .ok { order := some ⟨1, by decide, by decide⟩ } := by
      cbv
    have hdiscover := Sample.discover_directory "order = 1"
    have ha := Sample.metadataOf_directory "order = 1"
    have hb := Declarations.metadataOf_eq_ok (by decide +kernel)
      (Sample.readText_directory "order = 1").2 hread
    generalize Sample.directory "order = 1" = source at hdiscover ha hb ⊢
    have hindex : ∃ index, source.buildIndex = .ok index := by
      simp only [Declarations.buildIndex, hdiscover, List.foldlM_cons, Declarations.indexed, ha, hb]
      exact ⟨_, rfl⟩
    obtain ⟨index, hindex⟩ := hindex
    obtain ⟨hcovers, -, hsort⟩ := (buildIndex_agrees source).1 index hindex
    have hboth : ∀ unit ∈ [Sample.a, Sample.b], Source.covers index unit = true := by
      intro unit hunit
      rcases List.mem_cons.mp hunit with rfl | hunit
      · exact (hcovers _).1.mpr ⟨_, ha⟩
      · obtain rfl := List.mem_singleton.mp hunit
        exact (hcovers _).1.mpr ⟨_, hb⟩
    exact ⟨index, hindex, (hsort _ hboth).1⟩
  · have hfault : readDeclaration "order = x" = .error (.parse .notDocument) := by cbv
    have hjoin : (Sample.directory "order = x").dir.join ⟨Declarations.fileName Sample.b⟩ =
        ⟨"units/b.toml"⟩ := by
      decide +kernel
    have hdiscover := Sample.discover_directory "order = x"
    have ha := Sample.metadataOf_directory "order = x"
    have hb := Declarations.metadataOf_eq_error (by decide +kernel)
      (Sample.readText_directory "order = x").2 hfault
    rw [hjoin] at hb
    generalize Sample.directory "order = x" = source at hdiscover ha hb ⊢
    have hfails : ∃ unit ∈ [Sample.a, Sample.b], ∃ cause,
        (Source.read source unit).1 = .error cause := ⟨Sample.b, by simp, _, hb⟩
    obtain ⟨unit, hunit, cause, hcause, -, hindex⟩ :=
      ((buildIndex_agrees source).2 _ hdiscover).2 hfails
    rcases List.mem_cons.mp hunit with rfl | hunit
    · exact absurd (hcause.symm.trans ha) (by simp)
    · obtain rfl := List.mem_singleton.mp hunit
      rw [hindex, Except.error.inj (hcause.symm.trans hb)]

end ActivationOrder
