import Mathlib.Data.List.Nodup
import ActivationOrder.Proofs.ByteOrder
import ActivationOrder.Proofs.Reading
import ActivationOrder.Proofs.TemporaryNames

/-!
Where declarations stand. The path of a unit's file is the directory with one name behind it, so
wherever it leads, it leads to an entry of the directory, and the files of two units are never one.
The other way round, the units that are found in a directory are just those whose path leads to a
file there. Each is found once, since a directory holds a name once and a name declares one unit, so
the units are in strictly ascending order, whatever the order of the listing.
-/

namespace ActivationOrder

/-! ### A name behind a path -/

namespace Path

variable {dir : Path} {name : String}

theorem fileName?_join (hname : EntryName name) :
    (dir.join ⟨name⟩).fileName? = some name.toList := by
  obtain ⟨front, hfront, -⟩ := @segments_join dir name hname
  have hne : ∀ {other : String}, name ≠ other → name.toList ≠ other.toList :=
    fun h heq => h (String.toList_inj.mp heq)
  rw [fileName?_of_segments hfront (hne hname.nonempty) (hne hname.notHere)]
  exact if_neg (hne hname.notParent)

end Path

namespace Files

variable {files : Files} {dir : Path} {name other : String} {place : Place} {names : List String}

/-- A path to an entry of a directory leads to the entry. -/
theorem exists_of_locate_join (hname : EntryName name)
    (h : files.locate (dir.join ⟨name⟩) = .ok place) :
    ∃ base, files.walk (files.start dir) dir.names = .ok base ∧
      files.get? base = some .directory ∧ place = base ++ [name] := by
  have hwalk := walk_of_follow (locate_eq_ok.mp h).1
  rw [start, Path.isAbsolute_join hname, ← start, Path.names_join hname] at hwalk
  obtain ⟨base, hbase, hstep⟩ := walk_concat_eq_ok.mp hwalk
  exact ⟨base, hbase, step_eq_ok hstep, step_entry hname hstep⟩

/-- Paths to two entries of a directory never lead to one place. -/
theorem locate_join_ne (hname : EntryName name) (hother : EntryName other) (hne : name ≠ other)
    (h : files.locate (dir.join ⟨name⟩) = .ok place) :
    files.locate (dir.join ⟨other⟩) ≠ .ok place := by
  intro h'
  obtain ⟨base, hbase, -, rfl⟩ := exists_of_locate_join hname h
  obtain ⟨base', hbase', -, heq⟩ := exists_of_locate_join hother h'
  obtain rfl : base = base' := Except.ok.inj (hbase.symm.trans hbase')
  exact hne (by simpa using heq)

theorem nameIn?_eq_some_iff {child : Place} :
    nameIn? place child = some name ↔ child = place ++ [name] := by
  rw [nameIn?]
  constructor
  · intro h
    split at h
    · next last hlast =>
      split at h
      · next hplace =>
        cases h
        obtain ⟨front, rfl⟩ := List.getLast?_eq_some_iff.mp hlast
        rw [List.dropLast_concat] at hplace
        rw [hplace]
      · cases h
    · cases h
  · rintro rfl
    simp

/-- A directory holds a name once. -/
theorem nodup_list (h : files.list dir = .ok names) : names.Nodup := by
  rw [list] at h
  cases hplace : files.locate dir with
  | error cause =>
    rw [hplace] at h
    cases h
  | ok place =>
    rw [hplace] at h
    dsimp only [bind, Except.bind] at h
    split at h
    · cases h
    · cases h
    · cases h
      refine List.Nodup.filterMap (fun first second name hfirst hsecond => ?_)
        Std.ExtTreeMap.nodup_keys
      rw [Option.mem_def, nameIn?_eq_some_iff] at hfirst hsecond
      rw [hfirst, hsecond]

end Files

/-! ### Units and their files -/

namespace Declarations

variable {source : Declarations} {names : List String} {units : List UnitId}

theorem noBackslash_fileName {unit : UnitId} (h : nameFault? unit = none) :
    '\\' ∉ (fileName unit).toList := by
  have hbackslash : '\\' ∉ unit.text.toList := by
    intro hmem
    simp [nameFault?, hmem] at h
  rw [toList_fileName, List.mem_append, not_or]
  exact ⟨hbackslash, by decide⟩

theorem fileName_injective {unit other : UnitId} (h : fileName unit = fileName other) :
    unit = other := by
  refine UnitId.ext (String.toList_inj.mp ?_)
  have hchars := congrArg String.toList h
  rw [toList_fileName, toList_fileName] at hchars
  exact List.append_cancel_right hchars

/-- No unit is found twice. -/
theorem nodup_unitsAmong (h : names.Nodup) : (source.unitsAmong names).Nodup := by
  refine (List.mergeSort_perm _ _).nodup_iff.mpr
    (h.filterMap fun first second unit hfirst hsecond => ?_)
  have hname : ∀ {name}, unit ∈ source.unitAt? name → name = fileName unit := by
    intro name hunit
    rw [Option.mem_def, unitAt?] at hunit
    split at hunit
    · exact (unitNamed?_eq_some_iff.mp hunit).2
    · cases hunit
  rw [hname hfirst, hname hsecond]

theorem pairwise_discover (h : source.discover = .ok units) :
    units.Pairwise (·.bytes < ·.bytes) := by
  obtain ⟨names, hnames, rfl⟩ := list_of_discover h
  have hnodup : (source.unitsAmong names).Nodup := nodup_unitsAmong (Files.nodup_list hnames)
  refine (pairwise_unitsAmong.and hnodup).imp fun {a b} ⟨hle, hne⟩ => ?_
  refine UnitId.compare_eq_lt_iff.mp ?_
  cases hcompare : compare a b with
  | lt => rfl
  | eq => exact absurd (Std.LawfulEqCmp.compare_eq_iff_eq.mp hcompare) hne
  | gt =>
    rw [hcompare] at hle
    cases hle

end Declarations

/-- Paths of declarations and the discovery of units undo each other. The path of a unit's file is
the directory with one proper name behind it, which has no separator in it; so wherever it leads, in
any files, it leads to an entry of the directory, and the paths of two units differ and never lead
to one place. And the units found in a directory, in the order of their bytes and however it is
listed, are those whose path leads to a regular file. -/
theorem discover_inverts_pathFor (source : Declarations) :
    (∀ unit path, source.pathFor unit = .ok path →
      ∃ name : String, EntryName name ∧ '\\' ∉ name.toList ∧ path = source.dir.join ⟨name⟩ ∧
        path.fileName? = some name.toList ∧
        ∀ (files : Files) (place : Place), files.locate path = .ok place →
          ∃ base, files.walk (files.start source.dir) source.dir.names = .ok base ∧
            files.get? base = some .directory ∧ place = base ++ [name]) ∧
    (∀ unit other path path', unit ≠ other → source.pathFor unit = .ok path →
      source.pathFor other = .ok path' → path ≠ path' ∧
        ∀ (files : Files) (place : Place), files.locate path = .ok place →
          files.locate path' ≠ .ok place) ∧
    ∀ units, source.discover = .ok units →
      units.Pairwise (·.bytes < ·.bytes) ∧
      (∀ names listed, source.files.list source.dir = .ok names → listed.Perm names →
        source.unitsAmong listed = units) ∧
      ∀ unit, unit ∈ units ↔
        ∃ path, source.pathFor unit = .ok path ∧ source.files.isFile path = true := by
  refine ⟨fun unit path hpath => ?_, fun unit other path path' hne hpath hpath' => ?_,
    fun units hunits => ⟨Declarations.pairwise_discover hunits, fun names listed hnames hlisted => ?_,
      fun unit => Declarations.mem_discover hunits⟩⟩
  · obtain ⟨hfault, rfl⟩ := Declarations.pathFor_eq_ok_iff.mp hpath
    have hname := Declarations.entryName_fileName hfault
    exact ⟨_, hname, Declarations.noBackslash_fileName hfault, rfl, Path.fileName?_join hname,
      fun files place => Files.exists_of_locate_join hname⟩
  · obtain ⟨hfault, rfl⟩ := Declarations.pathFor_eq_ok_iff.mp hpath
    obtain ⟨hfault', rfl⟩ := Declarations.pathFor_eq_ok_iff.mp hpath'
    have hname := Declarations.entryName_fileName hfault
    have hname' := Declarations.entryName_fileName hfault'
    have hnames : Declarations.fileName unit ≠ Declarations.fileName other :=
      fun h => hne (Declarations.fileName_injective h)
    refine ⟨fun heq => hnames ?_, fun files place => Files.locate_join_ne hname hname' hnames⟩
    have hlast := congrArg Path.fileName? heq
    rw [Path.fileName?_join hname, Path.fileName?_join hname'] at hlast
    exact String.toList_inj.mp (Option.some.inj hlast)
  · obtain ⟨names', hnames', rfl⟩ := Declarations.list_of_discover hunits
    obtain rfl : names = names' := Except.ok.inj (hnames.symm.trans hnames')
    exact Declarations.unitsAmong_perm hlisted

namespace Sample

/-- The unit `a.`, whose file is `a..toml`. -/
def dotted : UnitId := ⟨"a.", by decide⟩

/-- A directory with the files of two units, and with what declares none: names that only look like
declarations, and a directory that is named like one. -/
def littered : Declarations where
  dir := ⟨"units"⟩
  files :=
    { entries := .ofList [(["units"], Entry.directory),
        (["units", "c.toml"], Entry.file ByteArray.empty),
        (["units", "a..toml"], Entry.file ByteArray.empty),
        (["units", "..toml"], Entry.file ByteArray.empty),
        (["units", ".toml"], Entry.file ByteArray.empty),
        (["units", "b.toml"], Entry.directory)]
      here := [] }

theorem discover_littered : littered.discover = .ok [dotted, c] := by
  have hlist : littered.files.list littered.dir =
      .ok ["..toml", ".toml", "a..toml", "b.toml", "c.toml"] := by
    decide +kernel
  exact Declarations.discover_of_list hlist (by decide +kernel) (by decide +kernel)

end Sample

/-- The dot at the end of an id is no part of the extension, and a directory declares nothing. -/
theorem discover_inverts_pathFor_littered :
    Sample.littered.discover = .ok [Sample.dotted, Sample.c] ∧
      [Sample.dotted, Sample.c].Pairwise (·.bytes < ·.bytes) ∧
      (∃ path, Sample.littered.pathFor Sample.dotted = .ok path ∧
        Sample.littered.files.isFile path = true) ∧
      Sample.littered.pathFor Sample.b = .ok ⟨"units/b.toml"⟩ ∧
      Sample.littered.files.isFile ⟨"units/b.toml"⟩ ≠ true := by
  obtain ⟨-, -, hfound⟩ := discover_inverts_pathFor Sample.littered
  obtain ⟨hascending, -, hmem⟩ := hfound _ Sample.discover_littered
  have hpath : Sample.littered.pathFor Sample.b = .ok ⟨"units/b.toml"⟩ := by decide +kernel
  refine ⟨Sample.discover_littered, hascending, (hmem Sample.dotted).mp (by simp), hpath,
    fun hfile => ?_⟩
  have hb := (hmem Sample.b).mpr ⟨_, hpath, hfile⟩
  exact absurd hb (by decide)

end ActivationOrder
