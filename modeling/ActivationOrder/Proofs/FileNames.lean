import Mathlib.Data.List.Basic
import ActivationOrder.Source.Declarations

/-!
Names of declaration files. A path through a directory to one of its entries takes one step more
than the path to the directory, so whatever can be read there is also listed there. And a unit whose
id can be a file name is the one unit that its file's name stands for: taking the name apart at its
last dot undoes putting the extension behind the id, dots in the id included. So `discover` finds
just the units whose path leads to a file.
-/

namespace ActivationOrder

/-! ### Entries of directories -/

namespace Text

/-- The pieces of two texts with a separator between them. -/
theorem pieces_append_cons (separator : Char) (text rest : List Char) :
    pieces separator (text ++ separator :: rest) =
      pieces separator text ++ pieces separator rest := by
  induction text with
  | nil => simp [pieces]
  | cons c text ih =>
    rw [List.cons_append, pieces, pieces, ih]
    split
    · rfl
    · obtain ⟨piece, more, hp⟩ := List.exists_cons_of_ne_nil (pieces_ne_nil separator text)
      rw [hp]
      rfl

end Text

/-- A name that stands for an entry of a directory. -/
structure EntryName (name : String) : Prop where
  nonempty : name ≠ ""
  noSlash : '/' ∉ name.toList
  notHere : name ≠ "."
  notParent : name ≠ ".."

namespace Path

variable {dir : Path} {name : String}

theorem join_text (hdir : dir.text ≠ "") (hname : EntryName name) :
    (dir.join ⟨name⟩).text =
      if dir.endsInSlash then dir.text ++ name else dir.text ++ "/" ++ name := by
  have habsolute : (Path.mk name).isAbsolute = false := by
    rw [isAbsolute, chars, decide_eq_false_iff_not]
    exact fun h => hname.noSlash (List.mem_of_mem_head? h)
  simp only [join, habsolute, Bool.false_or, beq_iff_eq, if_neg hdir]
  split <;> rfl

theorem isAbsolute_join (hname : EntryName name) :
    (dir.join ⟨name⟩).isAbsolute = dir.isAbsolute := by
  by_cases hdir : dir.text = ""
  · have hslash : name.toList.head? ≠ some '/' :=
      fun h => hname.noSlash (List.mem_of_mem_head? h)
    simp [join, isAbsolute, chars, hdir, hslash]
  · obtain ⟨c, rest, hc⟩ := List.exists_cons_of_ne_nil fun h => hdir (String.toList_eq_nil_iff.mp h)
    simp only [isAbsolute, chars, join_text hdir hname]
    split <;> simp [hc]

/-- The name is the last segment, and those before it are the directory's, but for empty ones. -/
theorem segments_join (hname : EntryName name) :
    ∃ front, (dir.join ⟨name⟩).segments = front ++ [name.toList] ∧
      front.filter (· ≠ []) = dir.segments.filter (· ≠ []) := by
  have hpieces := Text.pieces_of_not_mem hname.noSlash
  by_cases hdir : dir.text = ""
  · refine ⟨[], ?_, ?_⟩
    · simpa [join, hdir, segments, chars] using hpieces
    · simp [segments, chars, hdir, Text.pieces]
  · rw [segments, segments, chars, chars, join_text hdir hname]
    split
    · next hslash =>
      obtain ⟨front, hfront⟩ := List.getLast?_eq_some_iff.mp (of_decide_eq_true hslash)
      rw [chars] at hfront
      refine ⟨Text.pieces '/' front, ?_, ?_⟩
      · rw [String.toList_append, hfront, List.append_assoc, List.singleton_append,
          Text.pieces_append_cons, hpieces]
      · rw [hfront, Text.pieces_append_cons]
        simp [Text.pieces]
    · exact ⟨Text.pieces '/' dir.text.toList, by simp [Text.pieces_append_cons, hpieces], rfl⟩

/-- The last step of the way is the name. -/
theorem names_join (hname : EntryName name) : (dir.join ⟨name⟩).names = dir.names ++ [name] := by
  have hne : name.toList ≠ [] := fun h => hname.nonempty (String.toList_eq_nil_iff.mp h)
  obtain ⟨front, hsegments, hfront⟩ := @segments_join dir name hname
  rw [names, names, hsegments, List.filter_append, hfront]
  simp [hne]

end Path

namespace Files

variable {files : Files} {dir : Path} {name : String} {names : List String}

theorem step_here {place next : Place} :
    files.step place "." = .ok next ↔ next = place ∧ files.get? place = some .directory := by
  rw [step]
  cases files.get? place with
  | none => simp
  | some entry => cases entry <;> simp [eq_comm]

theorem step_eq_ok {place next : Place} (h : files.step place name = .ok next) :
    files.get? place = some .directory := by
  rw [step] at h
  split at h
  · cases h
  · cases h
  · assumption

/-- The place of an entry is one step from the place of its directory. -/
theorem step_entry {place next : Place} (hname : EntryName name)
    (h : files.step place name = .ok next) : next = place ++ [name] := by
  rw [step, step_eq_ok h] at h
  simp only [if_neg hname.notHere, if_neg hname.notParent] at h
  split at h
  · cases h
  · exact (Except.ok.inj h).symm

theorem follow_eq_ok {path : Path} {place : Place} (h : files.follow path = .ok place) :
    '\x00' ∉ path.chars ∧ path.text ≠ "" ∧ path.text.utf8ByteSize ≤ pathLimit ∧
      path.names.foldlM files.step (if path.isAbsolute then [] else files.here) = .ok place := by
  rw [follow] at h
  split at h
  · cases h
  · next hnul =>
    split at h
    · cases h
    · next hempty =>
      split at h
      · cases h
      · next hsize => exact ⟨by simpa using hnul, hempty, Nat.le_of_not_lt hsize, h⟩

/-- A path leads where its names do; with a slash at its end, only to a directory. -/
theorem locate_eq_ok {path : Path} {place : Place} :
    files.locate path = .ok place ↔ files.follow path = .ok place ∧
      (path.endsInSlash = true → files.get? place = some .directory) := by
  rw [locate]
  cases files.follow path with
  | error cause => simp [bind, Except.bind]
  | ok last =>
    cases path.endsInSlash with
    | true =>
      simp only [bind, Except.bind, if_true, step_here, Except.ok.injEq, forall_const]
      constructor
      · rintro ⟨rfl, h⟩
        exact ⟨rfl, h⟩
      · rintro ⟨rfl, h⟩
        exact ⟨rfl, h⟩
    | false => simp [bind, Except.bind, pure, Except.pure]

theorem find_eq_ok {path : Path} {entry : Entry} : files.find path = .ok entry ↔
    ∃ place, files.locate path = .ok place ∧ files.get? place = some entry := by
  rw [find]
  cases files.locate path with
  | error cause => simp [bind, Except.bind]
  | ok place =>
    simp only [bind, Except.bind, Except.ok.injEq, exists_eq_left']
    cases files.get? place <;> simp [pure, Except.pure, throw, throwThe, MonadExceptOf.throw]

/-- A path that leads to an entry of a directory leads through the directory. -/
theorem locate_join {next : Place} (hdir : dir.text ≠ "") (hname : EntryName name)
    (h : files.locate (dir.join ⟨name⟩) = .ok next) :
    ∃ place, files.locate dir = .ok place ∧ files.get? place = some .directory ∧
      next = place ++ [name] := by
  obtain ⟨hnul, -, hsize, hsteps⟩ := follow_eq_ok (locate_eq_ok.mp h).1
  rw [Path.names_join hname, Path.isAbsolute_join hname, List.foldlM_append] at hsteps
  cases hplace : dir.names.foldlM files.step (if dir.isAbsolute then [] else files.here) with
  | error cause =>
    rw [hplace] at hsteps
    cases hsteps
  | ok place =>
    have hstep : files.step place name = .ok next := by
      rw [hplace] at hsteps
      cases hstep : files.step place name with
      | error cause => simp [bind, Except.bind, hstep] at hsteps
      | ok last => simpa [bind, Except.bind, pure, Except.pure, hstep] using hsteps
    have hdirectory := step_eq_ok hstep
    have htext := Path.join_text hdir hname
    refine ⟨place, ?_, hdirectory, step_entry hname hstep⟩
    have hfollow : files.follow dir = .ok place := by
      rw [follow, if_neg, if_neg hdir, if_neg, hplace]
      · refine Nat.not_lt_of_le (Nat.le_trans ?_ hsize)
        rw [htext]
        split <;> simp only [String.utf8ByteSize_append] <;> omega
      · rw [List.contains_iff_mem]
        refine fun hmem => hnul ?_
        rw [Path.chars] at hmem ⊢
        rw [htext]
        split <;> simp [hmem]
    exact locate_eq_ok.mpr ⟨hfollow, fun _ => hdirectory⟩

theorem mem_list {entry : Entry} (hlist : files.list dir = .ok names) (hname : EntryName name)
    (h : files.find (dir.join ⟨name⟩) = .ok entry) : name ∈ names := by
  have hdir : dir.text ≠ "" := by
    intro hempty
    simp [list, locate, follow, hempty, Path.chars, bind, Except.bind] at hlist
  obtain ⟨next, hlocate, hentry⟩ := find_eq_ok.mp h
  obtain ⟨place, hplace, hdirectory, rfl⟩ := locate_join hdir hname hlocate
  rw [list, hplace] at hlist
  simp only [bind, Except.bind, hdirectory, pure, Except.pure, Except.ok.injEq] at hlist
  rw [← hlist, List.mem_filterMap]
  refine ⟨place ++ [name], ?_, by simp [nameIn?]⟩
  rw [get?, if_neg (by simp)] at hentry
  rw [Std.ExtTreeMap.mem_keys, Std.ExtTreeMap.mem_iff_isSome_getElem?, hentry]
  rfl

theorem isFile_iff {path : Path} :
    files.isFile path = true ↔ ∃ bytes, files.find path = .ok (.file bytes) := by
  rw [isFile]
  split
  · next bytes hfind => simp [hfind]
  · next hnone =>
    refine ⟨fun h => by simp at h, ?_⟩
    rintro ⟨bytes, h⟩
    exact absurd h (hnone bytes)

theorem isFile_of_readText {path : Path} {text : String} (h : files.readText path = .ok text) :
    files.isFile path = true := by
  rw [isFile_iff]
  rw [readText] at h
  cases hfind : files.find path with
  | error cause => simp [hfind, bind, Except.bind] at h
  | ok entry =>
    cases entry with
    | file bytes => exact ⟨bytes, rfl⟩
    | directory => simp [hfind, bind, Except.bind] at h

theorem readText_of_find {path : Path} {text : String}
    (h : files.find path = .ok (.file text.toUTF8)) : files.readText path = .ok text := by
  have hbytes : String.fromUTF8? text.toUTF8 = some text := dif_pos text.isValidUTF8
  rw [readText, h]
  simp only [bind, Except.bind, hbytes]
  rfl

end Files

/-! ### Names of units -/

/-- A name is cut at its last dot, unless this is all there is but a dot. -/
theorem Path.splitExtension_append_of_ne {stem extension : List Char} (hstem : stem ≠ [])
    (hdots : stem ++ '.' :: extension ≠ ['.', '.']) (hdot : '.' ∉ extension) :
    splitExtension (stem ++ '.' :: extension) = (stem, some extension) := by
  have hpos : ∀ c ∈ extension.reverse, decide (c ≠ '.') = true := by
    intro c hc
    rw [decide_eq_true_eq]
    exact fun h => hdot (h ▸ List.mem_reverse.mp hc)
  have hreverse : (stem ++ '.' :: extension).reverse =
      extension.reverse ++ '.' :: stem.reverse := by simp
  rw [splitExtension, hreverse, List.takeWhile_append_of_pos hpos,
    List.dropWhile_append_of_pos hpos]
  simp [hstem, hdots]

theorem Path.splitExtension_append {stem extension : List Char} (hstem : stem ≠ [])
    (hextension : extension ≠ []) (hdot : '.' ∉ extension) :
    splitExtension (stem ++ '.' :: extension) = (stem, some extension) := by
  refine splitExtension_append_of_ne hstem (fun h => ?_) hdot
  have hlength := congrArg List.length h
  have hs := List.length_pos_iff.mpr hstem
  have he := List.length_pos_iff.mpr hextension
  simp at hlength
  omega

/-- A name with an extension is cut at its last dot. -/
theorem Path.eq_append_of_splitExtension {name stem extension : List Char}
    (h : splitExtension name = (stem, some extension)) : name = stem ++ '.' :: extension := by
  rw [splitExtension] at h
  split at h
  · cases h
  · next c rest hrest =>
    split at h
    · cases h
    · cases h
      have hc : c = '.' := by
        have hhead := List.head?_dropWhile_not (fun c : Char => decide (c ≠ '.')) name.reverse
        rw [hrest] at hhead
        simpa using hhead
      have hname := List.takeWhile_append_dropWhile (p := fun c : Char => decide (c ≠ '.'))
        (l := name.reverse)
      rw [hrest, hc] at hname
      simpa using (congrArg List.reverse hname).symm

namespace Declarations

variable {unit : UnitId} {name : String}

/-- The name of the file that declares a unit. -/
def fileName (unit : UnitId) : String := unit.text ++ "." ++ fileExtension

theorem toList_fileName (unit : UnitId) :
    (fileName unit).toList = unit.text.toList ++ '.' :: fileExtension.toList := by
  simp [fileName]

theorem entryName_fileName (h : nameFault? unit = none) : EntryName (fileName unit) := by
  have hslash : '/' ∉ unit.text.toList := by
    intro hmem
    simp [nameFault?, hmem] at h
  have hlength : 6 ≤ (fileName unit).toList.length := by
    have hpos : 0 < unit.text.toList.length :=
      List.length_pos_iff.mpr fun h => unit.nonempty (String.toList_eq_nil_iff.mp h)
    rw [toList_fileName, List.length_append, List.length_cons]
    have : fileExtension.toList.length = 4 := by decide
    omega
  constructor
  · rintro heq
    simp [heq] at hlength
  · rw [toList_fileName, List.mem_append, not_or]
    exact ⟨hslash, by decide⟩
  · rintro heq
    simp [heq] at hlength
  · rintro heq
    simp [heq] at hlength

/-- A name declares a unit when it is the name of the unit's file. -/
theorem unitNamed?_eq_some_iff :
    unitNamed? name = some unit ↔ nameFault? unit = none ∧ name = fileName unit := by
  have hstem : unit.text.toList ≠ [] := fun h => unit.nonempty (String.toList_eq_nil_iff.mp h)
  constructor
  · intro h
    rw [unitNamed?] at h
    split at h
    · next stem extension hsplit =>
      split at h
      · next hextension =>
        split at h
        · next found hfound =>
          split at h
          · next hfault =>
            cases h
            have htext : unit.text = String.ofList stem :=
              (UnitId.ofString_eq_ok_iff.mp hfound).symm
            refine ⟨Option.isNone_iff_eq_none.mp hfault, String.toList_inj.mp ?_⟩
            rw [toList_fileName, htext, String.toList_ofList, ← hextension]
            exact Path.eq_append_of_splitExtension hsplit
          · cases h
        · cases h
      · cases h
    · cases h
  · rintro ⟨hfault, rfl⟩
    rw [unitNamed?, toList_fileName,
      Path.splitExtension_append hstem (by decide) (by decide)]
    simp [hfault]

/-! ### Units with a file -/

variable {source : Declarations} {names : List String} {units : List UnitId}

theorem pathFor_eq_ok_iff {path : Path} :
    source.pathFor unit = .ok path ↔
      nameFault? unit = none ∧ path = source.dir.join ⟨fileName unit⟩ := by
  rw [pathFor]
  cases nameFault? unit with
  | some cause => simp
  | none => simp [fileName, eq_comm]

theorem mem_unitsAmong :
    unit ∈ source.unitsAmong names ↔ nameFault? unit = none ∧ fileName unit ∈ names ∧
      source.files.isFile (source.dir.join ⟨fileName unit⟩) = true := by
  rw [unitsAmong, List.mem_mergeSort, List.mem_filterMap]
  constructor
  · rintro ⟨name, hname, h⟩
    rw [unitAt?] at h
    split at h
    · next hfile =>
      obtain ⟨hfault, rfl⟩ := unitNamed?_eq_some_iff.mp h
      exact ⟨hfault, hname, hfile⟩
    · cases h
  · rintro ⟨hfault, hname, hfile⟩
    refine ⟨fileName unit, hname, ?_⟩
    rw [unitAt?, if_pos hfile]
    exact unitNamed?_eq_some_iff.mpr ⟨hfault, rfl⟩

theorem list_of_discover (h : source.discover = .ok units) :
    ∃ names, source.files.list source.dir = .ok names ∧ units = source.unitsAmong names := by
  rw [discover] at h
  split at h
  · cases h
  · next names hnames => exact ⟨names, hnames, (Except.ok.inj h).symm⟩

theorem discover_of_list {names : List String}
    (hlist : source.files.list source.dir = .ok names)
    (hunits : names.filterMap source.unitAt? = units)
    (hsorted : units.Pairwise fun a b => (compare a b).isLE) : source.discover = .ok units := by
  rw [discover, hlist]
  dsimp only
  rw [unitsAmong, hunits, List.mergeSort_of_pairwise hsorted]

/-- The units that are found are those whose path leads to a file. -/
theorem mem_discover (h : source.discover = .ok units) :
    unit ∈ units ↔ ∃ path, source.pathFor unit = .ok path ∧ source.files.isFile path = true := by
  obtain ⟨names, hnames, rfl⟩ := list_of_discover h
  rw [mem_unitsAmong]
  constructor
  · rintro ⟨hfault, -, hfile⟩
    exact ⟨_, pathFor_eq_ok_iff.mpr ⟨hfault, rfl⟩, hfile⟩
  · rintro ⟨path, hpath, hfile⟩
    obtain ⟨hfault, rfl⟩ := pathFor_eq_ok_iff.mp hpath
    obtain ⟨bytes, hfind⟩ := Files.isFile_iff.mp hfile
    exact ⟨hfault, Files.mem_list hnames (entryName_fileName hfault) hfind, hfile⟩

theorem pairwise_unitsAmong : (source.unitsAmong names).Pairwise fun a b => (compare a b).isLE := by
  refine List.pairwise_mergeSort (fun a b c hab hbc => ?_) (fun a b => ?_) _
  · exact Std.TransCmp.isLE_trans hab hbc
  · rw [Bool.or_eq_true]
    cases hab : compare a b with
    | lt => exact .inl rfl
    | eq => exact .inl rfl
    | gt => exact .inr (by rw [Std.OrientedCmp.lt_of_gt hab]; rfl)

/-- The order in which a directory is listed does not matter. -/
theorem unitsAmong_perm {listed : List String} (h : listed.Perm names) :
    source.unitsAmong listed = source.unitsAmong names := by
  have hperm : (source.unitsAmong listed).Perm (source.unitsAmong names) :=
    ((List.mergeSort_perm _ _).trans (h.filterMap _)).trans (List.mergeSort_perm _ _).symm
  refine hperm.eq_of_pairwise (fun a b _ _ hab hba => ?_) pairwise_unitsAmong pairwise_unitsAmong
  exact Std.LawfulEqCmp.compare_eq_iff_eq.mp (Std.OrientedCmp.isLE_antisymm hab hba)

end Declarations

end ActivationOrder
