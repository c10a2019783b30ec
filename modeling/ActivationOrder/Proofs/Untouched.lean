import ActivationOrder.Proofs.Replacing

/-!
What writing an index does besides. Of the regular files only two are touched, the one at the target
and the one at the place of the temporary file. Once the target is replaced the second place is
empty, whatever was there before; when the temporary file has been opened and something fails before
that, it is left behind, with as much of the index as was written, over what was there before; and
every earlier failure leaves all files as they are.
-/

namespace ActivationOrder

namespace Files

variable {before made after : Files} {path : Path} {place other : Place} {entry : Entry}
  {bytes : ByteArray}

/-- One regular file is at the place in both trees, or none in either. -/
def SameFileAt (before after : Files) (place : Place) : Prop :=
  ∀ bytes, after.get? place = some (.file bytes) ↔ before.get? place = some (.file bytes)

/-- No regular file is new, changed or gone, but for the one that the path leads to. -/
def TouchesOnly (before after : Files) (path : Path) : Prop :=
  ∀ place, after.locate path ≠ .ok place → before.SameFileAt after place

theorem SameFileAt.trans (h : before.SameFileAt made place) (h' : made.SameFileAt after place) :
    before.SameFileAt after place :=
  fun bytes => (h' bytes).trans (h bytes)

/-- More directories are no other files. -/
theorem Grown.sameFileAt (h : before.Grown made) (place : Place) : before.SameFileAt made place :=
  fun _ => ⟨h.file, h.keeps⟩

theorem sameFileAt_put (h : other ≠ place) : made.SameFileAt (made.put place entry) other :=
  fun _ => by rw [get?_put_of_ne h]

theorem sameFileAt_remove (h : other ≠ place) : made.SameFileAt (made.remove place) other :=
  fun _ => by rw [get?_remove_of_ne h]

/-- If a single other place can be touched, all depends on it. -/
theorem touchesOnly_iff (hne : after.locate path ≠ .ok place)
    (h : ∀ other, other ≠ place → after.locate path ≠ .ok other → before.SameFileAt after other) :
    before.TouchesOnly after path ↔ before.SameFileAt after place := by
  refine ⟨fun honly => honly place hne, fun hplace other hother => ?_⟩
  by_cases heq : other = place
  · exact heq ▸ hplace
  · exact h other heq hother

/-- A file at a path to which the target does not lead is there before and after, or neither, if the
target alone is touched. -/
theorem TouchesOnly.isFile_eq {other : Path} (h : before.TouchesOnly after path)
    (hpath : after.locate path ≠ .ok place) (hslash : other.endsInSlash = false)
    (hbefore : before.follow other = .ok place) (hafter : after.follow other = .ok place) :
    before.isFile other = after.isFile other := by
  rw [Bool.eq_iff_iff, isFile_iff, isFile_iff]
  refine exists_congr fun bytes => ?_
  rw [find_eq_file_iff, find_eq_file_iff]
  simp [hslash, hbefore, hafter, h place hpath bytes]

/-- A file somewhere else that comes to be, or goes, is touched. -/
theorem not_touchesOnly {other : Path} (hpath : after.locate path ≠ .ok place)
    (hslash : other.endsInSlash = false) (hbefore : before.follow other = .ok place)
    (hafter : after.follow other = .ok place) (hother : before.isFile other ≠ after.isFile other) :
    ¬ before.TouchesOnly after path :=
  fun honly => hother (honly.isFile_eq hpath hslash hbefore hafter)

/-- At a place that is empty now, there was no file if there was nothing, and no directory goes. -/
theorem sameFileAt_iff_of_none (hwider : before.Wider after) (h : after.get? place = none) :
    before.SameFileAt after place ↔ before.get? place = none := by
  rw [SameFileAt, h]
  cases hbefore : before.get? place with
  | none => simp
  | some found =>
    cases found with
    | file bytes => simp
    | directory =>
      rw [hwider.directory place hbefore] at h
      cases h

theorem sameFileAt_iff_of_file (h : after.get? place = some (.file bytes)) :
    before.SameFileAt after place ↔ before.get? place = some (.file bytes) := by
  rw [SameFileAt, h]
  constructor
  · exact fun hsame => (hsame bytes).mp rfl
  · intro hbefore found
    rw [hbefore]

end Files

namespace Index

variable {index : Index} {files made written after : Files} {path : Path} {place : Place}
  {bytes : ByteArray} {fault : Option OsError} {faults : Faults}

/-- The temporary file is put where the path does not lead. -/
theorem locate_ne_of_put_temporary (hrooted : made.Rooted)
    (hlocate : made.locate (temporaryPath path) = .ok place)
    (hplace : made.get? place ≠ some .directory) :
    (made.put place (.file bytes)).locate path ≠ .ok place := by
  intro hpath
  have hput : (made.put place (.file bytes)).get? place = some (.file bytes) :=
    Files.get?_put_self (Files.ne_root hplace)
  obtain ⟨hslash, hfollow⟩ := Files.follow_of_locate hpath (by rw [hput]; simp)
  exact Files.locate_temporaryPath_ne hrooted ((Files.put_wider hplace).follow hfollow) hslash
    hplace hlocate rfl

/-- The move leaves nothing behind, and touches no third file. -/
theorem moved_of_rename (hlocate : written.locate (temporaryPath path) = .ok place)
    (hpath : written.locate path ≠ .ok place)
    (h : written.rename (temporaryPath path) path fault = .ok after) :
    written.Wider after ∧ after.locate path ≠ .ok place ∧ after.get? place = none ∧
      ∀ other, other ≠ place → after.locate path ≠ .ok other → written.SameFileAt after other := by
  obtain ⟨fromPlace, target, bytes, hfrom, hfollow, hfile, hslash, htarget, rfl⟩ :=
    Files.rename_eq_ok h
  obtain rfl : place = fromPlace := Except.ok.inj (hlocate.symm.trans hfrom)
  have htargetPath := Files.locate_of_follow hfollow hslash
  have hne : place ≠ target := by
    rintro rfl
    exact hpath htargetPath
  have hremoved : written.Wider (written.remove place) := Files.wider_remove (by rw [hfile]; simp)
  have hput : (written.remove place).Wider ((written.remove place).put target (.file bytes)) :=
    Files.wider_put (by rwa [Files.get?_remove_of_ne hne.symm])
  have hafter := hput.locate (hremoved.locate htargetPath)
  refine ⟨hremoved.trans hput, ?_, ?_, ?_⟩
  · rw [hafter]
    exact fun heq => hne (Except.ok.inj heq).symm
  · rw [Files.get?_put_of_ne hne, Files.get?_remove written (Files.ne_root (by rw [hfile]; simp)),
      if_pos rfl]
  · intro other hother hothers
    have hothers : other ≠ target := by
      rintro rfl
      exact hothers hafter
    exact (Files.sameFileAt_remove hother).trans (Files.sameFileAt_put hothers)

/-- After a success the place of the temporary file is empty. -/
theorem touched_of_ok (hrooted : files.Rooted)
    (h : index.write files path faults = (.ok (), after)) :
    files.Wider after ∧ ∃ place, after.locate (temporaryPath path) = .ok place ∧
      after.locate path ≠ .ok place ∧ after.get? place = none ∧
      ∀ other, other ≠ place → after.locate path ≠ .ok other → files.SameFileAt after other := by
  have hends := index.written files path faults
  rw [h] at hends
  cases hends with
  | @moved made _ place hgrown hlocate hplace hrenamed =>
    have hput : made.Wider (made.put place (.file index.text.toUTF8)) := Files.wider_put hplace
    have hpath : (made.put place (.file index.text.toUTF8)).locate path ≠ .ok place :=
      locate_ne_of_put_temporary (hgrown.rooted hrooted) hlocate hplace
    obtain ⟨hwider, hpath', hnone, hsame⟩ := moved_of_rename (hput.locate hlocate) hpath hrenamed
    refine ⟨(hgrown.wider.trans hput).trans hwider, place, hwider.locate (hput.locate hlocate),
      hpath', hnone, fun other hother hothers => ?_⟩
    exact ((hgrown.sameFileAt other).trans (Files.sameFileAt_put hother)).trans
      (hsame other hother hothers)

/-- After a failure no file is touched, or only the temporary file is, which holds as much of the
index as was written. -/
theorem touched_of_error {cause : IndexError} (hrooted : files.Rooted)
    (h : index.write files path faults = (.error cause, after)) :
    files.Wider after ∧ ((∀ place, files.SameFileAt after place) ∨
      ∃ place, after.locate (temporaryPath path) = .ok place ∧ after.locate path ≠ .ok place ∧
        after.get? place = some (.file (faults.written index.text.toUTF8)) ∧
        ∀ other, other ≠ place → files.SameFileAt after other) := by
  have hends := index.written files path faults
  rw [h] at hends
  cases hends with
  | stopped hgrown => exact ⟨hgrown.wider, .inl hgrown.sameFileAt⟩
  | @left _ made place hgrown hlocate hplace =>
    have hput : made.Wider (made.put place (.file (faults.written index.text.toUTF8))) :=
      Files.wider_put hplace
    refine ⟨hgrown.wider.trans hput, .inr ⟨place, hput.locate hlocate,
      locate_ne_of_put_temporary (hgrown.rooted hrooted) hlocate hplace,
      Files.get?_put_self (Files.ne_root hplace), fun other hother => ?_⟩⟩
    exact (hgrown.sameFileAt other).trans (Files.sameFileAt_put hother)

end Index

/-! ### The command -/

/-- What an index command does to files, whatever changes the system refuses, in a tree without
links whose files can all be read. When it replaces its target, nothing is at the place of the
temporary file afterwards, and no third file is touched: so it touches the target alone exactly if
nothing was there before. It then succeeds, but for one that prints JSON and whose target has a path
that is no text. Otherwise it fails, and either it touches no file, or at this place is as much of
the index as was written, which is all of it unless writing stopped, and no other file is touched:
then no file is touched exactly if just these bytes were there before. Directories stay in any case.
-/
theorem index_touches_iff (context : Context) (world : World) (output : Path) (outside : Outside)
    (hrooted : world.files.Rooted) :
    let run := (Invocation.mk context (.index output)).run world outside
    let path := context.resolvePath world.files output
    let temporary := Index.temporaryPath path
    world.files.Wider run.2 ∧
      ((∃ settings place, context.resolve world.env world.files = .ok settings ∧
          run.1.exit = (if settings.format = .json ∧ outside.isText path = false then 1 else 0) ∧
          run.2.locate temporary = .ok place ∧ run.2.locate path ≠ .ok place ∧
          run.2.get? place = none ∧
          (∀ other, other ≠ place → run.2.locate path ≠ .ok other →
            world.files.SameFileAt run.2 other) ∧
          (world.files.TouchesOnly run.2 path ↔ world.files.get? place = none)) ∨
        (run.1.exit = 1 ∧ ∀ place, world.files.SameFileAt run.2 place) ∨
        run.1.exit = 1 ∧ ∃ settings dir index place,
          context.resolve world.env world.files = .ok settings ∧
          settings.declarations = some dir ∧
          (Declarations.mk dir world.files).buildIndex = .ok index ∧
          run.2.locate temporary = .ok place ∧ run.2.locate path ≠ .ok place ∧
          run.2.get? place = some (.file (outside.faults.written index.text.toUTF8)) ∧
          (∀ other, other ≠ place → world.files.SameFileAt run.2 other) ∧
          (world.files.TouchesOnly run.2 path ↔
            world.files.get? place = some (.file (outside.faults.written index.text.toUTF8)))) := by
  intro run path temporary
  have hrefl : world.files.Grown world.files := .refl world.files
  have hrun : run =
      context.withSettings world (indexCommand context world.files output outside) := rfl
  rw [hrun, Context.withSettings]
  cases hsettings : context.resolve world.env world.files with
  | error cause => exact ⟨hrefl.wider, .inr (.inl ⟨rfl, hrefl.sameFileAt⟩)⟩
  | ok settings =>
    dsimp only
    rcases indexCommand_ends context world.files output outside settings with
      ⟨hexit, hfiles⟩ | ⟨dir, index, answer, after, hdir, hindex, hwrite, hafter, hexit⟩
    · rw [hfiles]
      exact ⟨hrefl.wider, .inr (.inl ⟨hexit, hrefl.sameFileAt⟩)⟩
    · rw [hafter]
      cases answer with
      | ok _ =>
        obtain ⟨hwider, place, hlocate, hpath, hnone, hsame⟩ := Index.touched_of_ok hrooted hwrite
        refine ⟨hwider, .inl ⟨settings, place, rfl, hexit, hlocate, hpath, hnone, hsame, ?_⟩⟩
        rw [Files.touchesOnly_iff hpath hsame]
        exact Files.sameFileAt_iff_of_none hwider hnone
      | error cause =>
        have hexit := hexit.trans (ite_self 1)
        obtain ⟨hwider, hsame | ⟨place, hlocate, hpath, hfile, hsame⟩⟩ :=
          Index.touched_of_error hrooted hwrite
        · exact ⟨hwider, .inr (.inl ⟨hexit, hsame⟩)⟩
        · refine ⟨hwider, .inr (.inr ⟨hexit, settings, dir, index, place, rfl, hdir, hindex,
            hlocate, hpath, hfile, hsame, ?_⟩)⟩
          rw [Files.touchesOnly_iff hpath fun other hother _ => hsame other hother]
          exact Files.sameFileAt_iff_of_file hfile

namespace Sample

/-- Files with a declaration, and a directory `idx`. -/
def strewn : World where
  files :=
    { entries := .ofList [(["units"], Entry.directory),
        (["units", "a.toml"], Entry.file "order = 1\n".toUTF8), (["idx"], Entry.directory)]
      here := [] }

/-- The same files, and one where the temporary file for `z` will be. -/
def taken : World where
  files := strewn.files.put ["z.toml.tmp"] (.file "kept".toUTF8)

theorem rooted_strewn : strewn.files.Rooted := by
  have hkeys : strewn.files.entries.keys = [["idx"], ["units"], ["units", "a.toml"]] := by
    decide +kernel
  have hunits : strewn.files.entries[["units"]]? = some Entry.directory := by rfl
  refine Files.rooted_of_keys ?_
  rw [hkeys]
  simp [Files.get?, hunits]

/-- A file comes to be beside `idx`, also beside `w` when the disk is full, and the one beside `z`
is gone. -/
theorem not_touchesOnly_strewn :
    ¬ strewn.files.TouchesOnly ((indexing ⟨"idx"⟩).run strewn).2 ⟨"/idx"⟩ ∧
      ¬ strewn.files.TouchesOnly ((indexing ⟨"w"⟩).run strewn fullDisk).2 ⟨"/w"⟩ ∧
      ¬ taken.files.TouchesOnly ((indexing ⟨"z"⟩).run taken).2 ⟨"/z"⟩ := by
  refine ⟨?_, ?_, ?_⟩
  · have hplace : strewn.files.follow ⟨"/idx.toml.tmp"⟩ = .ok ["idx.toml.tmp"] := by decide +kernel
    exact Files.not_touchesOnly (by decide +kernel) rfl hplace (by decide +kernel)
      (by decide +kernel)
  · have hplace : strewn.files.follow ⟨"/w.toml.tmp"⟩ = .ok ["w.toml.tmp"] := by decide +kernel
    exact Files.not_touchesOnly (by decide +kernel) rfl hplace (by decide +kernel)
      (by decide +kernel)
  · have hplace : taken.files.follow ⟨"/z.toml.tmp"⟩ = .ok ["z.toml.tmp"] := by decide +kernel
    exact Files.not_touchesOnly (by decide +kernel) rfl hplace (by decide +kernel)
      (by decide +kernel)

end Sample

/-- A new index is written where no file is in the way. Where a directory is, the index is left in
the temporary file, and on a full disk a part of it. -/
theorem index_touches_iff_strewn :
    Sample.strewn.files.Rooted ∧
      Sample.strewn.files.TouchesOnly ((Sample.indexing ⟨"w"⟩).run Sample.strewn).2 ⟨"/w"⟩ ∧
      ∃ index, (Declarations.mk ⟨"/units"⟩ Sample.strewn.files).buildIndex = .ok index ∧
        ((Sample.indexing ⟨"idx"⟩).run Sample.strewn).2.get? ["idx.toml.tmp"] =
          some (.file index.text.toUTF8) ∧
        ((Sample.indexing ⟨"w"⟩).run Sample.strewn Sample.fullDisk).2.get? ["w.toml.tmp"] =
          some (.file (index.text.toUTF8.extract 0 7)) := by
  have hpath : Sample.fromUnits.resolvePath Sample.strewn.files ⟨"w"⟩ = ⟨"/w"⟩ := by decide +kernel
  refine ⟨Sample.rooted_strewn, ?_, ?_⟩
  · have hexit : ((Sample.indexing ⟨"w"⟩).run Sample.strewn).1.exit = 0 := by decide +kernel
    have hplace : ((Sample.indexing ⟨"w"⟩).run Sample.strewn).2.locate
        (Index.temporaryPath ⟨"/w"⟩) = .ok ["w.toml.tmp"] := by decide +kernel
    obtain ⟨-, ⟨_, place, -, -, hlocate, -, -, -, honly⟩ | ⟨hfailed, -⟩ | ⟨hfailed, -⟩⟩ :=
      index_touches_iff Sample.fromUnits Sample.strewn ⟨"w"⟩ {} Sample.rooted_strewn
    · rw [hpath] at hlocate honly
      obtain rfl : place = ["w.toml.tmp"] := Except.ok.inj (hlocate.symm.trans hplace)
      exact honly.mpr (by decide +kernel)
    · exact absurd (hexit.symm.trans hfailed) (by decide)
    · exact absurd (hexit.symm.trans hfailed) (by decide)
  · obtain ⟨hleft, hpart, -⟩ := Sample.not_touchesOnly_strewn
    have hexit : ((Sample.indexing ⟨"idx"⟩).run Sample.strewn).1.exit = 1 := by decide +kernel
    have hexit' : ((Sample.indexing ⟨"w"⟩).run Sample.strewn Sample.fullDisk).1.exit = 1 := by
      decide +kernel
    have hpath' : Sample.fromUnits.resolvePath Sample.strewn.files ⟨"idx"⟩ = ⟨"/idx"⟩ := by
      decide +kernel
    have hplace : ((Sample.indexing ⟨"idx"⟩).run Sample.strewn).2.locate
        (Index.temporaryPath ⟨"/idx"⟩) = .ok ["idx.toml.tmp"] := by decide +kernel
    have hplace' : ((Sample.indexing ⟨"w"⟩).run Sample.strewn Sample.fullDisk).2.locate
        (Index.temporaryPath ⟨"/w"⟩) = .ok ["w.toml.tmp"] := by decide +kernel
    obtain ⟨-, ⟨_, _, -, hdone, -⟩ | ⟨-, hsame⟩ | ⟨-, settings, dir, index, place, hsettings, hdir,
        hindex, hlocate, -, hfile, -⟩⟩ :=
      index_touches_iff Sample.fromUnits Sample.strewn ⟨"idx"⟩ {} Sample.rooted_strewn
    · exact absurd (hexit.symm.trans (exit_of_isText hdone rfl)) (by decide)
    · exact absurd (fun place _ => hsame place) hleft
    obtain ⟨-, ⟨_, _, -, hdone, -⟩ | ⟨-, hsame⟩ | ⟨-, settings', dir', index', place', hsettings',
        hdir', hindex', hlocate', -, hfile', -⟩⟩ :=
      index_touches_iff Sample.fromUnits Sample.strewn ⟨"w"⟩ Sample.fullDisk Sample.rooted_strewn
    · exact absurd (hexit'.symm.trans (exit_of_isText hdone rfl)) (by decide)
    · exact absurd (fun place _ => hsame place) hpart
    rw [hpath'] at hlocate
    rw [hpath] at hlocate'
    obtain rfl : place = ["idx.toml.tmp"] := Except.ok.inj (hlocate.symm.trans hplace)
    obtain rfl : place' = ["w.toml.tmp"] := Except.ok.inj (hlocate'.symm.trans hplace')
    obtain rfl : dir = ⟨"/units"⟩ := Sample.dir_of_settings (by decide +kernel) hsettings hdir
    obtain rfl : dir' = ⟨"/units"⟩ := Sample.dir_of_settings (by decide +kernel) hsettings' hdir'
    obtain rfl : index' = index := Except.ok.inj (hindex'.symm.trans hindex)
    exact ⟨index', hindex, hfile, hfile'⟩

/-- Files are touched that are not the target: a temporary file is left behind by a command that
fails, with the index or a part of it, and a file that only had the name of one is gone after a
command that succeeds. -/
theorem index_touches_others :
    (((Sample.indexing ⟨"idx"⟩).run Sample.strewn).1.exit = 1 ∧
      Sample.fromUnits.resolvePath Sample.strewn.files ⟨"idx"⟩ = ⟨"/idx"⟩ ∧
      ¬ Sample.strewn.files.TouchesOnly ((Sample.indexing ⟨"idx"⟩).run Sample.strewn).2 ⟨"/idx"⟩) ∧
    (((Sample.indexing ⟨"w"⟩).run Sample.strewn Sample.fullDisk).1.exit = 1 ∧
      Sample.fromUnits.resolvePath Sample.strewn.files ⟨"w"⟩ = ⟨"/w"⟩ ∧
      ¬ Sample.strewn.files.TouchesOnly
        ((Sample.indexing ⟨"w"⟩).run Sample.strewn Sample.fullDisk).2 ⟨"/w"⟩) ∧
    ((Sample.indexing ⟨"z"⟩).run Sample.taken).1.exit = 0 ∧
      Sample.fromUnits.resolvePath Sample.taken.files ⟨"z"⟩ = ⟨"/z"⟩ ∧
      ¬ Sample.taken.files.TouchesOnly ((Sample.indexing ⟨"z"⟩).run Sample.taken).2 ⟨"/z"⟩ := by
  obtain ⟨hleft, hpart, hgone⟩ := Sample.not_touchesOnly_strewn
  exact ⟨⟨by decide +kernel, by decide +kernel, hleft⟩,
    ⟨by decide +kernel, by decide +kernel, hpart⟩, by decide +kernel, by decide +kernel, hgone⟩

end ActivationOrder
