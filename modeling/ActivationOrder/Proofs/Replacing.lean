import ActivationOrder.CommandLine.Commands
import ActivationOrder.Proofs.IndexText
import ActivationOrder.Proofs.TemporaryNames

/-!
Writing an index. The index goes to a temporary file first, which then takes the place of the
target. Writing a file, or a part of it, makes no directory and takes none away, so all paths lead
where they led before; and the temporary file is not where the target is. So whatever the system
refuses on the way, the target is not touched, and when nothing fails the target is read back as the
index that was written. Two surprises lie between: making the directories that a target stands in
can open a way to a file that could not be reached by it before, and the command can fail when all
is done, for what it then says of the target.
-/

namespace ActivationOrder

namespace Files

variable {files made : Files} {path : Path} {place other : Place} {entry : Entry}
  {bytes : ByteArray} {fault : Option OsError} {faults : Faults}

/-! ### Writing and moving files -/

theorem get?_remove_of_ne (h : other ≠ place) :
    (files.remove place).get? other = files.get? other := by
  by_cases hroot : other = []
  · rw [hroot]
    rfl
  · rw [get?_remove files hroot, if_neg h]

theorem ne_of_file (h : files.get? place ≠ some .directory)
    (hother : files.get? other = some .directory) : other ≠ place := by
  rintro rfl
  exact h hother

/-- A file in the place of no directory leaves all directories. -/
theorem wider_put (h : files.get? place ≠ some .directory) :
    files.Wider (files.put place entry) := by
  refine ⟨rfl, fun other hother => ?_⟩
  rw [get?_put_of_ne (ne_of_file h hother)]
  exact hother

/-- A file is no new directory. -/
theorem put_wider (h : files.get? place ≠ some .directory) :
    (files.put place (.file bytes)).Wider files := by
  refine ⟨rfl, fun other hother => ?_⟩
  have hne : other ≠ place := by
    rintro rfl
    rw [get?_put_self (ne_root h)] at hother
    cases hother
  rwa [get?_put_of_ne hne] at hother

theorem wider_remove (h : files.get? place ≠ some .directory) :
    files.Wider (files.remove place) := by
  refine ⟨rfl, fun other hother => ?_⟩
  rw [get?_remove_of_ne (ne_of_file h hother)]
  exact hother

/-- A second change at a place takes the place of the first. -/
theorem put_put (files : Files) (place : Place) (first last : Entry) :
    (files.put place first).put place last = files.put place last := by
  simp only [put, Files.mk.injEq, and_true]
  refine Std.ExtTreeMap.ext_getElem? fun other => ?_
  simp only [Std.ExtTreeMap.getElem?_insert]
  split <;> rfl

/-- A file is opened where the path leads, and there is no directory. -/
theorem create_eq_ok (h : files.create path fault = .ok (place, made)) :
    files.locate path = .ok place ∧ files.get? place ≠ some .directory ∧
      made = files.put place (.file .empty) := by
  rw [create] at h
  cases hlocate : files.locate path with
  | error cause =>
    rw [hlocate] at h
    cases h
  | ok found =>
    simp only [hlocate, bind, Except.bind] at h
    split at h
    · cases h
    · cases h
    · next hplace =>
      obtain ⟨rfl, rfl⟩ := Prod.mk.inj (Except.ok.inj h)
      exact ⟨rfl, hplace, rfl⟩

/-- Writing a file changes nothing, or puts as much of the bytes as is written where the path leads,
and there is no directory. -/
inductive Wrote (files : Files) (path : Path) (bytes : ByteArray) (faults : Faults) :
    Except OsError Unit × Files → Prop
  | refused (cause : OsError) : Wrote files path bytes faults (.error cause, files)
  | put {answer : Except OsError Unit} {place : Place} (hlocate : files.locate path = .ok place)
      (hplace : files.get? place ≠ some .directory)
      (hall : answer = .ok () → faults.written bytes = bytes) :
      Wrote files path bytes faults (answer, files.put place (.file (faults.written bytes)))

theorem wrote (files : Files) (path : Path) (bytes : ByteArray) (faults : Faults) :
    Wrote files path bytes faults (files.write path bytes faults) := by
  rw [write]
  split
  · next cause _ => exact .refused cause
  · next place opened hcreate =>
    obtain ⟨hlocate, hplace, rfl⟩ := create_eq_ok hcreate
    dsimp only
    rw [put_put]
    split
    · exact .put hlocate hplace nofun
    · exact .put hlocate hplace nofun
    · next hwrite _ => exact .put hlocate hplace fun _ => by rw [Faults.written, hwrite]

/-- A file that is moved is one, and takes the place of no directory. -/
theorem rename_eq_ok {source target : Path} (h : files.rename source target fault = .ok made) :
    ∃ fromPlace toPlace bytes, files.locate source = .ok fromPlace ∧
      files.follow target = .ok toPlace ∧ files.get? fromPlace = some (.file bytes) ∧
      target.endsInSlash = false ∧ files.get? toPlace ≠ some .directory ∧
      made = (files.remove fromPlace).put toPlace (.file bytes) := by
  rw [rename] at h
  cases hlocate : files.locate source with
  | error cause =>
    rw [hlocate] at h
    cases h
  | ok fromPlace =>
    cases hfollow : files.follow target with
    | error cause =>
      rw [hlocate, hfollow] at h
      cases h
    | ok toPlace =>
      simp only [hlocate, hfollow, bind, Except.bind] at h
      split at h
      · cases h
      · cases h
      · cases h
      · split at h
        · cases h
        · cases h
        · next bytes hfile =>
          split at h
          · cases h
          · next hslash =>
            split at h
            · cases h
            · cases h
            · next hplace =>
              exact ⟨fromPlace, toPlace, bytes, rfl, rfl, hfile, by simpa using hslash, hplace,
                (Except.ok.inj h).symm⟩

/-- Unless the path goes back out of a directory, a file stays one and none comes to be. -/
theorem KeepsFileAt.isFile_eq (h : files.KeepsFileAt made path) (hback : ".." ∉ path.names) :
    made.isFile path = files.isFile path := by
  rw [Bool.eq_iff_iff, isFile_iff, isFile_iff]
  refine exists_congr fun bytes => ⟨fun hfind => ?_, h.kept bytes⟩
  exact (h.known bytes hfind).resolve_right fun hopened => hback hopened.1

end Files

namespace Index

variable {index : Index} {files after : Files} {path : Path} {faults : Faults}

/-- How writing an index ends: with its answer and the files after it. -/
inductive Written (index : Index) (files : Files) (path : Path) (faults : Faults) :
    Except IndexError Unit × Files → Prop
  /-- There is no temporary file, only directories were made. -/
  | stopped {cause : IndexError} {made : Files} (hgrown : files.Grown made) :
      Written index files path faults (.error cause, made)
  /-- The temporary file stays where it is, with as much of the index as was written. -/
  | left {cause : IndexError} {made : Files} {place : Place} (hgrown : files.Grown made)
      (hlocate : made.locate (temporaryPath path) = .ok place)
      (hplace : made.get? place ≠ some .directory) :
      Written index files path faults
        (.error cause, made.put place (.file (faults.written index.text.toUTF8)))
  /-- The temporary file has taken the place of the target. -/
  | moved {made after : Files} {place : Place} (hgrown : files.Grown made)
      (hlocate : made.locate (temporaryPath path) = .ok place)
      (hplace : made.get? place ≠ some .directory)
      (hrenamed : (made.put place (.file index.text.toUTF8)).rename (temporaryPath path) path
        faults.rename = .ok after) :
      Written index files path faults (.ok (), after)

theorem written (index : Index) (files : Files) (path : Path) (faults : Faults) :
    Written index files path faults (index.write files path faults) := by
  have hgrown := files.grown_makeDirectories ((path.parent?.filter (·.text ≠ "")).getD ⟨""⟩) faults
  rw [write]
  dsimp only
  split
  · next made hmade =>
    rw [hmade] at hgrown
    exact .stopped hgrown
  · next made hmade =>
    rw [hmade] at hgrown
    have hwrote := made.wrote (temporaryPath path) index.text.toUTF8 faults
    split
    · next hwritten =>
      rw [hwritten] at hwrote
      cases hwrote with
      | refused => exact .stopped hgrown
      | put hlocate hplace _ => exact .left hgrown hlocate hplace
    · next hwritten =>
      rw [hwritten] at hwrote
      cases hwrote with
      | put hlocate hplace hall =>
        split
        · exact .left hgrown hlocate hplace
        · next hrenamed => exact .moved hgrown hlocate hplace (hall rfl ▸ hrenamed)

end Index

/-! ### The command -/

theorem Printed.exit_note (verbosity : Verbosity) (message : String) :
    (note verbosity message).exit = 0 := by
  rw [note]
  split <;> rfl

/-- With its settings the command either fails before it writes, or does what writing the index
does; then it fails when this fails, or when it cannot print where the index is. -/
theorem indexCommand_ends (context : Context) (files : Files) (output : Path) (outside : Outside)
    (settings : Settings) :
    let ended := indexCommand context files output outside settings
    let path := context.resolvePath files output
    (ended.1.exit = 1 ∧ ended.2 = files) ∨
      ∃ dir index answer after, settings.declarations = some dir ∧
        (Declarations.mk dir files).buildIndex = .ok index ∧
        index.write files path outside.faults = (answer, after) ∧ ended.2 = after ∧
        ended.1.exit =
          if settings.format = .json ∧ outside.isText path = false then 1
          else if answer.isOk then 0 else 1 := by
  intro ended path
  unfold ended indexCommand
  split
  · exact .inl ⟨rfl, rfl⟩
  · next dir hdir =>
    split
    · exact .inl ⟨rfl, rfl⟩
    · next index hindex =>
      dsimp only
      split
      · next cause after hwrite =>
        refine .inr ⟨dir, index, .error cause, after, hdir, hindex, hwrite, rfl, ?_⟩
        exact (ite_self 1).symm
      · next after hwrite =>
        refine .inr ⟨dir, index, .ok (), after, hdir, hindex, hwrite, rfl, ?_⟩
        cases settings.format with
        | text => exact Printed.exit_note _ _
        | json => cases outside.isText path <;> rfl

/-- Where the index is can be printed when its path is text. -/
theorem exit_of_isText {outside : Outside} {path : Path} {format : OutputFormat} {exit : Nat}
    (h : exit = if format = .json ∧ outside.isText path = false then 1 else 0)
    (htext : outside.isText path = true) : exit = 0 := by
  rw [h, htext]
  simp

namespace Sample

theorem dir_of_settings {context : Context} {world : World} {settings : Settings} {dir found : Path}
    (hfound : (context.resolve world.env world.files).toOption.bind (·.declarations) = some found)
    (hsettings : context.resolve world.env world.files = .ok settings)
    (hdir : settings.declarations = some dir) : dir = found := by
  rw [hsettings] at hfound
  exact Option.some.inj (hdir.symm.trans hfound)

/-- Flags that say where the declarations are. -/
def fromUnits : Context := { declarations := some ⟨"units"⟩ }

/-- The command that writes the index of `units`. -/
def indexing (output : Path) : Invocation := ⟨fromUnits, .index output⟩

/-- The disk has room for seven more bytes. -/
def fullDisk : Outside where
  faults := { write := some (7, .reported "No space left on device (os error 28)") }

end Sample

end ActivationOrder
