import Mathlib.Data.List.Induction
import ActivationOrder.Proofs.FileNames

/-!
Ways through trees of files. Which way a path takes depends on the directories alone, so it takes
the same way when there are more of them; it may then lead somewhere where it led nowhere before. In
a rooted tree, where everything stands in a directory, a path leads to something other than a
directory only by a proper name at its end. Making directories changes nothing that is there: after
it, what a path did not lead to before is either a new directory, or was there and is reached by
going back out of one.
-/

namespace ActivationOrder

theorem Path.names_ne_nil {path : Path} (h : path.text ≠ "") (hrelative : path.isAbsolute = false) :
    path.names ≠ [] := by
  obtain ⟨c, rest, hc⟩ := List.exists_cons_of_ne_nil fun h' => h (String.toList_eq_nil_iff.mp h')
  have hslash : c ≠ '/' := by
    rw [isAbsolute, chars, hc] at hrelative
    simpa using hrelative
  obtain ⟨piece, more, hp⟩ := List.exists_cons_of_ne_nil (Text.pieces_ne_nil '/' rest)
  rw [names, segments, chars, hc, Text.pieces, if_neg hslash, hp]
  simp

namespace Files

variable {files made : Files} {path : Path} {place other next : Place} {name : String}
  {names : List String} {entry : Entry} {fault : Option OsError}

/-- Everything stands in a directory. -/
def Rooted (files : Files) : Prop :=
  ∀ place, (files.get? place).isSome → files.get? place.dropLast = some .directory

theorem rooted_of_keys (h : ∀ place ∈ files.entries.keys,
    files.get? place.dropLast = some .directory) : files.Rooted := by
  intro place hplace
  by_cases hroot : place = []
  · rw [hroot]
    rfl
  · rw [get?, if_neg hroot] at hplace
    refine h place ?_
    rwa [Std.ExtTreeMap.mem_keys, Std.ExtTreeMap.mem_iff_isSome_getElem?]

/-- The place that names lead to, one after the other. -/
def walk (files : Files) (place : Place) : List String → Except OsError Place
  | [] => .ok place
  | name :: names =>
    match files.step place name with
    | .ok next => files.walk next names
    | .error cause => .error cause

/-- The place that a path starts from. -/
def start (files : Files) (path : Path) : Place := if path.isAbsolute then [] else files.here

theorem walk_eq_foldlM : ∀ (names : List String) (place : Place),
    files.walk place names = names.foldlM files.step place
  | [], _ => rfl
  | name :: names, place => by
    rw [walk, List.foldlM_cons]
    cases h : files.step place name with
    | error cause => rfl
    | ok next => exact walk_eq_foldlM names next

theorem walk_append : ∀ (front names : List String) (place : Place),
    files.walk place (front ++ names) =
      match files.walk place front with
      | .ok next => files.walk next names
      | .error cause => .error cause
  | [], _, _ => rfl
  | name :: front, names, place => by
    rw [List.cons_append, walk, walk]
    cases files.step place name with
    | error cause => rfl
    | ok next => exact walk_append front names next

theorem walk_cons_eq_ok : files.walk place (name :: names) = .ok next ↔
    ∃ mid, files.step place name = .ok mid ∧ files.walk mid names = .ok next := by
  rw [walk]
  cases files.step place name <;> simp

theorem walk_concat_eq_ok : files.walk place (names ++ [name]) = .ok next ↔
    ∃ dir, files.walk place names = .ok dir ∧ files.step dir name = .ok next := by
  rw [walk_append]
  cases files.walk place names with
  | error cause => simp
  | ok dir => cases hstep : files.step dir name <;> simp [walk, hstep]

/-- A step goes from a directory: to itself, to the directory that it stands in, or to a name. -/
theorem step_cases (h : files.step place name = .ok next) :
    name = "." ∧ next = place ∨ name = ".." ∧ next = place.dropLast ∨
      name ≠ "." ∧ name ≠ ".." ∧ next = place ++ [name] := by
  rw [step, step_eq_ok h] at h
  dsimp only at h
  split at h
  · next hhere => exact .inl ⟨hhere, (Except.ok.inj h).symm⟩
  · next hhere =>
    split at h
    · next hparent => exact .inr (.inl ⟨hparent, (Except.ok.inj h).symm⟩)
    · next hparent =>
      split at h
      · cases h
      · exact .inr (.inr ⟨hhere, hparent, (Except.ok.inj h).symm⟩)

theorem walk_of_follow (h : files.follow path = .ok place) :
    files.walk (files.start path) path.names = .ok place :=
  (walk_eq_foldlM _ _).trans (follow_eq_ok h).2.2.2

/-- A path that leads somewhere in one tree is walked in every tree. -/
theorem follow_of_walk {result : Except OsError Place} (h : made.follow path = .ok place)
    (hwalk : files.walk (files.start path) path.names = result) : files.follow path = result := by
  obtain ⟨hnul, hempty, hsize, -⟩ := follow_eq_ok h
  rw [walk_eq_foldlM] at hwalk
  rw [follow, if_neg (by simpa using hnul), if_neg hempty, if_neg (Nat.not_lt_of_le hsize)]
  exact hwalk

/-- A path that leads to something other than a directory, or to nothing, ends in a proper name. -/
theorem exists_name_of_follow (hrooted : files.Rooted) (h : files.follow path = .ok place)
    (hplace : files.get? place ≠ some .directory) :
    ∃ front name dir, path.names = front ++ [name] ∧ name ≠ "." ∧ name ≠ ".." ∧
      files.walk (files.start path) front = .ok dir ∧ files.get? dir = some .directory ∧
      place = dir ++ [name] := by
  have hwalk := walk_of_follow h
  rcases List.eq_nil_or_concat path.names with hnames | ⟨front, name, hnames⟩
  · exfalso
    rw [hnames, walk, Except.ok.injEq] at hwalk
    rw [start] at hwalk
    split at hwalk
    · exact hplace (by rw [← hwalk]; rfl)
    · next hrelative =>
      have hrelative : path.isAbsolute = false := by simpa using hrelative
      exact Path.names_ne_nil (follow_eq_ok h).2.1 hrelative hnames
  · rw [List.concat_eq_append] at hnames
    rw [hnames] at hwalk
    obtain ⟨dir, hdir, hstep⟩ := walk_concat_eq_ok.mp hwalk
    have hdirectory := step_eq_ok hstep
    rcases step_cases hstep with ⟨-, rfl⟩ | ⟨-, rfl⟩ | ⟨hhere, hparent, rfl⟩
    · exact absurd hdirectory hplace
    · exact absurd (hrooted dir (by rw [hdirectory]; rfl)) hplace
    · exact ⟨front, name, dir, hnames, hhere, hparent, hdir, hdirectory, rfl⟩

/-! ### More directories -/

/-- The second tree has all directories of the first. -/
structure Wider (files broad : Files) : Prop where
  here_eq : broad.here = files.here
  directory : ∀ place, files.get? place = some .directory → broad.get? place = some .directory

theorem Wider.trans {broad last : Files} (h : files.Wider broad) (h' : broad.Wider last) :
    files.Wider last :=
  ⟨h'.here_eq.trans h.here_eq, fun place hplace => h'.directory place (h.directory place hplace)⟩

namespace Wider

variable {broad : Files} (h : files.Wider broad)
include h

theorem step (hstep : files.step place name = .ok next) : broad.step place name = .ok next := by
  have hdirectory := step_eq_ok hstep
  rw [Files.step, hdirectory] at hstep
  rw [Files.step, h.directory place hdirectory]
  exact hstep

theorem walk : ∀ {names : List String} {place : Place},
    files.walk place names = .ok next → broad.walk place names = .ok next
  | [], _, hwalk => hwalk
  | name :: names, place, hwalk => by
    obtain ⟨mid, hstep, hrest⟩ := walk_cons_eq_ok.mp hwalk
    exact walk_cons_eq_ok.mpr ⟨mid, h.step hstep, walk hrest⟩

theorem start_eq (path : Path) : broad.start path = files.start path := by
  rw [start, start, h.here_eq]

theorem follow (hfollow : files.follow path = .ok place) : broad.follow path = .ok place := by
  have hwalk := h.walk (walk_of_follow hfollow)
  rw [← h.start_eq] at hwalk
  exact follow_of_walk hfollow hwalk

theorem locate (hlocate : files.locate path = .ok place) : broad.locate path = .ok place := by
  obtain ⟨hfollow, hslash⟩ := locate_eq_ok.mp hlocate
  exact locate_eq_ok.mpr ⟨h.follow hfollow, fun hend => h.directory place (hslash hend)⟩

end Wider

/-- A path that leads to no directory has no slash at its end. -/
theorem follow_of_locate (h : files.locate path = .ok place)
    (hplace : files.get? place ≠ some .directory) :
    path.endsInSlash = false ∧ files.follow path = .ok place := by
  obtain ⟨hfollow, hslash⟩ := locate_eq_ok.mp h
  exact ⟨Bool.eq_false_iff.mpr fun hend => hplace (hslash hend), hfollow⟩

theorem locate_of_follow (h : files.follow path = .ok place) (hslash : path.endsInSlash = false) :
    files.locate path = .ok place :=
  locate_eq_ok.mpr ⟨h, fun hend => by rw [hslash] at hend; cases hend⟩

/-- A path leads to a file when it has no slash at its end and leads to the file's place. -/
theorem find_eq_file_iff {bytes : ByteArray} :
    files.find path = .ok (.file bytes) ↔ path.endsInSlash = false ∧
      ∃ place, files.follow path = .ok place ∧ files.get? place = some (.file bytes) := by
  rw [find_eq_ok]
  constructor
  · rintro ⟨place, hlocate, hfile⟩
    obtain ⟨hslash, hfollow⟩ := follow_of_locate hlocate (by rw [hfile]; simp)
    exact ⟨hslash, place, hfollow, hfile⟩
  · rintro ⟨hslash, place, hfollow, hfile⟩
    exact ⟨place, locate_of_follow hfollow hslash, hfile⟩

/-! ### Making directories -/

/-- The root is a directory. -/
theorem ne_root (h : files.get? place ≠ some .directory) : place ≠ [] := by
  rintro rfl
  exact h rfl

theorem get?_put_of_ne (h : other ≠ place) :
    (files.put place entry).get? other = files.get? other := by
  by_cases hroot : other = []
  · rw [hroot]
    rfl
  · rw [get?_put files entry hroot, if_neg h]

theorem get?_put_self (h : place ≠ []) : (files.put place entry).get? place = some entry := by
  rw [get?_put files entry h, if_pos rfl]

/-- The second tree is the first with more directories. -/
structure Grown (files made : Files) : Prop where
  here_eq : made.here = files.here
  get? : ∀ place, made.get? place = files.get? place ∨
    files.get? place = none ∧ made.get? place = some .directory
  rooted : files.Rooted → made.Rooted

namespace Grown

theorem refl (files : Files) : files.Grown files :=
  ⟨rfl, fun _ => .inl rfl, id⟩

theorem trans {last : Files} (h : files.Grown made) (h' : made.Grown last) : files.Grown last := by
  refine ⟨h'.here_eq.trans h.here_eq, fun place => ?_, h'.rooted ∘ h.rooted⟩
  rcases h.get? place with hfirst | ⟨hnone, hfirst⟩
  · rw [← hfirst]
    exact h'.get? place
  · refine .inr ⟨hnone, ?_⟩
    rcases h'.get? place with hlast | ⟨hmade, -⟩
    · rw [hlast, hfirst]
    · rw [hfirst] at hmade
      cases hmade

/-- What is there stays as it is. -/
theorem keeps (h : files.Grown made) {entry : Entry} (hentry : files.get? place = some entry) :
    made.get? place = some entry := by
  rcases h.get? place with hplace | ⟨hnone, -⟩
  · rw [hplace, hentry]
  · rw [hentry] at hnone
    cases hnone

theorem wider (h : files.Grown made) : files.Wider made :=
  ⟨h.here_eq, fun _ hdirectory => h.keeps hdirectory⟩

/-- No file is new. -/
theorem file (h : files.Grown made) {bytes : ByteArray}
    (hfile : made.get? place = some (.file bytes)) : files.get? place = some (.file bytes) := by
  rcases h.get? place with hplace | ⟨-, hdirectory⟩
  · rw [← hplace, hfile]
  · rw [hfile] at hdirectory
    cases hdirectory

end Grown

/-- A directory that is made was not there. -/
theorem makeDirectory_eq_ok (h : files.makeDirectory path fault = .ok made) :
    ∃ place, files.follow path = .ok place ∧ files.get? place = none ∧
      made = files.put place .directory := by
  rw [makeDirectory] at h
  cases hfollow : files.follow path with
  | error cause =>
    rw [hfollow] at h
    cases h
  | ok place =>
    simp only [hfollow, bind, Except.bind] at h
    split at h
    · cases h
    · cases h
    · next hnone => exact ⟨place, rfl, hnone, (Except.ok.inj h).symm⟩

/-- A new directory in a directory. -/
theorem grown_put (hnone : files.get? place = none)
    (hparent : files.Rooted → files.get? place.dropLast = some .directory) :
    files.Grown (files.put place .directory) := by
  have hplace : place ≠ [] := ne_root (by rw [hnone]; simp)
  refine ⟨rfl, fun other => ?_, fun hrooted other hother => ?_⟩
  · by_cases heq : other = place
    · rw [heq]
      exact .inr ⟨hnone, get?_put_self hplace⟩
    · exact .inl (get?_put_of_ne heq)
  · have hdirectory : files.get? other.dropLast = some .directory := by
      by_cases heq : other = place
      · rw [heq]
        exact hparent hrooted
      · rw [get?_put_of_ne heq] at hother
        exact hrooted other hother
    have hne : other.dropLast ≠ place := by
      intro heq
      rw [heq, hnone] at hdirectory
      cases hdirectory
    rw [get?_put_of_ne hne, hdirectory]

theorem grown_makeDirectory (h : files.makeDirectory path fault = .ok made) : files.Grown made := by
  obtain ⟨place, hfollow, hnone, rfl⟩ := makeDirectory_eq_ok h
  refine grown_put hnone fun hrooted => ?_
  obtain ⟨front, name, dir, -, -, -, -, hdir, rfl⟩ :=
    exists_name_of_follow hrooted hfollow (by rw [hnone]; simp)
  rw [List.dropLast_concat]
  exact hdir

theorem grown_ensureDirectory (h : files.ensureDirectory path fault = .ok made) :
    files.Grown made := by
  rw [ensureDirectory] at h
  split at h
  · next hmade =>
    cases h
    exact grown_makeDirectory hmade
  · split at h
    · cases h
      exact .refl files
    · cases h

/-- Whatever is refused on the way. -/
theorem grown_makeDirectoriesWithin (faults : Faults) : ∀ (depth : Nat) (files : Files)
    (path : Path), files.Grown (files.makeDirectoriesWithin faults depth path).2
  | 0, files, _ => .refl files
  | depth + 1, files, path => by
    rw [makeDirectoriesWithin]
    split
    · exact .refl files
    · split
      · next made hmade => exact grown_ensureDirectory hmade
      · split
        · exact .refl files
        · next parent hparent =>
          have hgrown := grown_makeDirectoriesWithin faults depth files parent
          split
          · next cause made hmade =>
            rw [hmade] at hgrown
            exact hgrown
          · next made hmade =>
            rw [hmade] at hgrown
            split
            · next last hlast => exact hgrown.trans (grown_ensureDirectory hlast)
            · exact hgrown
      · exact .refl files

theorem grown_makeDirectories (files : Files) (path : Path) (faults : Faults) :
    files.Grown (files.makeDirectories path faults).2 :=
  grown_makeDirectoriesWithin faults _ files path

/-! ### Files after making directories -/

/-- A path that goes back out of a directory led nowhere, and now leads to a file that was there. -/
def Opened (before after : Files) (path : Path) (bytes : ByteArray) : Prop :=
  ".." ∈ path.names ∧ before.find path = .error .notFound ∧
    ∃ place, after.locate path = .ok place ∧ before.get? place = some (.file bytes)

/-- The file at a path is the one that was there, and if none was there, none is there now, but for
one that was elsewhere and to which the way has opened. -/
structure KeepsFileAt (before after : Files) (path : Path) : Prop where
  kept : ∀ bytes, before.find path = .ok (.file bytes) → after.find path = .ok (.file bytes)
  known : ∀ bytes, after.find path = .ok (.file bytes) →
    before.find path = .ok (.file bytes) ∨ before.Opened after path bytes

theorem KeepsFileAt.refl (files : Files) (path : Path) : files.KeepsFileAt files path :=
  ⟨fun _ => id, fun _ => .inl⟩

end Files

end ActivationOrder
