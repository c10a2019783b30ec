import ActivationOrder.Proofs.Ways
import ActivationOrder.Setup.Settings

/-!
Settings in layers. One global file and one file of the project are selected, each as the first of
its places at which anything stands. Either is a layer: what the file says, with its paths starting
from the directory that it stands in. A setting is the flag's, else the project's, else the global
one, each on its own. Both files are read and validated whatever the flags are, so a fault in one of
them cannot be covered up; and nothing else is read, so the rest of the files does not matter.
-/

namespace ActivationOrder

/-! ### Files that can be read stand in a directory -/

namespace Path

variable {path base child : Path}

/-- Only empty segments and dots are skipped, and a dot at the start is not. -/
theorem dropSkipped_eq_nil : ∀ {segments : List (List Char)}, dropSkipped segments = [] →
    (∀ segment ∈ segments, segment = [] ∨ segment = ['.']) ∧
      ∀ first ∈ segments.getLast?, first = []
  | [], _ => by simp
  | segment :: earlier, h => by
    rw [dropSkipped] at h
    split at h
    · next hskip =>
      obtain ⟨hsegments, hfirst⟩ := dropSkipped_eq_nil h
      simp only [Bool.or_eq_true, Bool.and_eq_true, decide_eq_true_eq] at hskip
      refine ⟨List.forall_mem_cons.mpr ⟨hskip.imp_right And.left, hsegments⟩, ?_⟩
      cases earlier with
      | nil => simpa using hskip
      | cons next earlier => rwa [List.getLast?_cons_cons]
    · cases h

/-- A path without a last component is empty or stays at the root. -/
theorem names_of_parent?_eq_none (htext : path.text ≠ "") (h : path.parent? = none) :
    path.isAbsolute = true ∧ ∀ name ∈ path.names, name = "." := by
  have hskipped : dropSkipped path.segments.reverse = [] := by
    rw [parent?] at h
    split at h
    · assumption
    · cases h
  obtain ⟨hsegments, hfirst⟩ := dropSkipped_eq_nil hskipped
  constructor
  · obtain ⟨c, rest, hc⟩ := List.exists_cons_of_ne_nil fun h' =>
      htext (String.toList_eq_nil_iff.mp h')
    rw [List.getLast?_reverse, segments, chars, hc, Text.pieces] at hfirst
    rw [isAbsolute, chars, hc]
    by_contra hslash
    have hslash : c ≠ '/' := by simpa using hslash
    rw [if_neg hslash] at hfirst
    split at hfirst <;> simp at hfirst
  · intro name hname
    obtain ⟨segment, hsegment, rfl⟩ := List.mem_map.mp hname
    obtain ⟨hmem, hne⟩ := List.mem_filter.mp hsegment
    rcases hsegments segment (List.mem_reverse.mpr hmem) with rfl | rfl
    · simp at hne
    · rfl

/-- An absolute path is not joined to anything. -/
theorem join_of_absolute (h : child.isAbsolute = true) : base.join child = child := by
  simp [join, h]

theorem join_ne_empty (h : child ≠ ⟨""⟩) : base.join child ≠ ⟨""⟩ := by
  have hchild : child.text ≠ "" := fun htext => h (congrArg Path.mk htext)
  rw [join]
  split
  · exact h
  · split <;> simp [hchild]

end Path

namespace Files

variable {files other : Files} {path : Path} {place : Place} {names : List String} {text : String}

theorem walk_dots (hplace : files.get? place = some .directory)
    (h : ∀ name ∈ names, name = ".") : files.walk place names = .ok place := by
  induction names with
  | nil => rfl
  | cons name names ih =>
    obtain ⟨rfl, hrest⟩ := List.forall_mem_cons.mp h
    exact walk_cons_eq_ok.mpr ⟨place, step_here.mpr ⟨rfl, hplace⟩, ih hrest⟩

/-- The root cannot be read, so what can be read stands in a directory. -/
theorem exists_parent_of_readText (h : files.readText path = .ok text) :
    ∃ dir, path.parent? = some dir := by
  obtain ⟨bytes, hfind⟩ := isFile_iff.mp (isFile_of_readText h)
  obtain ⟨-, place, hfollow, hfile⟩ := find_eq_file_iff.mp hfind
  refine Option.ne_none_iff_exists'.mp fun hnone => ?_
  -- such a path goes from dot to dot and never leaves the root, which is no file
  obtain ⟨habsolute, hnames⟩ := Path.names_of_parent?_eq_none (follow_eq_ok hfollow).2.1 hnone
  have hwalk := walk_of_follow hfollow
  rw [start, if_pos habsolute, walk_dots rfl hnames] at hwalk
  rw [← Except.ok.inj hwalk] at hfile
  cases hfile

theorem occupied_iff :
    files.occupied path = true ↔ ∃ entry, files.find path = .ok entry := by
  rw [occupied]
  cases files.find path <;> simp [Except.isOk, Except.toBool]

/-- Two trees that differ in nothing but the contents of files to which these paths do not lead. -/
structure SameFor (files other : Files) (paths : List Path) : Prop where
  here : other.here = files.here
  entry : ∀ place, other.get? place = files.get? place ∨ ∃ bytes bytes',
    files.get? place = some (.file bytes) ∧ other.get? place = some (.file bytes') ∧
      ∀ path ∈ paths, files.locate path ≠ .ok place

/-- Another content in a file to which none of the paths leads. -/
theorem sameFor_put {paths : List Path} {bytes : ByteArray} (bytes' : ByteArray)
    (hfile : files.get? place = some (.file bytes))
    (helse : ∀ path ∈ paths, files.locate path ≠ .ok place) :
    files.SameFor (files.put place (.file bytes')) paths := by
  have hroot : place ≠ [] := ne_root (by rw [hfile]; simp)
  refine ⟨rfl, fun place' => ?_⟩
  by_cases heq : place' = place
  · rw [heq]
    exact .inr ⟨bytes, bytes', hfile, get?_put_self hroot, helse⟩
  · exact .inl (get?_put_of_ne heq)

namespace SameFor

variable {paths : List Path} (h : files.SameFor other paths)
include h

theorem directory_iff (place : Place) :
    other.get? place = some .directory ↔ files.get? place = some .directory := by
  rcases h.entry place with heq | ⟨bytes, bytes', hfile, hfile', -⟩
  · rw [heq]
  · simp [hfile, hfile']

/-- Paths lead to the same places. -/
theorem locate_iff : other.locate path = .ok place ↔ files.locate path = .ok place := by
  have hwider : files.Wider other := ⟨h.here, fun place => (h.directory_iff place).mpr⟩
  have hwider' : other.Wider files := ⟨h.here.symm, fun place => (h.directory_iff place).mp⟩
  exact ⟨hwider'.locate, hwider.locate⟩

theorem occupied_eq (path : Path) : other.occupied path = files.occupied path := by
  have hsome (place : Place) : (other.get? place).isSome = (files.get? place).isSome := by
    rcases h.entry place with heq | ⟨bytes, bytes', hfile, hfile', -⟩
    · rw [heq]
    · rw [hfile, hfile']
      rfl
  rw [Bool.eq_iff_iff, occupied_iff, occupied_iff]
  simp only [find_eq_ok, h.locate_iff]
  rw [exists_comm, exists_comm (α := Entry)]
  simp only [exists_and_left, ← Option.isSome_iff_exists, hsome]

/-- What stands at the end of one of the paths is the same. -/
theorem find_eq {entry : Entry} (hpath : path ∈ paths) (hfind : files.find path = .ok entry) :
    other.find path = .ok entry := by
  obtain ⟨place, hlocate, hentry⟩ := find_eq_ok.mp hfind
  refine find_eq_ok.mpr ⟨place, h.locate_iff.mpr hlocate, ?_⟩
  rcases h.entry place with heq | ⟨-, -, -, -, helse⟩
  · rw [heq, hentry]
  · exact absurd hlocate (helse path hpath)

theorem readText_eq (hpath : path ∈ paths) (hoccupied : files.occupied path = true) :
    other.readText path = files.readText path := by
  obtain ⟨entry, hfind⟩ := occupied_iff.mp hoccupied
  rw [readText, readText, h.find_eq hpath hfind, hfind]

end SameFor

end Files

/-! ### Layers -/

/-- A configuration file at its place. -/
structure Layer where
  path : Path
  dir : Path
  file : ConfigFile

namespace Layer

/-- The index that the file names, from the file's directory. -/
def index (layer : Layer) : Option Path := layer.file.index.map layer.dir.join

/-- The declarations that the file names, from the file's directory. -/
def declarations (layer : Layer) : Option Path := layer.file.declarations.map layer.dir.join

/-- The output format that the file sets. -/
def format (layer : Layer) : Option OutputFormat := layer.file.output.bind (·.format)

/-- The layer is what the file at its path says, and the file holds no empty path. -/
structure Read (files : Files) (layer : Layer) : Prop where
  dir : layer.path.parent? = some layer.dir
  text : ∃ text, files.readText layer.path = .ok text ∧ readConfigFile text = .ok layer.file
  index : layer.file.index ≠ some ⟨""⟩
  declarations : layer.file.declarations ≠ some ⟨""⟩

/-- What is loaded for the layer. -/
def loaded (layer : Layer) : ConfigFile := layer.file.rebase layer.dir

end Layer

/-- A file that cannot be read, is no configuration, or holds an empty path. -/
inductive Files.Faulty (files : Files) (path : Path) : Prop
  | unreadable {cause : OsError} : files.readText path = .error cause → files.Faulty path
  | malformed {text : String} {cause : DecodeError} : files.readText path = .ok text →
      readConfigFile text = .error cause → files.Faulty path
  | emptyIndex {text : String} {file : ConfigFile} : files.readText path = .ok text →
      readConfigFile text = .ok file → file.index = some ⟨""⟩ → files.Faulty path
  | emptyDeclarations {text : String} {file : ConfigFile} : files.readText path = .ok text →
      readConfigFile text = .ok file → file.declarations = some ⟨""⟩ → files.Faulty path

variable {files other : Files} {path : Path} {file : ConfigFile} {layer : Layer}

theorem map_rebasePath {value : Option Path} (base : Path) (h : value ≠ some ⟨""⟩) :
    value.map (rebasePath base) = value.map base.join := by
  cases value with
  | none => rfl
  | some path =>
    have hpath : path ≠ ⟨""⟩ := fun hempty => h (congrArg some hempty)
    have htext : path.text ≠ "" := fun htext => hpath (congrArg Path.mk htext)
    by_cases habsolute : path.isAbsolute = true
    · simp [rebasePath, habsolute, Path.join_of_absolute habsolute]
    · simp [rebasePath, habsolute, htext]

theorem map_join_ne_empty {value : Option Path} (base : Path) (h : value ≠ some ⟨""⟩) :
    value.map base.join ≠ some ⟨""⟩ := by
  intro hempty
  obtain ⟨path, rfl, hjoin⟩ := Option.map_eq_some_iff.mp hempty
  exact Path.join_ne_empty (fun hpath => h (congrArg some hpath)) hjoin

theorem validate_eq_ok_iff : file.validate = .ok () ↔
    file.index ≠ some ⟨""⟩ ∧ file.declarations ≠ some ⟨""⟩ := by
  rw [ConfigFile.validate]
  split
  · next h => simp [h]
  · next h =>
    split
    · next h' => simp [h']
    · next h' => simp [h, h']

namespace Layer.Read

variable (h : layer.Read files)
include h

theorem index_loaded : layer.loaded.index = layer.index := map_rebasePath _ h.index

theorem declarations_loaded : layer.loaded.declarations = layer.declarations :=
  map_rebasePath _ h.declarations

theorem load : ConfigFile.load files layer.path = .ok layer.loaded := by
  obtain ⟨text, htext, hfile⟩ := h.text
  simp only [ConfigFile.load, htext, hfile, h.dir]
  rfl

theorem validate : layer.loaded.validate = .ok () := by
  rw [validate_eq_ok_iff, h.index_loaded, h.declarations_loaded]
  exact ⟨map_join_ne_empty _ h.index, map_join_ne_empty _ h.declarations⟩

end Layer.Read

/-- A file is a layer, or there is a fault in it. -/
theorem faulty_or_read (files : Files) (path : Path) :
    files.Faulty path ∨ ∃ layer : Layer, layer.path = path ∧ layer.Read files := by
  cases htext : files.readText path with
  | error cause => exact .inl (.unreadable htext)
  | ok text =>
    cases hfile : readConfigFile text with
    | error cause => exact .inl (.malformed htext hfile)
    | ok file =>
      by_cases hindex : file.index = some ⟨""⟩
      · exact .inl (.emptyIndex htext hfile hindex)
      by_cases hdeclarations : file.declarations = some ⟨""⟩
      · exact .inl (.emptyDeclarations htext hfile hdeclarations)
      obtain ⟨dir, hdir⟩ := Files.exists_parent_of_readText htext
      exact .inr ⟨⟨path, dir, file⟩, rfl, hdir, ⟨text, htext, hfile⟩, hindex, hdeclarations⟩

/-- Selected files without a fault are layers. -/
theorem exists_layers {selected : Option Path} (h : ∀ path ∈ selected, ¬ files.Faulty path) :
    ∃ layer : Option Layer, layer.map (·.path) = selected ∧ ∀ found ∈ layer, found.Read files := by
  cases selected with
  | none => exact ⟨none, rfl, by simp⟩
  | some path =>
    obtain ⟨layer, rfl, hread⟩ := (faulty_or_read files path).resolve_left (h path rfl)
    exact ⟨some layer, rfl, by simpa using hread⟩

/-- What is loaded from a file with a fault is not valid. -/
theorem Files.Faulty.not_loaded (h : files.Faulty path)
    (hload : ConfigFile.load files path = .ok file) : file.validate ≠ .ok () := by
  rw [ConfigFile.load] at hload
  cases h with
  | unreadable htext => rw [htext] at hload; cases hload
  | malformed htext hfile => simp only [htext, hfile] at hload; cases hload
  | emptyIndex htext hfile hempty =>
    simp only [htext, hfile] at hload
    cases hload
    simp [validate_eq_ok_iff, ConfigFile.rebase, hempty, rebasePath]
  | emptyDeclarations htext hfile hempty =>
    simp only [htext, hfile] at hload
    cases hload
    simp [validate_eq_ok_iff, ConfigFile.rebase, hempty, rebasePath]

theorem Layer.Read.not_faulty (h : layer.Read files) : ¬ files.Faulty layer.path :=
  fun hfaulty => hfaulty.not_loaded h.load h.validate

/-! ### Loading what is selected -/

namespace Config

/-- Loads the file that was selected, if there is one. -/
def loadSelected (files : Files) : Option Path → Except ConfigError (Option ConfigFile)
  | none => .ok none
  | some path => (ConfigFile.load files path).map some

/-- Validates the file that was loaded, if there is one. -/
def validateLoaded : Option ConfigFile → Except ConfigError Unit
  | none => .ok ()
  | some file => file.validate

theorem loaded_iff {selected : Option Path} {loaded : Option ConfigFile} :
    loadSelected files selected = .ok loaded ∧ validateLoaded loaded = .ok () ↔
      ∃ layer : Option Layer, layer.map (·.path) = selected ∧ (∀ found ∈ layer, found.Read files) ∧
        loaded = layer.map (·.loaded) := by
  constructor
  · rintro ⟨hload, hvalidate⟩
    cases selected with
    | none =>
      cases hload
      exact ⟨none, rfl, by simp, rfl⟩
    | some path =>
      rw [loadSelected] at hload
      cases hfile : ConfigFile.load files path with
      | error cause => rw [hfile] at hload; cases hload
      | ok file =>
        rw [hfile] at hload
        cases hload
        obtain hfaulty | ⟨layer, rfl, hread⟩ := faulty_or_read files path
        · exact absurd hvalidate (hfaulty.not_loaded hfile)
        · rw [hread.load] at hfile
          cases hfile
          exact ⟨some layer, rfl, by simpa using hread, rfl⟩
  · rintro ⟨layer, rfl, hread, rfl⟩
    cases layer with
    | none => exact ⟨rfl, rfl⟩
    | some layer =>
      have hread := hread layer rfl
      refine ⟨?_, hread.validate⟩
      rw [Option.map_some, loadSelected, hread.load]
      rfl

/-- What is said when a file at the short place is not read because of one at the long place. -/
def ignoredWarning (dir : Path) : ConfigWarning where
  message := "Ignoring '" ++ (shorthandPath dir).text ++ "' because '" ++
    (canonicalPath dir).text ++ "' exists"
  path := shorthandPath dir

/-- The project's file is the first of its two places at which anything stands. -/
theorem projectPath?_eq (files : Files) (dir : Path) : projectPath? files dir =
    ([canonicalPath dir, shorthandPath dir].find? files.occupied,
      if files.occupied (canonicalPath dir) && files.occupied (shorthandPath dir) then
        [ignoredWarning dir] else []) := by
  rw [projectPath?, List.find?_cons, List.find?_cons, List.find?_nil]
  cases files.occupied (canonicalPath dir) <;> cases files.occupied (shorthandPath dir) <;> rfl

end Config

namespace Context

/-- The settings with these files selected: both are loaded, then both are validated. -/
def resolveFrom (context : Context) (files : Files) (global project : Option Path)
    (warnings : List ConfigWarning) : Except ConfigError Settings := do
  let globalFile ← Config.loadSelected files global
  let projectFile ← Config.loadSelected files project
  Config.validateLoaded globalFile
  Config.validateLoaded projectFile
  pure (context.settings files ⟨globalFile.getD {}, global, projectFile, project⟩ warnings)

theorem resolve_eq (context : Context) (env : Environment) (files : Files) :
    context.resolve env files = context.resolveFrom files (env.globalPath? files)
      (Config.projectPath? files (context.workDir files)).1
      (Config.projectPath? files (context.workDir files)).2 := by
  -- the global file is looked for twice, and something stood there the first time
  have hglobal : (env.globalPath? files).filter files.occupied = env.globalPath? files := by
    cases hfound : env.globalPath? files with
    | none => rfl
    | some path => exact Option.filter_some_pos (List.find?_some hfound)
  have hnothing : ({} : ConfigFile).validate = .ok () := rfl
  rw [resolve, Config.load, Config.loadFrom, resolveFrom, hglobal]
  rcases Config.projectPath? files (context.workDir files) with ⟨project, warnings⟩
  simp only [bind, Except.bind, pure, Except.pure, Functor.map, Except.map]
  cases env.globalPath? files with
  | none =>
    cases project with
    | none => rfl
    | some path =>
      simp only [Config.loadSelected, hnothing]
      cases ConfigFile.load files path with
      | error cause => rfl
      | ok file =>
        simp only [Except.map, Config.validateLoaded]
        cases file.validate <;> rfl
  | some path =>
    simp only [Config.loadSelected]
    cases ConfigFile.load files path with
    | error cause => rfl
    | ok file =>
      simp only [Except.map]
      cases project with
      | none =>
        simp only [Config.validateLoaded]
        cases file.validate <;> rfl
      | some path' =>
        simp only [Config.validateLoaded]
        cases ConfigFile.load files path' with
        | error cause => rfl
        | ok file' =>
          simp only
          cases file.validate <;> cases file'.validate <;> rfl

theorem workDir_eq (context : Context) (h : other.here = files.here) :
    context.workDir other = context.workDir files := by
  rw [workDir, workDir, Files.herePath, Files.herePath, h]

theorem resolveFrom_eq_ok_iff {context : Context} {global project : Option Path}
    {warnings : List ConfigWarning} {settings : Settings} :
    context.resolveFrom files global project warnings = .ok settings ↔
      ∃ below above : Option Layer, below.map (·.path) = global ∧ above.map (·.path) = project ∧
        (∀ layer ∈ below, layer.Read files) ∧ (∀ layer ∈ above, layer.Read files) ∧
        settings = context.settings files
          ⟨(below.map (·.loaded)).getD {}, global, above.map (·.loaded), project⟩ warnings := by
  have hsteps : context.resolveFrom files global project warnings = .ok settings ↔
      ∃ globalFile projectFile,
        (Config.loadSelected files global = .ok globalFile ∧
          Config.validateLoaded globalFile = .ok ()) ∧
        (Config.loadSelected files project = .ok projectFile ∧
          Config.validateLoaded projectFile = .ok ()) ∧
        settings = context.settings files
          ⟨globalFile.getD {}, global, projectFile, project⟩ warnings := by
    rw [resolveFrom]
    cases Config.loadSelected files global with
    | error cause => simp [bind, Except.bind]
    | ok globalFile =>
      cases Config.loadSelected files project with
      | error cause => simp [bind, Except.bind]
      | ok projectFile =>
        simp only [bind, Except.bind, pure, Except.pure, Except.ok.injEq]
        cases hglobal : Config.validateLoaded globalFile <;>
          cases hproject : Config.validateLoaded projectFile <;> simp [*, eq_comm]
  rw [hsteps]
  simp only [Config.loaded_iff]
  constructor
  · rintro ⟨_, _, ⟨below, hbelow, hreadBelow, rfl⟩, ⟨above, habove, hreadAbove, rfl⟩, rfl⟩
    exact ⟨below, above, hbelow, habove, hreadBelow, hreadAbove, rfl⟩
  · rintro ⟨below, above, hbelow, habove, hreadBelow, hreadAbove, rfl⟩
    exact ⟨_, _, ⟨below, hbelow, hreadBelow, rfl⟩, ⟨above, habove, hreadAbove, rfl⟩, rfl⟩

/-- What is not selected does not matter. -/
theorem resolveFrom_congr (context : Context) {global project : Option Path}
    {warnings : List ConfigWarning} (hhere : other.here = files.here)
    (hglobal : ∀ path ∈ global, other.readText path = files.readText path)
    (hproject : ∀ path ∈ project, other.readText path = files.readText path) :
    context.resolveFrom other global project warnings =
      context.resolveFrom files global project warnings := by
  have hload {selected : Option Path}
      (h : ∀ path ∈ selected, other.readText path = files.readText path) :
      Config.loadSelected other selected = Config.loadSelected files selected := by
    cases selected with
    | none => rfl
    | some path =>
      rw [Config.loadSelected, Config.loadSelected, ConfigFile.load, ConfigFile.load, h path rfl]
  have hsettings (config : Config) :
      context.settings other config warnings = context.settings files config warnings := by
    have hpath : context.resolvePath other = context.resolvePath files := by
      funext path
      rw [resolvePath, resolvePath, context.workDir_eq hhere]
    rw [settings, settings, hpath]
  simp only [resolveFrom, hload hglobal, hload hproject, hsettings]

theorem resolve_congr (context : Context) (env : Environment)
    (h : files.SameFor other ((Config.projectPath? files (context.workDir files)).1.toList ++
      (env.globalPath? files).toList)) :
    context.resolve env other = context.resolve env files := by
  have hoccupied : other.occupied = files.occupied := funext h.occupied_eq
  have hglobal : env.globalPath? other = env.globalPath? files := by
    rw [Environment.globalPath?, hoccupied, ← Environment.globalPath?]
  have hproject (dir : Path) : Config.projectPath? other dir = Config.projectPath? files dir := by
    rw [Config.projectPath?_eq, hoccupied, ← Config.projectPath?_eq]
  rw [resolve_eq, resolve_eq, context.workDir_eq h.here, hglobal, hproject]
  refine context.resolveFrom_congr h.here (fun path hpath => ?_) fun path hpath => ?_
  · exact h.readText_eq (List.mem_append_right _ (Option.mem_toList.mpr hpath))
      (List.find?_some hpath)
  · refine h.readText_eq (List.mem_append_left _ (Option.mem_toList.mpr hpath)) ?_
    rw [Config.projectPath?_eq] at hpath
    exact List.find?_some hpath

end Context

/-! ### Merging layers -/

/-- The settings are those of the flags, of the project's layer and of the global one, each from the
first of them that has it. A second file of the project is warned of. -/
structure Settings.Merged (context : Context) (files : Files) (above below : Option Layer)
    (settings : Settings) : Prop where
  index : settings.index = (context.index.map (context.workDir files).join).or
    ((above.bind Layer.index).or (below.bind Layer.index))
  declarations : settings.declarations =
    (context.declarations.map (context.workDir files).join).or
      ((above.bind Layer.declarations).or (below.bind Layer.declarations))
  format : settings.format = if context.json then .json else
    ((above.bind Layer.format).or (below.bind Layer.format)).getD .text
  warnings : settings.warnings =
    if files.occupied (Config.canonicalPath (context.workDir files)) &&
      files.occupied (Config.shorthandPath (context.workDir files)) then
      [Config.ignoredWarning (context.workDir files)] else []

theorem Settings.Merged.unique {context : Context} {above below : Option Layer}
    {settings settings' : Settings} (h : settings.Merged context files above below)
    (h' : settings'.Merged context files above below) : settings = settings' := by
  cases settings
  cases settings'
  simp only [Settings.mk.injEq]
  exact ⟨h.index.trans h'.index.symm, h.declarations.trans h'.declarations.symm,
    h.format.trans h'.format.symm, h.warnings.trans h'.warnings.symm⟩

/-- What is looked up in the files that were loaded is what the layers say. -/
theorem lookup_loaded {α : Type} {ofFile : ConfigFile → Option α} {ofLayer : Layer → Option α}
    (hnothing : ofFile {} = none)
    (hlayer : ∀ layer : Layer, layer.Read files → ofFile layer.loaded = ofLayer layer)
    {above below : Option Layer} (habove : ∀ layer ∈ above, layer.Read files)
    (hbelow : ∀ layer ∈ below, layer.Read files) :
    ((above.map (·.loaded)).bind ofFile).or (ofFile ((below.map (·.loaded)).getD {})) =
      (above.bind ofLayer).or (below.bind ofLayer) := by
  have hbelow : ofFile ((below.map (·.loaded)).getD {}) = below.bind ofLayer := by
    cases below with
    | none => exact hnothing
    | some layer => exact hlayer layer (hbelow layer rfl)
  rw [hbelow]
  cases above with
  | none => rfl
  | some layer => rw [Option.map_some, Option.bind_some, Option.bind_some, hlayer _ (habove _ rfl)]

theorem Context.resolvePath_eq (context : Context) (files : Files) :
    context.resolvePath files = (context.workDir files).join := by
  funext path
  rw [resolvePath]
  split
  · next habsolute => rw [Path.join_of_absolute habsolute]
  · rfl

theorem merged_settings (context : Context) {above below : Option Layer}
    (habove : ∀ layer ∈ above, layer.Read files) (hbelow : ∀ layer ∈ below, layer.Read files)
    (globalPath projectPath : Option Path) :
    (context.settings files
      ⟨(below.map (·.loaded)).getD {}, globalPath, above.map (·.loaded), projectPath⟩
      (Config.projectPath? files (context.workDir files)).2).Merged context files above below where
  index := by
    rw [Context.settings, Config.index, context.resolvePath_eq,
      lookup_loaded rfl (fun _ h => h.index_loaded) habove hbelow]
  declarations := by
    rw [Context.settings, Config.declarations, context.resolvePath_eq,
      lookup_loaded rfl (fun _ h => h.declarations_loaded) habove hbelow]
  format := by
    rw [Context.settings, Config.format, lookup_loaded rfl (fun _ _ => rfl) habove hbelow]
    rfl
  warnings := congrArg Prod.snd (Config.projectPath?_eq files _)

/-! ### What is resolved -/

namespace Context

variable {context : Context} {env : Environment}

theorem resolve_eq_ok_iff {settings : Settings} : context.resolve env files = .ok settings ↔
    ∃ below above : Option Layer, below.map (·.path) = env.globalPath? files ∧
      above.map (·.path) = (Config.projectPath? files (context.workDir files)).1 ∧
      (∀ layer ∈ below, layer.Read files) ∧ (∀ layer ∈ above, layer.Read files) ∧
      settings.Merged context files above below := by
  rw [context.resolve_eq, resolveFrom_eq_ok_iff]
  constructor
  · rintro ⟨below, above, hglobal, hproject, hbelow, habove, rfl⟩
    exact ⟨below, above, hglobal, hproject, hbelow, habove,
      merged_settings context habove hbelow _ _⟩
  · rintro ⟨below, above, hglobal, hproject, hbelow, habove, hmerged⟩
    exact ⟨below, above, hglobal, hproject, hbelow, habove,
      hmerged.unique (merged_settings context habove hbelow _ _)⟩

/-- Flags do not cover up a fault in a file that is selected. -/
theorem resolve_fails_iff : (∃ cause, context.resolve env files = .error cause) ↔
    ∃ path, ((Config.projectPath? files (context.workDir files)).1 = some path ∨
      env.globalPath? files = some path) ∧ files.Faulty path := by
  constructor
  · rintro ⟨cause, herror⟩
    by_contra hsound
    obtain ⟨below, hglobal, hbelow⟩ := exists_layers fun path hpath hfaulty =>
      hsound ⟨path, .inr hpath, hfaulty⟩
    obtain ⟨above, hproject, habove⟩ := exists_layers fun path hpath hfaulty =>
      hsound ⟨path, .inl hpath, hfaulty⟩
    have hsettings := resolve_eq_ok_iff.mpr ⟨below, above, hglobal, hproject, hbelow, habove,
      merged_settings context habove hbelow none none⟩
    rw [herror] at hsettings
    cases hsettings
  · rintro ⟨path, hselected, hfaulty⟩
    cases hresult : context.resolve env files with
    | error cause => exact ⟨cause, rfl⟩
    | ok settings =>
      obtain ⟨below, above, hglobal, hproject, hbelow, habove, -⟩ := resolve_eq_ok_iff.mp hresult
      rcases hselected with hpath | hpath
      · rw [← hproject] at hpath
        obtain ⟨layer, hlayer, rfl⟩ := Option.map_eq_some_iff.mp hpath
        exact absurd hfaulty (habove layer hlayer).not_faulty
      · rw [← hglobal] at hpath
        obtain ⟨layer, hlayer, rfl⟩ := Option.map_eq_some_iff.mp hpath
        exact absurd hfaulty (hbelow layer hlayer).not_faulty

end Context

/-- Settings are resolved in layers, in every environment with a home, for all files and flags. The
global file is the first that exists of the one that the environment names and those in its two
directories; the project's is the one at its long place, else the one at its short place. There are
settings just when both, as far as they exist, can be read and hold no empty path. Then the index
and the declarations each come from the flag, else the project's file, else the global one, starting
from the working directory or from the file's own, the output format likewise, and there is one
warning just when both places of the project are taken. With a fault in either file there are no
settings, with whatever flags; and nothing depends on what any other file contains. -/
theorem settings_come_in_layers (context : Context) (config configHome : Option Path) (home : Path)
    (files : Files) :
    let env : Environment := ⟨config, configHome, some home⟩
    let dir := context.workDir files
    let global := (config.toList ++
      (configHome.map (·.join ⟨"precedence/config.toml"⟩)).toList ++
      [home.join ⟨".precedence/config.toml"⟩]).find? files.occupied
    let project :=
      [dir.join ⟨".precedence/config.toml"⟩, dir.join ⟨"precedence.toml"⟩].find? files.occupied
    (∀ settings, context.resolve env files = .ok settings ↔ ∃ below above : Option Layer,
      below.map (·.path) = global ∧ above.map (·.path) = project ∧
      (∀ layer ∈ below, layer.Read files) ∧ (∀ layer ∈ above, layer.Read files) ∧
      settings.Merged context files above below) ∧
    ((∃ cause, context.resolve env files = .error cause) ↔
      ∃ path, (project = some path ∨ global = some path) ∧ files.Faulty path) ∧
    ∀ other, files.SameFor other (project.toList ++ global.toList) →
      context.resolve env other = context.resolve env files := by
  intro env dir global project
  have hglobal : env.globalPath? files = global := rfl
  have hproject : (Config.projectPath? files dir).1 = project :=
    congrArg Prod.fst (Config.projectPath?_eq files dir)
  rw [← hglobal, ← hproject]
  exact ⟨fun settings => Context.resolve_eq_ok_iff, Context.resolve_fails_iff,
    fun other => context.resolve_congr env⟩

namespace Sample

/-- A project with a file at both of its places, and two global files, of which one has a fault. -/
def crowded : Files where
  entries := .ofList [
    (["xdg"], Entry.directory), (["xdg", "precedence"], Entry.directory),
    (["xdg", "precedence", "config.toml"],
      Entry.file "index = 'index.toml'\n[output]\nformat = 'json'".toUTF8),
    (["home"], Entry.directory), (["home", ".precedence"], Entry.directory),
    (["home", ".precedence", "config.toml"], Entry.file "index = ''".toUTF8),
    (["work"], Entry.directory), (["work", ".precedence"], Entry.directory),
    (["work", ".precedence", "config.toml"], Entry.file "declarations = 'units'\n[output]".toUTF8),
    (["work", "precedence.toml"], Entry.file ByteArray.empty)]
  here := ["work"]

/-- The place of the global file with a fault. -/
def homeConfig : Path := ⟨"/home/.precedence/config.toml"⟩

/-- The files without the fault. -/
def mended : Files := crowded.put ["home", ".precedence", "config.toml"] (.file ByteArray.empty)

theorem sameFor_mended {paths : List Path}
    (helse : ∀ path ∈ paths, crowded.locate path ≠ .ok ["home", ".precedence", "config.toml"]) :
    crowded.SameFor mended paths := by
  have hfile : crowded.isFile homeConfig = true := by decide +kernel
  obtain ⟨bytes, hfind⟩ := Files.isFile_iff.mp hfile
  obtain ⟨place, hlocate, hget⟩ := Files.find_eq_ok.mp hfind
  have hplace : crowded.locate homeConfig = .ok ["home", ".precedence", "config.toml"] := by
    decide +kernel
  cases hlocate.symm.trans hplace
  exact Files.sameFor_put ByteArray.empty hget helse

end Sample

/-- Both files have a say, and the file with a fault has none as long as it is not selected. When it
is, flags for all settings do not help. -/
theorem settings_come_in_layers_crowded :
    (({} : Context).resolve ⟨none, some ⟨"/xdg"⟩, some ⟨"/home"⟩⟩ Sample.crowded).map
        (fun settings =>
          (settings.index, settings.declarations, settings.format, settings.warnings.length)) =
      .ok (some ⟨"/xdg/precedence/index.toml"⟩, some ⟨"/work/.precedence/units"⟩, .json, 1) ∧
    ({} : Context).resolve ⟨none, some ⟨"/xdg"⟩, some ⟨"/home"⟩⟩ Sample.mended =
      ({} : Context).resolve ⟨none, some ⟨"/xdg"⟩, some ⟨"/home"⟩⟩ Sample.crowded ∧
    ∃ cause, ({ index := some ⟨"a"⟩, declarations := some ⟨"b"⟩, json := true } : Context).resolve
      ⟨some Sample.homeConfig, some ⟨"/xdg"⟩, some ⟨"/home"⟩⟩ Sample.crowded = .error cause := by
  refine ⟨by decide +kernel, ?_, ?_⟩
  · obtain ⟨-, -, hothers⟩ :=
      settings_come_in_layers {} none (some ⟨"/xdg"⟩) ⟨"/home"⟩ Sample.crowded
    exact hothers Sample.mended (Sample.sameFor_mended (by decide +kernel))
  · obtain ⟨-, hfails, -⟩ := settings_come_in_layers
      { index := some ⟨"a"⟩, declarations := some ⟨"b"⟩, json := true }
      (some Sample.homeConfig) (some ⟨"/xdg"⟩) ⟨"/home"⟩ Sample.crowded
    refine hfails.mpr ⟨Sample.homeConfig, .inr (by decide +kernel), ?_⟩
    have htext : Sample.crowded.readText Sample.homeConfig = .ok "index = ''" := by decide +kernel
    have hfile : readConfigFile "index = ''" = .ok { index := some ⟨""⟩ } := by decide +kernel
    exact .emptyIndex htext hfile rfl

end ActivationOrder
