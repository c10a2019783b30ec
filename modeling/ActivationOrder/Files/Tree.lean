import Std.Data.ExtTreeMap
import ActivationOrder.Files.OsError
import ActivationOrder.Files.Path

/-!
Files and directories as a value. A tree says what stands at each place; a place is the list of the
names from the root. There are no links, so a path leads from name to name to one place, and every
step needs a directory to start from. Operations answer with the cause of their failure or with the
new tree; each changes the places it names and no other. A tree says nothing of permissions and of
the room on the disk: whatever is there can be read, and why a change is refused all the same, or
stops in the middle, is given to the operations that make it.
-/

namespace ActivationOrder

/-- A place in the tree: the names from the root. -/
abbrev Place := List String

/-- What stands at a place. -/
inductive Entry where
  | file (bytes : ByteArray)
  | directory
  deriving Inhabited

/-- What stands at each place, and the place that relative paths start from. There are no links, no
files that may not be read and no special files. -/
structure Files where
  entries : Std.ExtTreeMap Place Entry compare
  here : Place
  deriving Inhabited

/-- What the system refuses while directories are made, a file is written in them and it is moved, for
reasons that the tree does not show: there is no permission, no room, or the disk fails. -/
structure Faults where
  makeDirectory : Path → Option OsError := fun _ => none
  create : Option OsError := none
  /-- Writing stops, after so many bytes. -/
  write : Option (Nat × OsError) := none
  sync : Option OsError := none
  rename : Option OsError := none

/-- How much of the bytes gets into a file. -/
def Faults.written (faults : Faults) (bytes : ByteArray) : ByteArray :=
  match faults.write with
  | none => bytes
  | some (count, _) => bytes.extract 0 count

namespace Files

/-- What stands at a place; the root is always a directory. -/
def get? (files : Files) (place : Place) : Option Entry :=
  if place = [] then some .directory else files.entries[place]?

/-- The greatest number of bytes in a name. -/
def nameLimit : Nat := 255

/-- The greatest number of bytes in a path. -/
def pathLimit : Nat := 4095

/-- One step of a path: from a directory to the place of a name in it, which may be empty. -/
def step (files : Files) (place : Place) (name : String) : Except OsError Place :=
  match files.get? place with
  | none => .error .notFound
  | some (.file _) => .error .notDirectory
  | some .directory =>
    if name = "." then .ok place
    else if name = ".." then .ok place.dropLast
    else if name.utf8ByteSize > nameLimit then .error .nameTooLong
    else .ok (place ++ [name])

/-- The place that a path's names lead to. -/
def follow (files : Files) (path : Path) : Except OsError Place :=
  if path.chars.contains '\x00' then .error .nulInName
  else if path.text = "" then .error .notFound
  else if path.text.utf8ByteSize > pathLimit then .error .nameTooLong
  else path.names.foldlM files.step (if path.isAbsolute then [] else files.here)

/-- The place that a path leads to; a slash at its end asks for a directory. -/
def locate (files : Files) (path : Path) : Except OsError Place := do
  let place ← files.follow path
  if path.endsInSlash then files.step place "." else pure place

/-- What a path leads to. -/
def find (files : Files) (path : Path) : Except OsError Entry := do
  match files.get? (← files.locate path) with
  | some entry => pure entry
  | none => throw .notFound

/-- Whether anything stands at the end of a path. -/
def occupied (files : Files) (path : Path) : Bool := (files.find path).isOk

/-- Whether a path leads to a directory. -/
def isDirectory (files : Files) (path : Path) : Bool :=
  match files.find path with
  | .ok .directory => true
  | _ => false

/-- Whether a path leads to a regular file. -/
def isFile (files : Files) (path : Path) : Bool :=
  match files.find path with
  | .ok (.file _) => true
  | _ => false

/-- The text of a file. -/
def readText (files : Files) (path : Path) : Except OsError String := do
  match ← files.find path with
  | .directory => throw .isDirectory
  | .file bytes =>
    match String.fromUTF8? bytes with
    | some text => pure text
    | none => throw .notText

/-- The name of a place in the directory `place`, if it stands directly in it. -/
def nameIn? (place child : Place) : Option String :=
  match child.getLast? with
  | some name => if child.dropLast = place then some name else none
  | none => none

/-- The names in a directory. -/
def list (files : Files) (path : Path) : Except OsError (List String) := do
  let place ← files.locate path
  match files.get? place with
  | none => throw .notFound
  | some (.file _) => throw .notDirectory
  | some .directory =>
    pure (files.entries.keys.filterMap (nameIn? place))

/-- The files with `entry` at a place. -/
def put (files : Files) (place : Place) (entry : Entry) : Files :=
  { files with entries := files.entries.insert place entry }

/-- The files with nothing at a place. -/
def remove (files : Files) (place : Place) : Files :=
  { files with entries := files.entries.erase place }

/-- A change at a place shows there and nowhere else. -/
theorem get?_put (files : Files) {place other : Place} (entry : Entry) (h : other ≠ []) :
    (files.put place entry).get? other =
      if other = place then some entry else files.get? other := by
  rw [get?, get?, if_neg h, if_neg h, put, Std.ExtTreeMap.getElem?_insert]
  simp only [Std.LawfulEqOrd.compare_eq_iff_eq]
  by_cases e : place = other
  · rw [if_pos e, if_pos e.symm]
  · rw [if_neg e, if_neg (Ne.symm e)]

theorem get?_remove (files : Files) {place other : Place} (h : other ≠ []) :
    (files.remove place).get? other =
      if other = place then none else files.get? other := by
  rw [get?, get?, if_neg h, if_neg h, remove, Std.ExtTreeMap.getElem?_erase]
  simp only [Std.LawfulEqOrd.compare_eq_iff_eq]
  by_cases e : place = other
  · rw [if_pos e, if_pos e.symm]
  · rw [if_neg e, if_neg (Ne.symm e)]

/-- Makes one directory, in a directory that exists. -/
def makeDirectory (files : Files) (path : Path) (fault : Option OsError := none) :
    Except OsError Files := do
  let place ← files.follow path
  match files.get? place, fault with
  | some _, _ => throw .alreadyExists
  | none, some cause => throw cause
  | none, none => pure (files.put place .directory)

/-- Makes a directory unless it is there. -/
def ensureDirectory (files : Files) (path : Path) (fault : Option OsError := none) :
    Except OsError Files :=
  match files.makeDirectory path fault with
  | .ok made => .ok made
  | .error cause => if files.isDirectory path then .ok files else .error cause

/-- Makes a directory and those it stands in; `depth` bounds the number of them. What was made
before a failure stays, as the second component says. -/
def makeDirectoriesWithin (files : Files) (faults : Faults := {}) :
    Nat → Path → Except OsError Unit × Files
  | 0, _ => (.error .nothingToCreate, files)
  | depth + 1, path =>
    if path.text = "" then (.ok (), files)
    else match files.ensureDirectory path (faults.makeDirectory path) with
      | .ok made => (.ok (), made)
      | .error .notFound =>
        match path.parent? with
        | none => (.error .nothingToCreate, files)
        | some parent =>
          match files.makeDirectoriesWithin faults depth parent with
          | (.error cause, made) => (.error cause, made)
          | (.ok (), made) =>
            match made.ensureDirectory path (faults.makeDirectory path) with
            | .ok made => (.ok (), made)
            | .error cause => (.error cause, made)
      | .error cause => (.error cause, files)

/-- Makes a directory and those it stands in. -/
def makeDirectories (files : Files) (path : Path) (faults : Faults := {}) :
    Except OsError Unit × Files :=
  files.makeDirectoriesWithin faults (path.segments.length + 1) path

/-- Opens a file to write, empty, over the one that stands there. -/
def create (files : Files) (path : Path) (fault : Option OsError := none) :
    Except OsError (Place × Files) := do
  let place ← files.locate path
  match files.get? place, fault with
  | some .directory, _ => throw .isDirectory
  | _, some cause => throw cause
  | _, none => pure (place, files.put place (.file .empty))

/-- Writes a file, over the one that stands there: opens it, writes the bytes and waits until they
are on the disk. A failure leaves the file with the bytes that were written before it. -/
def write (files : Files) (path : Path) (bytes : ByteArray) (faults : Faults := {}) :
    Except OsError Unit × Files :=
  match files.create path faults.create with
  | .error cause => (.error cause, files)
  | .ok (place, opened) =>
    let filled := opened.put place (.file (faults.written bytes))
    match faults.write, faults.sync with
    | some (_, cause), _ => (.error cause, filled)
    | none, some cause => (.error cause, filled)
    | none, none => (.ok (), filled)

/-- Moves a file to another path, over the file that stands there. -/
def rename (files : Files) (source target : Path) (fault : Option OsError := none) :
    Except OsError Files := do
  let fromPlace ← files.locate source
  let toPlace ← files.follow target
  match target.names.getLast? with
  | none | some "." | some ".." => throw .busy
  | some _ =>
    match files.get? fromPlace with
    | none | some .directory => throw .notFound
    | some (.file bytes) =>
      if target.endsInSlash then throw .notDirectory
      else match files.get? toPlace, fault with
        | some .directory, _ => throw .isDirectory
        | _, some cause => throw cause
        | _, none => pure ((files.remove fromPlace).put toPlace (.file bytes))

end Files

end ActivationOrder
