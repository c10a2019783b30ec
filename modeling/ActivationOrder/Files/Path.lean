import ActivationOrder.Text.Lines

/-!
Paths as texts. A path is never normalised: it prints as it was built, so joining and taking parts
work on the text. A path is a run of segments between slashes; empty segments, and `.` anywhere but
at the start of a relative path, name nothing and are skipped when the last component is sought.
-/

namespace ActivationOrder

/-- A path to a file or directory. -/
structure Path where
  text : String
  deriving DecidableEq, Inhabited

namespace Path

/-- The path as characters. -/
def chars (path : Path) : List Char := path.text.toList

/-- Whether the path starts at the root. -/
def isAbsolute (path : Path) : Bool := path.chars.head? = some '/'

/-- Whether the path ends in a slash. -/
def endsInSlash (path : Path) : Bool := path.chars.getLast? = some '/'

/-- One path after the other: an absolute second path stands alone, otherwise one slash separates
the two, unless the first is empty or ends in one. -/
def join (path child : Path) : Path :=
  if child.isAbsolute || path.text == "" then child
  else if path.endsInSlash then ⟨path.text ++ child.text⟩
  else ⟨path.text ++ "/" ++ child.text⟩

/-- The segments between the slashes, skipped ones included. -/
def segments (path : Path) : List (List Char) := Text.pieces '/' path.chars

/-- Drops trailing segments that name nothing, from segments in reverse order; a lone `.` is the
start of a relative path and stays. -/
def dropSkipped : List (List Char) → List (List Char)
  | [] => []
  | segment :: earlier =>
    if segment = [] || (segment = ['.'] && earlier ≠ []) then dropSkipped earlier
    else segment :: earlier

/-- The path with these segments, in reverse order. -/
def ofReversed (absolute : Bool) (segments : List (List Char)) : Path :=
  let text := String.ofList (['/'].intercalate segments.reverse)
  ⟨if absolute && segments.length ≤ 1 then "/" ++ text else text⟩

/-- The path without its last component, if it has one. -/
def parent? (path : Path) : Option Path :=
  match dropSkipped path.segments.reverse with
  | [] => none
  | _ :: earlier =>
    let kept := dropSkipped earlier
    some (ofReversed path.isAbsolute (if path.isAbsolute && kept = [] then [[]] else kept))

/-- The last component, if it names an entry of a directory. -/
def fileName? (path : Path) : Option (List Char) :=
  match dropSkipped path.segments.reverse with
  | [] => none
  | name :: _ => if name = ['.'] || name = ['.', '.'] then none else some name

/-- A file name cut at its last dot into stem and extension; a dot at the start cuts nothing. -/
def splitExtension (name : List Char) : List Char × Option (List Char) :=
  let reversed := name.reverse
  let extension := (reversed.takeWhile (· ≠ '.')).reverse
  match reversed.dropWhile (· ≠ '.') with
  | [] => (name, none)
  | _ :: stem =>
    if stem = [] || name = ['.', '.'] then (name, none) else (stem.reverse, some extension)

/-- The path with `extension` put after the last component's stem. -/
def setExtension (path : Path) (extension : String) : Path :=
  match path.fileName?, dropSkipped path.segments.reverse with
  | some name, _ :: earlier =>
    let renamed := (splitExtension name).1 ++ '.' :: extension.toList
    ⟨String.ofList (['/'].intercalate (renamed :: earlier).reverse)⟩
  | _, _ => path

/-- The path with `extension` in the place of the last component's. The old extension is first cut
off the end of the text; if what is left names no file, it stays as it is. -/
def withExtension (path : Path) (extension : String) : Path :=
  let old := (path.fileName?.bind fun name => (splitExtension name).2).getD []
  let kept := path.chars.take (path.chars.length - old.length)
  (Path.mk (String.ofList kept)).setExtension extension

/-- The names on the way from the start of the path, `.` and `..` among them. -/
def names (path : Path) : List String :=
  (path.segments.filter (· ≠ [])).map String.ofList

end Path

end ActivationOrder
