import Mathlib.Data.List.TakeWhile
import ActivationOrder.Proofs.Ways

/-!
The name of a temporary file. A path with another extension has the same segments but for the last
one. An extension that has a dot in it is never the one that a name was cut at, so the new last
segment is another name: that of a neighbour in the same directory. This also holds for names with
no dot or with many, and for those that start with dots, where the new last segment may even be
`..`; it then leads out of the directory and still not to the file.
-/

namespace ActivationOrder

namespace Text

variable {separator : Char} {parts : List (List Char)}

/-- Parts without the separator are the pieces of the text that they make up. -/
theorem pieces_intercalate (hparts : parts ≠ []) (h : ∀ part ∈ parts, separator ∉ part) :
    pieces separator ([separator].intercalate parts) = parts := by
  induction parts with
  | nil => exact absurd rfl hparts
  | cons part rest ih =>
    have hpart := h part List.mem_cons_self
    cases rest with
    | nil => simpa [List.intercalate] using pieces_of_not_mem hpart
    | cons next more =>
      rw [List.intercalate_cons_cons, List.append_assoc, List.singleton_append,
        pieces_append hpart, ih (by simp)]
      exact fun other hother => h other (List.mem_cons_of_mem _ hother)

/-- What stands before the last part does not depend on it. -/
theorem intercalate_concat (separator : Char) (parts : List (List Char)) (last : List Char) :
    [separator].intercalate (parts ++ [last]) = parts.flatMap (· ++ [separator]) ++ last := by
  induction parts with
  | nil => simp [List.intercalate]
  | cons part rest ih =>
    obtain ⟨next, more, hrest⟩ := List.exists_cons_of_ne_nil (List.concat_ne_nil last rest)
    rw [List.cons_append, hrest, List.intercalate_cons_cons, ← hrest, ih]
    simp

end Text

namespace Path

variable {path : Path} {front : List (List Char)} {name : List Char}

/-! ### The last segment -/

theorem chars_eq_intercalate (path : Path) : path.chars = ['/'].intercalate path.segments :=
  (Text.intercalate_pieces '/' path.chars).symm

/-- The path of these segments. -/
def ofSegments (segments : List (List Char)) : Path := ⟨String.ofList (['/'].intercalate segments)⟩

theorem segments_ofSegments {segments : List (List Char)} (hsegments : segments ≠ [])
    (h : ∀ segment ∈ segments, '/' ∉ segment) : (ofSegments segments).segments = segments := by
  rw [Path.segments, ofSegments, chars, String.toList_ofList]
  exact Text.pieces_intercalate hsegments h

theorem noSlash_of_segments (h : path.segments = front ++ [name]) :
    (∀ segment ∈ front, '/' ∉ segment) ∧ '/' ∉ name := by
  have hall : ∀ segment ∈ front ++ [name], '/' ∉ segment :=
    fun segment hsegment => Text.not_mem_of_mem_pieces (h ▸ hsegment)
  exact ⟨fun segment hsegment => hall segment (List.mem_append_left _ hsegment),
    hall name (by simp)⟩

/-- A path with another last segment. -/
theorem segments_replace (h : path.segments = front ++ [name]) {other : List Char}
    (hother : '/' ∉ other) :
    (ofSegments (front ++ [other])).segments = front ++ [other] := by
  refine segments_ofSegments (by simp) fun segment hsegment => ?_
  rcases List.mem_append.mp hsegment with hsegment | hsegment
  · exact (noSlash_of_segments h).1 segment hsegment
  · rw [List.mem_singleton.mp hsegment]
    exact hother

/-- Whether a path starts at the root shows before its last segment. -/
theorem isAbsolute_of_segments (h : path.segments = front ++ [name]) (hname : name ≠ []) :
    path.isAbsolute = decide (front.head? = some []) := by
  have hslash := (noSlash_of_segments h).2
  rw [isAbsolute, chars_eq_intercalate, h, Text.intercalate_concat]
  cases front with
  | nil =>
    obtain ⟨c, rest, rfl⟩ := List.exists_cons_of_ne_nil hname
    have hc : c ≠ '/' := fun heq => hslash (heq ▸ List.mem_cons_self)
    simp [hc]
  | cons segment front =>
    cases segment with
    | nil => simp
    | cons c rest =>
      have hc : c ≠ '/' := fun heq =>
        (noSlash_of_segments h).1 (c :: rest) List.mem_cons_self (heq ▸ List.mem_cons_self)
      simp [hc]

theorem names_of_segments (h : path.segments = front ++ [name]) (hname : name ≠ []) :
    path.names = (front.filter (· ≠ [])).map String.ofList ++ [String.ofList name] := by
  simp [names, h, hname]

/-- A path that does not end in a slash has something for its last segment. -/
theorem exists_segments (htext : path.text ≠ "") (hslash : path.endsInSlash = false) :
    ∃ front name, path.segments = front ++ [name] ∧ name ≠ [] := by
  rcases List.eq_nil_or_concat path.segments with h | ⟨front, name, h⟩
  · exact absurd h (Text.pieces_ne_nil '/' path.chars)
  · rw [List.concat_eq_append] at h
    refine ⟨front, name, h, fun hname => ?_⟩
    subst hname
    have hchars : path.chars = front.flatMap (· ++ ['/']) := by
      rw [chars_eq_intercalate, h, Text.intercalate_concat, List.append_nil]
    rcases List.eq_nil_or_concat front with rfl | ⟨front, segment, rfl⟩
    · exact htext (String.toList_eq_nil_iff.mp hchars)
    · rw [endsInSlash, hchars] at hslash
      simp at hslash

/-! ### Another extension -/

/-- A name that is not cut is a stem as a whole. -/
theorem stem_of_splitExtension {stem : List Char} (h : splitExtension name = (stem, none)) :
    stem = name := by
  rw [splitExtension] at h
  split at h
  · exact (Prod.mk.inj h).1.symm
  · split at h
    · exact (Prod.mk.inj h).1.symm
    · cases h

/-- A name is cut after something, and at its last dot. -/
theorem parts_of_splitExtension {stem old : List Char}
    (h : splitExtension name = (stem, some old)) : stem ≠ [] ∧ '.' ∉ old := by
  rw [splitExtension] at h
  split at h
  · cases h
  · split at h
    · cases h
    · next stem' _ hcut =>
      obtain ⟨rfl, hold⟩ := Prod.mk.inj h
      obtain rfl := Option.some.inj hold
      refine ⟨fun hnil => hcut (by simp [List.reverse_eq_nil_iff.mp hnil]), fun hmem => ?_⟩
      have hdot := List.mem_takeWhile_imp (List.mem_reverse.mp hmem)
      simp at hdot

section

variable (h : path.segments = front ++ [name]) (hname : name ≠ []) (hhere : name ≠ ['.'])
include h hname hhere

/-- The last segment is the name of a file, unless it leads out of the directory. -/
theorem fileName?_of_segments :
    path.fileName? = if name = ['.', '.'] then none else some name := by
  simp [fileName?, h, dropSkipped, hname, hhere]

variable (hparent : name ≠ ['.', '.'])
include hparent

theorem setExtension_of_segments (extension : String) :
    path.setExtension extension =
      ofSegments (front ++ [(splitExtension name).1 ++ '.' :: extension.toList]) := by
  rw [setExtension, fileName?_of_segments h hname hhere, if_neg hparent]
  simp [h, dropSkipped, hname, hhere, ofSegments]

/-- A name that is not cut gets the extension behind all of it. -/
theorem withExtension_of_uncut (extension : String) {stem : List Char}
    (hsplit : splitExtension name = (stem, none)) :
    path.withExtension extension = ofSegments (front ++ [name ++ '.' :: extension.toList]) := by
  have hpath : Path.mk (String.ofList path.chars) = path := by rw [chars, String.ofList_toList]
  have hset := setExtension_of_segments h hname hhere hparent extension
  rw [hsplit, stem_of_splitExtension hsplit] at hset
  rw [withExtension, fileName?_of_segments h hname hhere, if_neg hparent]
  simp only [Option.bind_some, hsplit, Option.getD_none, List.length_nil, Nat.sub_zero,
    List.take_length, hpath, hset]

/-- A name that is cut loses what stands after its last dot before it gets the extension. -/
theorem withExtension_of_cut (extension : String) {stem old : List Char}
    (hsplit : splitExtension name = (stem, some old)) :
    path.withExtension extension =
      (ofSegments (front ++ [stem ++ ['.']])).setExtension extension := by
  have hchars : path.chars = (front.flatMap (· ++ ['/']) ++ (stem ++ ['.'])) ++ old := by
    rw [chars_eq_intercalate, h, Text.intercalate_concat, eq_append_of_splitExtension hsplit]
    simp
  have hkept : path.chars.take (path.chars.length - old.length) =
      ['/'].intercalate (front ++ [stem ++ ['.']]) := by
    rw [Text.intercalate_concat, hchars, List.length_append, Nat.add_sub_cancel, List.take_left]
  rw [withExtension, fileName?_of_segments h hname hhere, if_neg hparent, ofSegments]
  simp only [Option.bind_some, hsplit, Option.getD_some, hkept]

/-- Another extension that has a dot in it gives another last segment. -/
theorem segments_withExtension {extension : String} (hdot : '.' ∈ extension.toList)
    (hslash : '/' ∉ extension.toList) :
    ∃ other, (path.withExtension extension).segments = front ++ [other] ∧ other ≠ [] ∧
      other ≠ name := by
  have hnoSlash := (noSlash_of_segments h).2
  rcases hsplit : splitExtension name with ⟨stem, _ | old⟩
  · refine ⟨name ++ '.' :: extension.toList, ?_, by simp, by simp⟩
    rw [withExtension_of_uncut h hname hhere hparent extension hsplit]
    exact segments_replace h (by simp [hnoSlash, hslash])
  · obtain ⟨hstem, hold⟩ := parts_of_splitExtension hsplit
    have hcut := eq_append_of_splitExtension hsplit
    have hstemSlash : '/' ∉ stem := fun hmem => hnoSlash (hcut ▸ List.mem_append_left _ hmem)
    have hkeptSlash : '/' ∉ stem ++ ['.'] := by simp [hstemSlash]
    have hsegments := segments_replace h hkeptSlash
    have hne : stem ++ ['.'] ≠ [] := by simp
    have hkeptHere : stem ++ ['.'] ≠ ['.'] := by simpa using hstem
    rw [withExtension_of_cut h hname hhere hparent extension hsplit]
    by_cases hdots : stem ++ ['.'] = ['.', '.']
    · -- the stem of `..toml` is a dot: what is left names no file and stays as it is
      refine ⟨['.', '.'], ?_, by simp, Ne.symm hparent⟩
      rw [setExtension, fileName?_of_segments hsegments hne hkeptHere, if_pos hdots]
      exact hdots ▸ hsegments
    · refine ⟨stem ++ '.' :: extension.toList, ?_, by simp, fun heq => ?_⟩
      · rw [setExtension_of_segments hsegments hne hkeptHere hdots,
          splitExtension_append_of_ne hstem hdots (by simp)]
        exact segments_replace h (by simp [hstemSlash, hslash])
      · rw [hcut, List.append_cancel_left_eq, List.cons.injEq] at heq
        exact hold (heq.2 ▸ hdot)

end

end Path

/-! ### The place of the temporary file -/

namespace Files

variable {files : Files} {path : Path} {place : Place}

/-- What a path with another last name leads to is not what the path leads to. -/
theorem walk_concat_ne {front : List String} {name other : String} {start last : Place}
    (h : files.walk start (front ++ [name]) = .ok place)
    (hhere : name ≠ ".") (hparent : name ≠ "..")
    (hother : files.walk start (front ++ [other]) = .ok last) (hne : other ≠ name) :
    last ≠ place := by
  obtain ⟨dir, hdir, hstep⟩ := walk_concat_eq_ok.mp h
  obtain ⟨dir', hdir', hstep'⟩ := walk_concat_eq_ok.mp hother
  obtain rfl : dir = dir' := Except.ok.inj (hdir.symm.trans hdir')
  rcases step_cases hstep with ⟨heq, -⟩ | ⟨heq, -⟩ | ⟨-, -, rfl⟩
  · exact absurd heq hhere
  · exact absurd heq hparent
  · intro heq
    have hlength := congrArg List.length heq
    rcases step_cases hstep' with ⟨-, rfl⟩ | ⟨-, rfl⟩ | ⟨-, -, rfl⟩
    · simp at hlength
    · simp at hlength
    · rw [List.append_cancel_left_eq, List.singleton_inj] at heq
      exact hne heq

/-- The temporary file is never where the path leads, unless this is a directory. -/
theorem locate_temporaryPath_ne {last : Place} (hrooted : files.Rooted)
    (hfollow : files.follow path = .ok place) (hslash : path.endsInSlash = false)
    (hplace : files.get? place ≠ some .directory)
    (htemporary : files.locate (Index.temporaryPath path) = .ok last) : last ≠ place := by
  obtain ⟨front, name, hsegments, hname⟩ := Path.exists_segments (follow_eq_ok hfollow).2.1 hslash
  have hnames := Path.names_of_segments hsegments hname
  obtain ⟨_, text, _, hend, hhere, hparent, -⟩ := exists_name_of_follow hrooted hfollow hplace
  obtain rfl : text = String.ofList name := by
    rw [hnames] at hend
    exact (List.append_singleton_inj.mp hend).2.symm
  have hdot : name ≠ ['.'] := fun heq => hhere (by rw [heq])
  have hdots : name ≠ ['.', '.'] := fun heq => hparent (by rw [heq])
  have hextension : '.' ∈ "toml.tmp".toList ∧ '/' ∉ "toml.tmp".toList := by decide
  obtain ⟨other, hsegments', hother, hne⟩ :=
    Path.segments_withExtension hsegments hname hdot hdots hextension.1 hextension.2
  have hwalk := walk_of_follow hfollow
  have hwalk' : files.walk (files.start path)
      ((front.filter (· ≠ [])).map String.ofList ++ [String.ofList other]) = .ok last := by
    have hfollow' : files.follow (path.withExtension "toml.tmp") = .ok last :=
      (locate_eq_ok.mp htemporary).1
    rw [← Path.names_of_segments hsegments' hother, ← walk_of_follow hfollow', start, start,
      Path.isAbsolute_of_segments hsegments hname, Path.isAbsolute_of_segments hsegments' hother]
  rw [hnames] at hwalk
  exact walk_concat_ne hwalk hhere hparent hwalk' fun heq => hne (String.ofList_injective heq)

end Files

end ActivationOrder
