/-!
Why a file operation fails, and the words for it. Most causes are errors of the operating system and
carry its number.
-/

namespace ActivationOrder

/-- Why a file operation fails. -/
inductive OsError where
  | notFound
  | busy
  | alreadyExists
  | notDirectory
  | isDirectory
  | nameTooLong
  /-- A name holds the NUL character. -/
  | nulInName
  /-- A file's bytes are no UTF-8 text. -/
  | notText
  /-- A path has no component left to create. -/
  | nothingToCreate
  /-- A cause that only its words are known of. -/
  | reported (text : String)
  deriving DecidableEq, Inhabited

namespace OsError

/-- What went wrong. -/
def message : OsError → String
  | .notFound => "No such file or directory (os error 2)"
  | .busy => "Device or resource busy (os error 16)"
  | .alreadyExists => "File exists (os error 17)"
  | .notDirectory => "Not a directory (os error 20)"
  | .isDirectory => "Is a directory (os error 21)"
  | .nameTooLong => "File name too long (os error 36)"
  | .nulInName => "file name contained an unexpected NUL byte"
  | .notText => "stream did not contain valid UTF-8"
  | .nothingToCreate => "failed to create whole tree"
  | .reported text => text

end OsError

end ActivationOrder
