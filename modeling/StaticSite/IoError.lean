/-!
# StaticSite.IoError

What can go wrong with a file, and its wording.
-/

set_option autoImplicit false

namespace StaticSite

/-- Why an operation on a file failed. -/
inductive IoError where
  /-- Nothing stands at the path. -/
  | notFound
  /-- A file stands where a directory is needed. -/
  | notDirectory
  /-- A directory stands where a file is needed. -/
  | isDirectory
  /-- Something stands at the path already. -/
  | alreadyExists
  /-- The directory still has entries. -/
  | notEmpty
  /-- The operation makes no sense for the path. -/
  | invalid
  /-- The path, or a name on it, is too long. -/
  | nameTooLong
  /-- The path contains the character that ends paths. -/
  | nulInName
  /-- The bytes of the file are not text. -/
  | notText
  /-- Anything else, in words. -/
  | other (text : String)
deriving DecidableEq, Inhabited, Repr

namespace IoError

/-- The wording of the failure. -/
def message : IoError → String
  | notFound => "No such file or directory (os error 2)"
  | notDirectory => "Not a directory (os error 20)"
  | isDirectory => "Is a directory (os error 21)"
  | alreadyExists => "File exists (os error 17)"
  | notEmpty => "Directory not empty (os error 39)"
  | invalid => "Invalid argument (os error 22)"
  | nameTooLong => "File name too long (os error 36)"
  | nulInName => "file name contained an unexpected NUL byte"
  | notText => "stream did not contain valid UTF-8"
  | other text => text

end IoError

end StaticSite
