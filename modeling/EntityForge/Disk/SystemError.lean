/-!
# Errors of the file system

The reasons for which a file operation can fail, in the words of the system.
-/

namespace EntityForge

/-- Why a file operation failed. -/
inductive SystemError where
  /-- A part of the path does not exist. -/
  | notFound
  /-- A part of the path that has to be a folder is a file. -/
  | notFolder
  /-- A folder stands where a file is wanted. -/
  | isFolder
  /-- A file stands where a folder is to be made. -/
  | alreadyExists
  /-- A part of the path, or the whole path, is too long. -/
  | nameTooLong
  /-- The content of a file is not a text. -/
  | notText
  /-- The path holds a character that ends a path. -/
  | nulInPath
  /-- The user may not do this. -/
  | denied
  /-- The operation is not offered here. -/
  | unsupported
  deriving DecidableEq, Repr

/-- The wording of the system. -/
def SystemError.message : SystemError → String
  | .notFound => "No such file or directory (os error 2)"
  | .notFolder => "Not a directory (os error 20)"
  | .isFolder => "Is a directory (os error 21)"
  | .alreadyExists => "File exists (os error 17)"
  | .nameTooLong => "File name too long (os error 36)"
  | .notText => "stream did not contain valid UTF-8"
  | .nulInPath => "file name contained an unexpected NUL byte"
  | .denied => "Permission denied (os error 13)"
  | .unsupported => "Function not implemented (os error 38)"

end EntityForge
