/-!
# Why a path cannot be used
-/

namespace Classpath

/-- Why the file system refuses a path. -/
inductive FileError
  | notFound
  | notDirectory
  | isDirectory
  | notRegular
  | notText
  /-- Any other refusal, in the words of the file system. -/
  | refused (reason : String)
deriving DecidableEq, Repr

/-- The wording of a refusal. -/
def FileError.message : FileError → String
  | notFound => "No such file or directory (os error 2)"
  | notDirectory => "Not a directory (os error 20)"
  | isDirectory => "Is a directory (os error 21)"
  | notRegular => "not a regular file"
  | notText => "stream did not contain valid UTF-8"
  | refused reason => reason

end Classpath
