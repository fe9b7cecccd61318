import Classpath.ClassFile.Error
import Classpath.FileError
import Classpath.Name

/-!
# Why a check fails

A class that no source defines is an answer, not a failure.  A check fails when
an archive cannot be opened, an entry cannot be read, or a class file cannot be
decoded.  It breaks down at an entry that declares more bytes than a buffer can
have, since the buffer is made before the entry is read.
-/

namespace Classpath

/-- Why an archive or one of its entries cannot be read: the file system refuses, or the
reader of jars does, in its own words. -/
inductive ReadFailure
  | file (error : FileError)
  | zip (message : String)
deriving DecidableEq, Repr

def ReadFailure.message : ReadFailure → String
  | file error => error.message
  | zip message => message

/-- A failure of a check, with its cause. -/
inductive CheckError
  | unavailable (path : String) (cause : ReadFailure)
  | unreadable (archive entry : String) (cause : ReadFailure)
  | undecodable (name : ClassName) (archive : String) (cause : ClassFile.DecodeError)
  /-- The entry declares more bytes than a buffer can have. -/
  | oversized (archive entry : String) (size : UInt64)
deriving DecidableEq, Repr

namespace CheckError

/-- The wording of a failure, without its cause. -/
def message : CheckError → String
  | unavailable path _ => "archive unavailable: " ++ path
  | unreadable archive entry _ => "failed to read " ++ entry ++ " from " ++ archive
  | undecodable name archive _ => name.dotted ++ " in " ++ archive ++ " is not a valid class file"
  | oversized _ _ _ => "capacity overflow"

/-- The wording of the cause, if there is one. -/
def causeMessage : CheckError → String
  | unavailable _ cause => cause.message
  | unreadable _ _ cause => cause.message
  | undecodable _ _ cause => cause.message
  | oversized _ _ _ => ""

/-- Is the failure that of an archive that cannot be opened? -/
def isUnavailable : CheckError → Bool
  | unavailable _ _ => true
  | _ => false

end CheckError
end Classpath
