/-!
# File systems

A file system makes directories and writes files, or says why it cannot.  Nothing else is asked of
it, and an operation that fails may have changed something on the way.

The operations are `create_dir_all` and `fs::write`.
-/

set_option autoImplicit false

namespace KeyedRecord.Files

/-- Why an operation failed. -/
inductive Failure where
  | notFound
  | alreadyExists
  | notDirectory
  | isDirectory
  | nameTooLong
  | nulInName
  /-- Any other reason, in the words of the file system. -/
  | other (message : String)
  deriving DecidableEq, Repr

/-- The message of a failure. -/
def Failure.message : Failure → String
  | notFound => "No such file or directory (os error 2)"
  | alreadyExists => "File exists (os error 17)"
  | notDirectory => "Not a directory (os error 20)"
  | isDirectory => "Is a directory (os error 21)"
  | nameTooLong => "File name too long (os error 36)"
  | nulInName => "file name contained an unexpected NUL byte"
  | other message => message

/-- The states of a file system, and its two operations. -/
class FileSystem (σ : Type) where
  /-- Make a directory with all directories on its way. -/
  makeDirs (path : String) (fs : σ) : Except Failure Unit × σ
  /-- Write a text to a file, in place of what it held. -/
  write (path text : String) (fs : σ) : Except Failure Unit × σ

end KeyedRecord.Files
