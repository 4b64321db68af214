/-!
Why a system call failed.

Most failures carry the error number of the kernel. A few are found before the kernel is asked
(a path with a NUL, a copy of something that is no file) or after it has answered (a file that is
no text), and carry none.
-/

namespace NetplanEditor

inductive ErrorNumber
  | notPermitted
  | noEntry
  | accessDenied
  | entryExists
  | notADirectory
  | isADirectory
  | nameTooLong
  | tooManyLinks
  deriving DecidableEq, Repr

namespace ErrorNumber

def code : ErrorNumber → Nat
  | notPermitted => 1
  | noEntry => 2
  | accessDenied => 13
  | entryExists => 17
  | notADirectory => 20
  | isADirectory => 21
  | nameTooLong => 36
  | tooManyLinks => 40

def meaning : ErrorNumber → String
  | notPermitted => "Operation not permitted"
  | noEntry => "No such file or directory"
  | accessDenied => "Permission denied"
  | entryExists => "File exists"
  | notADirectory => "Not a directory"
  | isADirectory => "Is a directory"
  | nameTooLong => "File name too long"
  | tooManyLinks => "Too many levels of symbolic links"

end ErrorNumber

/-- The cause of a failed system call. -/
inductive SystemError
  | numbered (number : ErrorNumber)
  /-- The content of a file is not UTF-8. -/
  | notText
  | nulInPath
  /-- The name of a program holds a NUL. -/
  | nulInProgram
  /-- The source of a copy is not a regular file. -/
  | notAFile
  /-- A storage that is not the file system refused access. -/
  | refused
  /-- A runner that is not the operating system has no such program. -/
  | absent
  /-- Any other failure, in the words of the system. -/
  | other (text : String)
  deriving DecidableEq, Repr

namespace SystemError

def message : SystemError → String
  | numbered number => s!"{number.meaning} (os error {number.code})"
  | notText => "stream did not contain valid UTF-8"
  | nulInPath => "file name contained an unexpected NUL byte"
  | nulInProgram => "nul byte found in provided data"
  | notAFile => "the source path is neither a regular file nor a symlink to a regular file"
  | refused => "permission denied"
  | absent => "not found"
  | other text => text

/-- The failure says that the thing asked for does not exist. -/
def isNotFound (error : SystemError) : Bool :=
  match error with
  | numbered .noEntry | absent => true
  | _ => false

end SystemError

end NetplanEditor
