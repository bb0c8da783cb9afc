import PromptRunner.Text.Quoted

/-!
# What can go wrong with files

The system answers an operation that cannot be done with one of a few numbered causes. Three more
come before the system is asked or after it has answered: a name that cannot be handed over, a
program argument that cannot, and content that is no text. A temporary file's failure also says
which path was tried.
-/

namespace PromptRunner.Files

/-- The causes that the system knows. -/
inductive Errno where
  | noEntry
  | notExecutable
  | permissionDenied
  | exists_
  | notDirectory
  | isDirectory
  | nameTooLong
  | tooManyLinks
  deriving DecidableEq, Repr

def Errno.code : Errno → Nat
  | .noEntry => 2
  | .notExecutable => 8
  | .permissionDenied => 13
  | .exists_ => 17
  | .notDirectory => 20
  | .isDirectory => 21
  | .nameTooLong => 36
  | .tooManyLinks => 40

def Errno.text : Errno → String
  | .noEntry => "No such file or directory"
  | .notExecutable => "Exec format error"
  | .permissionDenied => "Permission denied"
  | .exists_ => "File exists"
  | .notDirectory => "Not a directory"
  | .isDirectory => "Is a directory"
  | .nameTooLong => "File name too long"
  | .tooManyLinks => "Too many levels of symbolic links"

/-- Why an operation on files, or the start of a program, did not succeed. -/
inductive IoError where
  | system (cause : Errno)
  | notText
  | nulInPath
  | nulInArgument
  | noFreshName
  | temporary (cause : IoError) (path : String)
  deriving DecidableEq, Repr

def IoError.message : IoError → String
  | .system cause => cause.text ++ " (os error " ++ toString cause.code ++ ")"
  | .notText => "stream did not contain valid UTF-8"
  | .nulInPath => "file name contained an unexpected NUL byte"
  | .nulInArgument => "nul byte found in provided data"
  | .noFreshName => "too many temporary files exist"
  | .temporary cause path => cause.message ++ " at path " ++ Text.quotedPath path

def IoError.isNotFound : IoError → Bool
  | .system .noEntry => true
  | .temporary cause _ => cause.isNotFound
  | _ => false

end PromptRunner.Files
