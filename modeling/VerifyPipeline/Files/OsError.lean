/-!
# Errors of the operating system

The ways in which an operation on files or processes can fail, and the words for them.
-/

namespace VerifyPipeline

/-- Why the operating system, or a writer, refused an operation. -/
inductive OsError where
  | notFound
  | permissionDenied
  | alreadyExists
  | notADirectory
  | isADirectory
  | noSpace
  | nameTooLong
  | tooManyLinks
  /-- A path holds the character with the number zero. -/
  | zeroInPath
  /-- A command holds the character with the number zero. -/
  | zeroInCommand
  /-- The bytes of a file are no text. -/
  | notText
  /-- A writer's own words. -/
  | refused (message : String)
  deriving Repr, DecidableEq

/-- The words for an error. -/
def OsError.text : OsError → String
  | .notFound => "No such file or directory (os error 2)"
  | .permissionDenied => "Permission denied (os error 13)"
  | .alreadyExists => "File exists (os error 17)"
  | .notADirectory => "Not a directory (os error 20)"
  | .isADirectory => "Is a directory (os error 21)"
  | .noSpace => "No space left on device (os error 28)"
  | .nameTooLong => "File name too long (os error 36)"
  | .tooManyLinks => "Too many levels of symbolic links (os error 40)"
  | .zeroInPath => "file name contained an unexpected NUL byte"
  | .zeroInCommand => "nul byte found in provided data"
  | .notText => "stream did not contain valid UTF-8"
  | .refused message => message

end VerifyPipeline
