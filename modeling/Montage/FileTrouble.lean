/-!
# File troubles — why a file system refuses a request
-/

namespace Montage

/-- Why the file system refuses a request. -/
inductive FileTrouble where
  | notFound
  | exists
  | notADirectory
  | isADirectory
  | nameTooLong
  /-- A text file whose bytes are not text. -/
  | notText
  /-- A trouble that somebody else has worded. -/
  | worded (text : String)
deriving DecidableEq

/-- The wording of a refused request. -/
def FileTrouble.message : FileTrouble → String
  | .notFound => "No such file or directory (os error 2)"
  | .exists => "File exists (os error 17)"
  | .notADirectory => "Not a directory (os error 20)"
  | .isADirectory => "Is a directory (os error 21)"
  | .nameTooLong => "File name too long (os error 36)"
  | .notText => "stream did not contain valid UTF-8"
  | .worded text => text

end Montage
