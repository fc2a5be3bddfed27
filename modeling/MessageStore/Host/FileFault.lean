/-!
# Faults of the file system

Why a file or a directory cannot be read or made, and the names of these
faults.
-/

namespace MessageStore.Host

/-- Why a path cannot be used. -/
inductive FileFault
  | notFound
  | notADirectory
  | isADirectory
  | alreadyExists
  /-- The content is not text in UTF-8. -/
  | notText
  /-- The path holds the character U+0000. -/
  | nulInPath
  /-- The path or a component of it is too long. -/
  | nameTooLong
  deriving DecidableEq, Repr

/-- The name of a fault. -/
def FileFault.name : FileFault → String
  | notFound => "NotFound"
  | notADirectory => "NotADirectory"
  | isADirectory => "IsADirectory"
  | alreadyExists => "AlreadyExists"
  | notText => "InvalidData"
  | nulInPath => "InvalidInput"
  | nameTooLong => "InvalidFilename"

end MessageStore.Host
