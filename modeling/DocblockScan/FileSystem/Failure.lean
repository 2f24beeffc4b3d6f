/-!
# Why a file operation fails

The causes a file operation can fail for, and the wording of each.
-/

namespace DocblockScan

/-- The cause of a failed file operation. -/
inductive FileFailure where
  | notFound
  | alreadyExists
  | notDirectory
  | isDirectory
  | nameTooLong
  | tooManyLinks
  | nulInPath
  | notText
  | noNamespaceDirectory (name : String)
  | noTagDirectory (name : String)
deriving Repr, DecidableEq

namespace FileFailure

/-- The text that reports a cause. -/
def message : FileFailure → String
  | .notFound => "No such file or directory (os error 2)"
  | .alreadyExists => "File exists (os error 17)"
  | .notDirectory => "Not a directory (os error 20)"
  | .isDirectory => "Is a directory (os error 21)"
  | .nameTooLong => "File name too long (os error 36)"
  | .tooManyLinks => "Too many levels of symbolic links (os error 40)"
  | .nulInPath => "file name contained an unexpected NUL byte"
  | .notText => "stream did not contain valid UTF-8"
  | .noNamespaceDirectory name => "no directory for namespace " ++ name
  | .noTagDirectory name => "no annotation directory for " ++ name

end FileFailure

end DocblockScan
