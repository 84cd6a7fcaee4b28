namespace AssetPack

/-! Failures of reading and writing files. -/

inductive IoError where
  | notFound | permissionDenied | notADirectory | isADirectory | noSpace | nameTooLong
  | invalidUtf8 | nulInName
  deriving DecidableEq, Repr

def IoError.message : IoError → String
  | notFound => "No such file or directory (os error 2)"
  | permissionDenied => "Permission denied (os error 13)"
  | notADirectory => "Not a directory (os error 20)"
  | isADirectory => "Is a directory (os error 21)"
  | noSpace => "No space left on device (os error 28)"
  | nameTooLong => "File name too long (os error 36)"
  | invalidUtf8 => "stream did not contain valid UTF-8"
  | nulInName => "file name contained an unexpected NUL byte"

end AssetPack
