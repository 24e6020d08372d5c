import ThemeLint.Bytes.Quote

namespace ThemeLint

open Bytes

inductive HostCall where
  | stat
  | openFile
  | readFile
  | makeDirectory
  | makeLink (target : Bytes)
deriving DecidableEq, Repr

inductive HostReason where
  | notFound
  | present
  | notDirectory
  | isDirectory
  | invalidPath
  | nameTooLong
  | tooManyLinks
deriving DecidableEq, Repr

-- Why a file operation fails. The last case is a refusal by the host; the
-- others come from a tree that is held in memory.
inductive FileError where
  | missing
  | directory (path : Bytes)
  | occupied (path : Bytes)
  | present
  | notEmpty (path : Bytes)
  | outside
  | host (call : HostCall) (path : Bytes) (reason : HostReason)
deriving DecidableEq, Repr

namespace HostCall

def name : HostCall → Bytes
  | stat => utf8 "stat"
  | openFile => utf8 "open"
  | readFile => utf8 "read"
  | makeDirectory => utf8 "mkdir"
  | makeLink target => utf8 "symlink " ++ target

end HostCall

namespace HostReason

def text : HostReason → Bytes
  | notFound => utf8 "no such file or directory"
  | present => utf8 "file exists"
  | notDirectory => utf8 "not a directory"
  | isDirectory => utf8 "is a directory"
  | invalidPath => utf8 "invalid argument"
  | nameTooLong => utf8 "file name too long"
  | tooManyLinks => utf8 "too many levels of symbolic links"

end HostReason

namespace FileError

def message : FileError → Bytes
  | missing => utf8 "file does not exist"
  | directory path => utf8 "cannot open directory: " ++ path
  | occupied path => utf8 "file already exists " ++ quote path
  | present => utf8 "file already exists"
  | notEmpty path => utf8 "dir: " ++ path ++ utf8 " contains files"
  | outside => utf8 "chroot boundary crossed"
  | host call path reason => call.name ++ utf8 " " ++ path ++ utf8 ": " ++ reason.text

-- Whether the failure says that nothing is there. A file in the place of a
-- directory is another failure.
def isMissing : FileError → Bool
  | missing => true
  | host _ _ .notFound => true
  | _ => false

end FileError

end ThemeLint
