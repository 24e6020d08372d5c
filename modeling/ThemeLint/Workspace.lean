import ThemeLint.Files.Disk
import ThemeLint.Files.Glob
import ThemeLint.Source.Scan

namespace ThemeLint

open Bytes Source

structure Workspace where
  root : Bytes
  volume : Volume

inductive OpenError where
  | missing (path : Bytes)
  | notDirectory (path : Bytes)
  | unavailable (path : Bytes) (cause : FileError)
deriving DecidableEq, Repr

namespace OpenError

def message : OpenError → Bytes
  | missing path => utf8 "work dir not found: " ++ path
  | notDirectory path => utf8 "work dir not found: " ++ path ++ utf8 " is not a directory"
  | unavailable path cause => utf8 "failed to stat " ++ path ++ utf8 ": " ++ cause.message

end OpenError

inductive LocateError where
  | expand (pattern : Bytes) (cause : Glob.BadPattern)
  | stat (relPath : Bytes) (cause : FileError)
deriving DecidableEq, Repr

namespace LocateError

def message : LocateError → Bytes
  | expand pattern cause => utf8 "failed to expand " ++ pattern ++ utf8 ": " ++ cause.message
  | stat relPath cause => utf8 "failed to stat " ++ relPath ++ utf8 ": " ++ cause.message

end LocateError

namespace Workspace

def openAt (disk : Disk) (path : Bytes) : Except OpenError Workspace :=
  let root := disk.absolute path
  match disk.stat root with
  | .ok .directory => .ok ⟨root, disk.volume root⟩
  | .ok _ => .error (.notDirectory root)
  | .error cause => .error (if cause.isMissing then .missing root else .unavailable root cause)

def patterns : List Bytes := [utf8 "topics/*/interactive.*", utf8 "topics/*/widgets/*.js"]

def file (ws : Workspace) (relPath : Bytes) : File := ⟨Path.join ws.root relPath, relPath⟩

def fileAt (ws : Workspace) (relPath : Bytes) : Except LocateError (Option File) :=
  match ws.volume.isDirectory relPath with
  | .error cause => .error (.stat relPath cause)
  | .ok true => .ok none
  | .ok false => .ok (some (ws.file relPath))

def matching (ws : Workspace) (pattern : Bytes) : Except LocateError (List File) :=
  match Glob.expand ws.volume pattern with
  | .error cause => .error (.expand pattern cause)
  | .ok found => (found.mapM ws.fileAt).map (·.filterMap id)

-- One file for each path, the first of those with that path.
def distinct : List File → List File
  | [] => []
  | file :: rest => file :: (distinct rest).filter (·.path ≠ file.path)

def locate (ws : Workspace) (patterns : List Bytes) : Except LocateError (List File) := do
  let found ← patterns.mapM ws.matching
  .ok ((distinct found.flatten).mergeSort fun a b => decide (a.path ≤ b.path))

end Workspace

end ThemeLint
