import ThemeLint.Files.Tree

namespace ThemeLint

open Bytes

-- A tree as the host shows it: rooted paths start at its root, all others at the
-- current directory, and links are followed on the way down.
structure Disk where
  tree : Tree
  current : List Bytes
deriving DecidableEq, Repr

namespace Disk

def maxName : Nat := 255
def maxPath : Nat := 4096
def maxLinks : Nat := 40

-- How far a way leads before a link has to be followed.
inductive Way where
  | reached (place : List Bytes)
  | refused (reason : HostReason)
  | linked (place : List Bytes) (target : Bytes) (rest : List Bytes)
deriving DecidableEq, Repr

-- Goes down from a directory, component by component. Two dots lead to the
-- directory above, and anything behind a file needs it to be a directory. The
-- last component may be a link that is to be left alone.
def walk (tree : Tree) (followLast : Bool) (place : List Bytes) : List Bytes → Way
  | [] => .reached place
  | name :: rest =>
    if name = [] ∨ name = Path.here then walk tree followLast place rest
    else if name = Path.up then walk tree followLast place.dropLast rest
    else if name.length > maxName then .refused .nameTooLong
    else
      match tree.get? (place ++ [name]) with
      | none => .refused .notFound
      | some .directory => walk tree followLast (place ++ [name]) rest
      | some (.file _) => if rest = [] then .reached (place ++ [name]) else .refused .notDirectory
      | some (.link target) =>
        if rest = [] ∧ !followLast then .reached (place ++ [name])
        else .linked place target rest

def resolveFrom (tree : Tree) (followLast : Bool) :
    Nat → List Bytes → List Bytes → Except HostReason (List Bytes)
  | 0, _, _ => .error .tooManyLinks
  | links + 1, place, parts =>
    match walk tree followLast place parts with
    | .reached place => .ok place
    | .refused reason => .error reason
    | .linked place target rest =>
      resolveFrom tree followLast links (if Path.isRooted target then [] else place)
        (partsBy Path.slash target ++ rest)

def accept (path : Bytes) : Except HostReason Unit :=
  if path.isEmpty then .error .notFound
  else if path.any (· == 0) then .error .invalidPath
  else if path.length ≥ maxPath then .error .nameTooLong
  else .ok ()

def resolve (disk : Disk) (followLast : Bool) (path : Bytes) : Except HostReason (List Bytes) := do
  accept path
  resolveFrom disk.tree followLast (maxLinks + 1)
    (if Path.isRooted path then [] else disk.current) (partsBy Path.slash path)

def node (disk : Disk) (path : Bytes) : Except HostReason Node := do
  let place ← disk.resolve true path
  match disk.tree.get? place with
  | some node => .ok node
  | none => .error .notFound

def directory (disk : Disk) (path : Bytes) : Except HostReason (List Bytes) := do
  let place ← disk.resolve true path
  if disk.tree.get? place = some .directory then .ok place else .error .notDirectory

def absolute (disk : Disk) (path : Bytes) : Bytes :=
  if Path.isRooted path then Path.clean path else Path.join (Path.absolute disk.current) path

def stat (disk : Disk) (path : Bytes) : Except FileError Node :=
  match disk.node path with
  | .ok node => .ok node
  | .error reason => .error (.host .stat path reason)

-- The content of a file. A directory can be opened, but not read.
def read (disk : Disk) (path : Bytes) : Except FileError Bytes :=
  match disk.node path with
  | .ok (.file content) => .ok content
  | .ok _ => .error (.host .readFile path .isDirectory)
  | .error reason => .error (.host .openFile path reason)

def below (root path : Bytes) : Except FileError Bytes :=
  if Path.leavesRoot path then .error .outside else .ok (Path.join root path)

def volume (disk : Disk) (root : Bytes) : Volume where
  isPresent path :=
    match below root path with
    | .ok path => (disk.resolve false path).isOk
    | .error _ => false
  isDirectory path := do
    let path ← below root path
    let node ← disk.stat path
    .ok (node == .directory)
  names path :=
    match below root path with
    | .ok path =>
      match disk.resolve true path with
      | .ok place => disk.tree.children place
      | .error _ => []
    | .error _ => []
  read path := do
    let path ← below root path
    disk.read path

-- Makes one directory. One that is there already, or that a link leads to, is fine.
def makeDirectory (disk : Disk) (path : Bytes) : Except FileError Disk :=
  let refuse (reason : HostReason) : Except FileError Disk :=
    .error (.host .makeDirectory path reason)
  match disk.node path with
  | .ok .directory => .ok disk
  | .ok _ => refuse .notDirectory
  | .error reason =>
    if (disk.resolve false path).isOk then refuse .present
    else if reason ≠ .notFound then refuse reason
    else match disk.directory (Path.parent path) with
      | .error reason => refuse reason
      | .ok place =>
        .ok { disk with tree := disk.tree.put (place ++ [Path.name path]) .directory }

def makeDirectories (disk : Disk) (path : Bytes) : Except FileError Disk :=
  let places := Path.components path
  ((List.range (places.length + 1)).map places.take).foldlM
    (fun disk place => disk.makeDirectory (Path.absolute place)) disk

-- Where a file that is written to a path stands: behind the links at the path. What
-- ends in a slash or in dots can only be a directory.
def destination (disk : Disk) : Nat → Bytes → Except HostReason (List Bytes)
  | 0, _ => .error .tooManyLinks
  | links + 1, path => do
    accept path
    let bare := (path.reverse.dropWhile (· == Path.slash)).reverse
    let name := Path.name bare
    let place ← disk.directory (Path.parent bare)
    if bare ≠ path ∨ name = Path.here ∨ name = Path.up then .error .isDirectory
    else if name.length > maxName then .error .nameTooLong
    else match disk.tree.get? (place ++ [name]) with
      | some .directory => .error .isDirectory
      | some (.link target) =>
        disk.destination links
          (if Path.isRooted target then target else Path.absolute place ++ Path.slash :: target)
      | _ => .ok (place ++ [name])

def write (disk : Disk) (path content : Bytes) : Except FileError Disk :=
  match disk.destination (maxLinks + 1) path with
  | .ok place => .ok { disk with tree := disk.tree.put place (.file content) }
  | .error reason => .error (.host .openFile path reason)

def makeLink (disk : Disk) (path target : Bytes) : Except FileError Disk :=
  let refuse (reason : HostReason) : Except FileError Disk :=
    .error (.host (.makeLink target) path reason)
  if target.isEmpty then refuse .notFound
  else if target.any (· == 0) then refuse .invalidPath
  else match disk.resolve false path with
    | .ok _ => refuse .present
    | .error .notFound =>
      match disk.directory (Path.parent path) with
      | .ok place =>
        .ok { disk with tree := disk.tree.put (place ++ [Path.name path]) (.link target) }
      | .error reason => refuse reason
    | .error reason => refuse reason

def add (disk : Disk) (path : Bytes) (node : Node) : Except FileError Disk :=
  let path := disk.absolute path
  match node with
  | .directory => disk.makeDirectories path
  | .file content => do (← disk.makeDirectories (Path.parent path)).write path content
  | .link target => do (← disk.makeDirectories (Path.parent path)).makeLink path target

end Disk

end ThemeLint
