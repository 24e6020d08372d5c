import ThemeLint.Files.Tree

namespace ThemeLint.Sandbox

open Bytes

-- A tree seen from its root. A path with or without a leading slash names the
-- same place; a path that leads above the root is refused.
def place (path : Bytes) : Except FileError (List Bytes) :=
  if Path.leavesRoot path then .error .outside else .ok (Path.fromRoot path)

-- Where a link leads: a relative target starts beside the link.
def linkTarget (path : List Bytes) (target : Bytes) : List Bytes :=
  if Path.isRooted target then Path.fromRoot target
  else Path.fromRoot (Path.absolute path.dropLast ++ Path.slash :: target)

-- Follows the link at a path, and those it leads to. Links on the way down are
-- not followed, and one that leads to itself is where the way ends. A chain longer
-- than the tree has entries is a circle, which leads nowhere.
def follow (tree : Tree) : Nat → List Bytes → List Bytes
  | 0, path => path
  | steps + 1, path =>
    match tree.get? path with
    | some (.link target) =>
      if linkTarget path target = path then path else follow tree steps (linkTarget path target)
    | _ => path

def resolve (tree : Tree) (path : List Bytes) : List Bytes :=
  follow tree (tree.entries.length + 1) path

def find? (tree : Tree) (path : List Bytes) : Option Node :=
  match tree.get? (resolve tree path) with
  | some (.link _) => none
  | node => node

def isPresent (tree : Tree) (path : Bytes) : Bool :=
  match place path with
  | .ok path => (tree.get? path).isSome
  | .error _ => false

def isDirectory (tree : Tree) (path : Bytes) : Except FileError Bool := do
  let path ← place path
  match find? tree path with
  | none => .error .missing
  | some node => .ok (node == .directory)

def names (tree : Tree) (path : Bytes) : List Bytes :=
  match place path with
  | .ok path => tree.children (resolve tree path)
  | .error _ => []

def read (tree : Tree) (path : Bytes) : Except FileError Bytes := do
  let path ← place path
  match find? tree path with
  | some (.file content) => .ok content
  | some .directory => .error (.directory (Path.absolute (resolve tree path)))
  | _ => .error .missing

def volume (tree : Tree) : Volume where
  isPresent := isPresent tree
  isDirectory := isDirectory tree
  names := names tree
  read := read tree

-- Writes a file, or the one that a link leads to. A file that is missing is made,
-- with the directories above it. To write to a link that leads to itself is to give
-- it another target.
def write (tree : Tree) (path : Bytes) (content : Bytes) : Except FileError Tree := do
  let path ← place path
  let path := resolve tree path
  match tree.get? path with
  | some .directory => .error (.directory (Path.absolute path))
  | some (.file _) => .ok (tree.put path (.file content))
  | some (.link _) => .ok (tree.put path (.link content))
  | none => .ok (tree.add path (.file content))

def makeDirectory (tree : Tree) (path : Bytes) : Except FileError Tree := do
  let path ← place path
  match tree.get? path with
  | some .directory => .ok tree
  | some _ => .error (.occupied (Path.absolute path))
  | none => .ok (tree.add path .directory)

def makeLink (tree : Tree) (path target : Bytes) : Except FileError Tree := do
  let path ← place path
  match tree.get? path with
  | some _ => .error .present
  | none => .ok (tree.add path (.link target))

def remove (tree : Tree) (path : Bytes) : Except FileError Tree := do
  let path ← place path
  match tree.get? path with
  | none => .error .missing
  | some .directory =>
    if (tree.children path).isEmpty then .ok (tree.erase path)
    else .error (.notEmpty (Path.absolute path))
  | some _ => .ok (tree.erase path)

end ThemeLint.Sandbox
