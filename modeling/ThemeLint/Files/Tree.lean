import ThemeLint.Files.Error
import ThemeLint.Path

namespace ThemeLint

open Bytes

inductive Node where
  | file (content : Bytes)
  | directory
  | link (target : Bytes)
deriving DecidableEq, Repr

-- A file tree as a value: nodes by the components of their path. The root has an
-- entry like any other directory.
structure Tree where
  entries : List (List Bytes × Node)
  -- nodes below something that is no directory, which are in nobody's listing
  unlisted : List (List Bytes)
deriving DecidableEq, Repr

namespace Tree

def empty : Tree := ⟨[([], .directory)], []⟩

def get? (tree : Tree) (path : List Bytes) : Option Node := tree.entries.lookup path

def children (tree : Tree) (path : List Bytes) : List Bytes :=
  tree.entries.filterMap fun (place, _) =>
    match place.reverse with
    | [] => none
    | name :: above =>
      if above.reverse = path ∧ !tree.unlisted.contains place then some name else none

def put (tree : Tree) (path : List Bytes) (node : Node) : Tree :=
  if (tree.get? path).isSome then
    { tree with entries := tree.entries.map fun entry =>
        if entry.1 = path then (path, node) else entry }
  else { tree with entries := tree.entries ++ [(path, node)] }

def erase (tree : Tree) (path : List Bytes) : Tree :=
  ⟨tree.entries.filter (·.1 ≠ path), tree.unlisted.filter (· ≠ path)⟩

def unlist (tree : Tree) (path : List Bytes) : Tree :=
  { tree with unlisted := path :: tree.unlisted }

-- The paths above a path, the nearest first and the root last.
def above (path : List Bytes) : List (List Bytes) :=
  (List.range path.length).reverse.map path.take

-- The paths from a path upwards at which nothing stands, up to the first at which
-- something does.
def missing (tree : Tree) (path : List Bytes) : List (List Bytes) :=
  (path :: above path).takeWhile fun place => (tree.get? place).isNone

def ground? (tree : Tree) (path : List Bytes) : Option Node := (above path).findSome? tree.get?

-- A new node, with the directories above it that are missing. Where they start from
-- a file or a link, the topmost of the new nodes is listed nowhere.
def add (tree : Tree) (path : List Bytes) (node : Node) : Tree :=
  let new := tree.missing path
  let grown := (new.drop 1).foldr (fun place tree => tree.put place .directory) tree
  let grown := grown.put path node
  match tree.ground? path, new.getLast? with
  | some (.file _), some top | some (.link _), some top => grown.unlist top
  | _, _ => grown

end Tree

-- What the linter asks of a file store. Paths are relative to the root of the
-- store.
structure Volume where
  -- whether anything stands at a path, a link that leads nowhere included
  isPresent : Bytes → Bool
  isDirectory : Bytes → Except FileError Bool
  names : Bytes → List Bytes
  read : Bytes → Except FileError Bytes

end ThemeLint
