import ThemeLint.Files.NamePattern
import ThemeLint.Files.Tree

namespace ThemeLint.Glob

open Bytes

structure BadPattern where
deriving DecidableEq, Repr

def BadPattern.message (_ : BadPattern) : Bytes := utf8 "syntax error in pattern"

def hasMeta (path : Bytes) : Bool :=
  path.any fun b => b == byte '*' || b == byte '?' || b == byte '['

def literal (volume : Volume) (path : Bytes) : List Bytes :=
  if volume.isPresent path then [path] else []

-- The entries of one directory that fit a pattern, sorted by name. A pattern is
-- refused once a name has come to a part of it that cannot be read.
def inDirectory (volume : Volume) (directory pattern : Bytes) : Except BadPattern (List Bytes) :=
  match volume.isDirectory directory with
  | .ok true =>
    let names := (volume.names directory).mergeSort fun a b => decide (a ≤ b)
    match names.filterM (NamePattern.parse pattern).fits? with
    | none => .error {}
    | some fitting => .ok (fitting.map (Path.join directory))
  | _ => .ok []

-- The parts of a path are given from the last to the first. The last part is
-- held against the names in every directory that the others lead to.
def expandParts (volume : Volume) : List Bytes → Except BadPattern (List Bytes)
  | [] => .ok []
  | last :: parents =>
    let whole := joinWith [Path.slash] (last :: parents).reverse
    if !hasMeta whole then .ok (literal volume whole)
    else if parents.isEmpty then
      (literal volume Path.here).mapM (inDirectory volume · last) |>.map List.flatten
    else if last.isEmpty then .error {}
    else do
      let directories ←
        if parents == [[]] then .ok (literal volume [Path.slash]) else expandParts volume parents
      let found ← directories.mapM (inDirectory volume · last)
      .ok found.flatten

def expand (volume : Volume) (pattern : Bytes) : Except BadPattern (List Bytes) :=
  expandParts volume (partsBy Path.slash pattern).reverse

end ThemeLint.Glob
