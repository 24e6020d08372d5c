import ThemeLint.Bytes

namespace ThemeLint.Path

open Bytes

def slash : UInt8 := byte '/'

def here : Bytes := utf8 "."

def up : Bytes := utf8 ".."

def isRooted (path : Bytes) : Bool := path.head? == some slash

-- One more component on the way down a path, the last one first. A dot and an
-- empty component stay, and two dots undo a component; above the top of a path
-- without a root they are kept.
def push (rooted : Bool) (stack : List Bytes) (component : Bytes) : List Bytes :=
  if component = [] ∨ component = here then stack
  else if component = up then
    match stack with
    | [] => if rooted then [] else [up]
    | top :: rest => if top = up then up :: top :: rest else rest
  else component :: stack

def components (path : Bytes) : List Bytes :=
  ((partsBy slash path).foldl (push (isRooted path)) []).reverse

def absolute (parts : List Bytes) : Bytes := slash :: joinWith [slash] parts

-- The shortest path that names the same place by its text alone.
def clean (path : Bytes) : Bytes :=
  let parts := components path
  if isRooted path then absolute parts
  else if parts.isEmpty then here
  else joinWith [slash] parts

-- A path below another. An empty path adds nothing.
def join (first second : Bytes) : Bytes :=
  if first.isEmpty then if second.isEmpty then [] else clean second
  else clean (first ++ slash :: second)

-- What stands before the last slash of a path, and what stands behind it. Right
-- below the root the slash itself is what stands before.
def parent (path : Bytes) : Bytes :=
  match (partsBy slash path).dropLast with
  | [] => here
  | [[]] => [slash]
  | parts => joinWith [slash] parts

def name (path : Bytes) : Bytes := (partsBy slash path).getLast?.getD []

-- The components of a path read from a root, which two dots never leave.
def fromRoot (path : Bytes) : List Bytes := components (slash :: path)

def leavesRoot (path : Bytes) : Bool := startsWith (utf8 "../") (clean path)

end ThemeLint.Path
