import ThemeLint.Bytes.Utf8
import ThemeLint.Display.Cluster
import ThemeLint.Display.Sequence
import ThemeLint.Display.WidthTable

namespace ThemeLint.Display

open Bytes

def columns (c : Class) (code : Nat) : Nat :=
  match c with
  | .control | .carriageReturn | .lineFeed | .extend | .joiner => 0
  | .regional => 2
  | .pictograph => if isWithin emojiRanges code then 2 else 1
  | _ =>
    -- the long dashes of two and three ems
    if code == 0x2E3A then 3
    else if code == 0x2E3B then 4
    else if isWithin wideRanges code then 2
    else 1

structure Cluster where
  first : Class
  ending : Ending
  width : Nat
deriving DecidableEq, Repr

namespace Cluster

def start (code : Nat) : Cluster :=
  ⟨Class.of code, .of (Class.of code), columns (Class.of code) code⟩

-- The selectors that ask for a pictograph as text and as a picture.
def textSelector : Nat := 0xFE0E
def pictureSelector : Nat := 0xFE0F

-- The columns of a cluster with one more code point. A pictograph is only changed
-- by a selector; flags and Korean syllables are as wide as what they start with.
def widthWith (cluster : Cluster) (c : Class) (code : Nat) : Nat :=
  match cluster.first with
  | .pictograph =>
    if code == textSelector then 1
    else if code == pictureSelector then 2
    else cluster.width
  | .regional | .leading => cluster.width
  | _ => cluster.width + columns c code

def take? (cluster : Cluster) (code : Nat) : Option Cluster :=
  let c := Class.of code
  if cluster.ending.takes c then
    some ⟨cluster.first, cluster.ending.after c, cluster.widthWith c code⟩
  else none

end Cluster

-- Where a line is being read: between characters, perhaps inside of a control
-- sequence, or within a cluster.
inductive Cursor where
  | between (sequence : Sequence)
  | within (cluster : Cluster)
deriving DecidableEq, Repr

namespace Cursor

def codeOf : Utf8.Piece → Nat
  | .char code _ => code
  | .stray _ => 0xFFFD

-- Reads a piece between characters, byte by byte, and counts the columns. A cluster
-- only starts with the first byte of a piece, so it takes the whole of it.
def readBetween (sequence : Sequence) (piece : Utf8.Piece) : Nat × Cursor :=
  piece.text.foldl (fun (shown, cursor) b =>
    match cursor with
    | within cluster => (shown, within cluster)
    | between sequence =>
      match sequence.next b with
      | none => (shown, within (.start (codeOf piece)))
      | some following => (if sequence.shows b then shown + 1 else shown, between following))
    (0, between sequence)

-- Reads one piece. A cluster is counted once it has ended, and behind it the line
-- is read as plain text.
def read (cursor : Cursor) (piece : Utf8.Piece) : Nat × Cursor :=
  match cursor with
  | between sequence => readBetween sequence piece
  | within cluster =>
    match cluster.take? (codeOf piece) with
    | some cluster => (0, within cluster)
    | none =>
      let (shown, cursor) := readBetween .ground piece
      (cluster.width + shown, cursor)

def rest : Cursor → Nat
  | between _ => 0
  | within cluster => cluster.width

end Cursor

def width (line : Bytes) : Nat :=
  let (shown, cursor) := (Utf8.pieces line).foldl (fun (shown, cursor) piece =>
    let (more, cursor) := cursor.read piece
    (shown + more, cursor)) (0, Cursor.between .ground)
  shown + cursor.rest

end ThemeLint.Display
