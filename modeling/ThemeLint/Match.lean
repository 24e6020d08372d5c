import ThemeLint.Bytes

namespace ThemeLint

-- A half-open range of offsets. Offsets are integers, so that a caller may
-- name a range that reaches beyond either end of a line.
structure Span where
  start : Int
  stop : Int
deriving DecidableEq, Repr

namespace Span

def overlaps (a b : Span) : Bool := decide (a.start < b.stop) && decide (b.start < a.stop)

end Span

structure Match where
  text : Bytes
  start : Nat
deriving DecidableEq, Repr

namespace Match

def stop (m : Match) : Nat := m.start + m.text.length

def span (m : Match) : Span := ⟨m.start, m.stop⟩

def shift (offset : Nat) (m : Match) : Match := { m with start := offset + m.start }

end Match

-- A pattern decides at one position: it sees the byte before the position, if
-- there is one, and the text from the position on, and gives the length of
-- what it finds there.
abbrev Pattern := Option UInt8 → Bytes → Option Nat

namespace Pattern

-- Walks the text once. While `skip` is positive the walk is inside the last
-- match, so that matches never overlap; an empty find is no match.
def scan (pattern : Pattern) (before : Option UInt8) (position skip : Nat) :
    Bytes → List Match → List Match
  | [], found => found.reverse
  | b :: rest, found =>
    match skip with
    | skip + 1 => scan pattern (some b) (position + 1) skip rest found
    | 0 =>
      match pattern before (b :: rest) with
      | some (more + 1) =>
        scan pattern (some b) (position + 1) more rest
          (⟨(b :: rest).take (more + 1), position⟩ :: found)
      | _ => scan pattern (some b) (position + 1) 0 rest found

def findAll (pattern : Pattern) (text : Bytes) : List Match := pattern.scan none 0 0 text []

end Pattern

end ThemeLint
