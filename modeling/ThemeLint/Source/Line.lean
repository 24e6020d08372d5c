import ThemeLint.Bytes

namespace ThemeLint.Source

open Bytes

structure Line where
  text : Bytes
  number : Int
  path : Bytes
  relPath : Bytes
deriving DecidableEq, Repr

-- The longest line, its line feed not counted.
def maxLineLength : Nat := 4194303

-- A file falls into segments at its line feeds. The last segment is dropped if
-- it is empty, since the line feed before it ends a line and starts none.
-- Splitting stops at the first segment that is too long.
structure Segments where
  lines : List Bytes
  complete : Bool
deriving DecidableEq, Repr

-- `current` is the segment read so far, from its end, and `length` its length.
def segmentsFrom (current : Bytes) (length : Nat) : Bytes → List Bytes → Segments
  | [], done =>
    if length = 0 then ⟨done.reverse, true⟩
    else if length > maxLineLength then ⟨done.reverse, false⟩
    else ⟨(current.reverse :: done).reverse, true⟩
  | b :: rest, done =>
    if b == lf then
      if length > maxLineLength then ⟨done.reverse, false⟩
      else segmentsFrom [] 0 rest (current.reverse :: done)
    else segmentsFrom (b :: current) (length + 1) rest done

def segments (content : Bytes) : Segments := segmentsFrom [] 0 content []

def dropReturn (text : Bytes) : Bytes :=
  match text.reverse with
  | b :: rest => if b == cr then rest.reverse else text
  | [] => text

-- What is checked of a segment: up to two carriage returns at its end are
-- taken for its line end.
def lineText (segment : Bytes) : Bytes := dropReturn (dropReturn segment)

def isAsciiSpace (b : UInt8) : Bool := (0x09 ≤ b && b ≤ 0x0D) || b == 0x20

-- White space of two and of three bytes: U+0085, U+00A0; U+1680, U+2000 to
-- U+200A, U+2028, U+2029, U+202F, U+205F and U+3000.
def isWideSpace2 (a b : UInt8) : Bool := a == 0xC2 && (b == 0x85 || b == 0xA0)

def isWideSpace3 (a b c : UInt8) : Bool :=
  (a == 0xE1 && b == 0x9A && c == 0x80)
    || (a == 0xE2 && b == 0x80 &&
      ((0x80 ≤ c && c ≤ 0x8A) || c == 0xA8 || c == 0xA9 || c == 0xAF))
    || (a == 0xE2 && b == 0x81 && c == 0x9F)
    || (a == 0xE3 && b == 0x80 && c == 0x80)

def trimStart : Bytes → Bytes
  | [] => []
  | a :: rest =>
    if isAsciiSpace a then trimStart rest
    else match rest with
      | [] => [a]
      | b :: rest =>
        if isWideSpace2 a b then trimStart rest
        else match rest with
          | [] => [a, b]
          | c :: rest => if isWideSpace3 a b c then trimStart rest else a :: b :: c :: rest

def isAllSpace (text : Bytes) : Bool := (trimStart text).isEmpty

-- Whether a line is a comment from its first byte on, white space aside. A star
-- continues a block comment when it stands alone or a space, a tab or a slash
-- follows it.
def isComment (text : Bytes) : Bool :=
  let trimmed := trimStart text
  if startsWith (utf8 "//") trimmed || startsWith (utf8 "/*") trimmed
      || startsWith (utf8 "<!--") trimmed then true
  else match trimmed with
    | [] => false
    | b :: rest =>
      b == byte '*' &&
        (isAllSpace rest || rest.head?.any fun c => c == space || c == tab || c == byte '/')

end ThemeLint.Source
