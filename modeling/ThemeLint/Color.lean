import ThemeLint.Match

namespace ThemeLint.Color

open Bytes

-- A hex color has 3, 6 or 8 digits. It is not glued to an identifier on either
-- side, not followed by a hyphen, and not the number of a character entity
-- such as &#123;.
def isHexLiteral (before : Option UInt8) (digits : Int) (after : Option UInt8) : Bool :=
  (digits == 3 || digits == 6 || digits == 8)
    && before.all (fun b => b != byte '&' && !isWord b)
    && after.all (fun b => b != byte '-' && !isWord b)

def byteAt (text : Bytes) (offset : Int) : Option UInt8 :=
  if offset < 0 then none else text[offset.toNat]?

def isHexColor (text : Bytes) (range : Span) : Bool :=
  isHexLiteral (byteAt text (range.start - 1)) (range.stop - range.start - 1)
    (byteAt text range.stop)

def hexLength (before : Option UInt8) : Bytes → Option Nat
  | [] => none
  | b :: rest =>
    if b != byte '#' then none
    else
      let digits := rest.takeWhile isHexDigit
      let after := (rest.dropWhile isHexDigit).head?
      if isHexLiteral before digits.length after then some (digits.length + 1) else none

-- The opening of a color function, up to and with its parenthesis. The name
-- must not continue a plain word.
def functionLength (before : Option UInt8) (text : Bytes) : Option Nat :=
  if before.any isPlainWord then none
  else if startsWith (utf8 "rgb(") text || startsWith (utf8 "hsl(") text then some 4
  else if startsWith (utf8 "rgba(") text || startsWith (utf8 "hsla(") text then some 5
  else none

-- Hex colors and color functions start with different bytes, so at most one
-- of the two is found at a position.
def literal : Pattern := fun before text =>
  (hexLength before text).or (functionLength before text)

def findAll (text : Bytes) : List Match := literal.findAll text

end ThemeLint.Color
