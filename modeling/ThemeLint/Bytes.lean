namespace ThemeLint

-- Source text, paths, messages and reports are byte strings. Every offset,
-- column and length the linter speaks of counts bytes.
abbrev Bytes := List UInt8

def utf8 (s : String) : Bytes := s.toByteArray.data.toList

def byte (c : Char) : UInt8 := c.toNat.toUInt8

namespace Bytes

def lf : UInt8 := 0x0A
def cr : UInt8 := 0x0D
def tab : UInt8 := 0x09
def space : UInt8 := 0x20

-- The three marks that open and close a quoted string: ', " and the backtick.
def isQuote (b : UInt8) : Bool := b == 0x27 || b == 0x22 || b == 0x60

def isDigit (b : UInt8) : Bool := byte '0' ≤ b && b ≤ byte '9'

def isUpper (b : UInt8) : Bool := byte 'A' ≤ b && b ≤ byte 'Z'

def isLower (b : UInt8) : Bool := byte 'a' ≤ b && b ≤ byte 'z'

def isLetter (b : UInt8) : Bool := isUpper b || isLower b

def isHexDigit (b : UInt8) : Bool :=
  isDigit b || (byte 'a' ≤ b && b ≤ byte 'f') || (byte 'A' ≤ b && b ≤ byte 'F')

def isPlainWord (b : UInt8) : Bool := isLetter b || isDigit b || b == byte '_'

def isWord (b : UInt8) : Bool := isPlainWord b || b == byte '$'

def isWordStart (b : UInt8) : Bool := isLetter b || b == byte '_' || b == byte '$'

-- Blanks between the parts of an expression. The vertical tab is not one.
def isBlank (b : UInt8) : Bool :=
  b == tab || b == lf || b == 0x0C || b == cr || b == space

def isIdentifier : Bytes → Bool
  | [] => false
  | b :: rest => isWordStart b && rest.all isWord

def afterStart? : Bytes → Bytes → Option Bytes
  | [], text => some text
  | _ :: _, [] => none
  | e :: expected, b :: text => if e == b then afterStart? expected text else none

def startsWith (expected text : Bytes) : Bool := (afterStart? expected text).isSome

def endsWith (expected text : Bytes) : Bool := startsWith expected.reverse text.reverse

-- The parts between the separators; a text without one is its only part.
def partsBy (separator : UInt8) (text : Bytes) : List Bytes :=
  text.foldr (fun b parts =>
    if b == separator then [] :: parts
    else match parts with
      | [] => [[b]]
      | part :: others => (b :: part) :: others) [[]]

def joinWith (separator : Bytes) : List Bytes → Bytes
  | [] => []
  | part :: others => part ++ others.flatMap (separator ++ ·)

def ofNat (n : Nat) : Bytes :=
  if n < 10 then [byte '0' + n.toUInt8]
  else ofNat (n / 10) ++ [byte '0' + (n % 10).toUInt8]

def ofInt : Int → Bytes
  | .ofNat n => ofNat n
  | .negSucc n => byte '-' :: ofNat (n + 1)

def hexDigit (n : Nat) : UInt8 :=
  if n < 10 then byte '0' + n.toUInt8 else byte 'a' + (n - 10).toUInt8

def hex : Nat → Nat → Bytes
  | 0, _ => []
  | width + 1, n => hex width (n / 16) ++ [hexDigit (n % 16)]

def toUpper (b : UInt8) : UInt8 := if isLower b then b - 0x20 else b

def toLower (b : UInt8) : UInt8 := if isUpper b then b + 0x20 else b

end Bytes

end ThemeLint
