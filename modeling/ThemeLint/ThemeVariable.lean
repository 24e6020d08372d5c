import ThemeLint.Match

namespace ThemeLint.ThemeVariable

open Bytes

def isNameByte (b : UInt8) : Bool := isPlainWord b || b == byte '-'

def nameAfter? (text : Bytes) : Option Bytes :=
  match afterStart? (utf8 "var(--") text with
  | some (b :: rest) => if isNameByte b then some (b :: rest) else none
  | _ => none

def mentions : Bytes → Bool
  | [] => false
  | b :: rest => (nameAfter? (b :: rest)).isSome || mentions rest

-- A quoted string that starts here: its body reaches to the nearest equal quote.
-- A quote without a partner opens nothing, and escapes are not known.
def quotedBody? : Bytes → Option Bytes
  | [] => none
  | q :: rest =>
    if isQuote q && rest.contains q then some (rest.takeWhile (· != q)) else none

def quotedLength (text : Bytes) : Option Nat := (quotedBody? text).map (·.length + 2)

def propertyLength? (text : Bytes) : Option (Nat × Bytes) :=
  match afterStart? (utf8 ".style.") text with
  | some (b :: rest) =>
    if isWordStart b then some (8 + (rest.takeWhile isWord).length, rest.dropWhile isWord)
    else none
  | _ => none

def equalsLength? (text : Bytes) : Option (Nat × Bytes) :=
  match text.dropWhile isBlank with
  | [] => none
  | b :: rest =>
    if b == byte '=' then
      some ((text.takeWhile isBlank).length + 1 + (rest.takeWhile isBlank).length,
        rest.dropWhile isBlank)
    else none

def assignmentLength (text : Bytes) : Option Nat := do
  let (property, rest) ← propertyLength? text
  let (equals, value) ← equalsLength? rest
  let body ← quotedBody? value
  if mentions body then some (property + equals + body.length + 2) else none

-- A reference runs to the first closing parenthesis or quote, or to the end of
-- the text. The parenthesis belongs to it, a quote does not.
def isStop (b : UInt8) : Bool := b == byte ')' || isQuote b

def referenceLength (text : Bytes) : Option Nat :=
  (nameAfter? text).map fun rest =>
    let closed := (rest.dropWhile (!isStop ·)).head? == some (byte ')')
    6 + (rest.takeWhile (!isStop ·)).length + (if closed then 1 else 0)

def assignment : Pattern := fun _ text => assignmentLength text

def quotedString : Pattern := fun _ text => quotedLength text

def reference : Pattern := fun _ text => referenceLength text

def findInStyle (text : Bytes) : List Match := assignment.findAll text

-- Every reference inside a quoted string, except in the strings that overlap
-- one of the covered ranges.
def findInString (text : Bytes) (covered : List Span) : List Match :=
  (quotedString.findAll text).flatMap fun string =>
    if covered.any string.span.overlaps then []
    else (reference.findAll string.text).map (·.shift string.start)

end ThemeLint.ThemeVariable
