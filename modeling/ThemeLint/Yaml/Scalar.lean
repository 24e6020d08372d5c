import ThemeLint.Bytes.Base64
import ThemeLint.Bytes.Utf8
import ThemeLint.Yaml.Resolve

namespace ThemeLint.Yaml

open Bytes

-- Characters that end a line for a reader: line feed, carriage return, next
-- line, and the line and paragraph separators.
def isBreak (code : Nat) : Bool :=
  code == 0x0A || code == 0x0D || code == 0x85 || code == 0x2028 || code == 0x2029

def isSpace (code : Nat) : Bool := code == 0x20

def isGap (code : Nat) : Bool := code == 0x20 || code == 0x09

def isOrderMark (code : Nat) : Bool := code == 0xFEFF

def isClear (code : Nat) : Bool :=
  code == 0x0A || (0x20 ≤ code && code ≤ 0x7E) || (0xA0 ≤ code && code ≤ 0xD7FF)
    || (0xE000 ≤ code && code ≤ 0xFFFD && !isOrderMark code)

def hasPair (first second : Nat → Bool) : List Nat → Bool
  | a :: b :: rest => (first a && second b) || hasPair first second (b :: rest)
  | _ => false

def isIndicator (code : Nat) : Bool :=
  (utf8 "#,[]&*!|>%@" ++ [0x7B, 0x7D, 0x27, 0x22, 0x60]).any (·.toNat == code)

-- Whether a plain text would be cut at a comment or taken for a mapping, a list
-- item, a key, a document mark or another style of scalar.
def misleads (codes : List Nat) : Bool :=
  let startsLike (mark : String) : Bool := ((utf8 mark).map UInt8.toNat).isPrefixOf codes
  let first := match codes with
    | [] => false
    | a :: rest =>
      isIndicator a || ((a == 0x2D || a == 0x3F) && rest.head?.all isGap)
  startsLike "---" || startsLike "..." || first
    || codes.getLast? == some 0x3A
    || hasPair (· == 0x3A) isGap codes
    || hasPair (fun a => isGap a || isBreak a || a == 0) (· == 0x23) codes

structure Shape where
  lines : Bool
  special : Bool
  tabs : Bool
  -- a space stands before a break, or behind one
  spaceBreak : Bool
  breakSpace : Bool
  spaceAtEnd : Bool
  -- a space or break stands at the start or at the end, or a break between
  bounds : Bool
  misleads : Bool

def Shape.of (codes : List Nat) : Shape where
  lines := codes.contains 0x0A
  special := codes.any fun code => !isClear code && code != 0x09
  tabs := codes.contains 0x09
  spaceBreak := hasPair isSpace isBreak codes
  breakSpace := hasPair isBreak isSpace codes
  spaceAtEnd := codes.getLast?.any isSpace
  bounds := codes.head?.any isSpace || codes.getLast?.any isSpace || codes.any isBreak
  misleads := Yaml.misleads codes

inductive ScalarStyle where
  | plain
  | single
  | double
  | literal
deriving DecidableEq, Repr

-- A text of several lines is written as a block where its characters allow it.
-- On one line the plainest style that reads back as the same string is taken.
def ScalarStyle.of (text : Bytes) (shape : Shape) : ScalarStyle :=
  let quotable := !shape.special && !shape.tabs && !shape.spaceBreak && !shape.breakSpace
  if shape.lines then
    if shape.special || shape.spaceBreak || shape.spaceAtEnd then .double else .literal
  else if isOtherType text then .double
  else if !quotable then .double
  else if shape.bounds || shape.misleads then .single
  else .plain

def escapeLetter? (code : Nat) : Option UInt8 :=
  if code == 0x00 then some (byte '0')
  else if code == 0x07 then some (byte 'a')
  else if code == 0x08 then some (byte 'b')
  else if code == 0x09 then some (byte 't')
  else if code == 0x0A then some (byte 'n')
  else if code == 0x0B then some (byte 'v')
  else if code == 0x0C then some (byte 'f')
  else if code == 0x0D then some (byte 'r')
  else if code == 0x1B then some (byte 'e')
  else if code == 0x22 then some 0x22
  else if code == 0x5C then some (byte '\\')
  else if code == 0x85 then some (byte 'N')
  else if code == 0xA0 then some (byte '_')
  else if code == 0x2028 then some (byte 'L')
  else if code == 0x2029 then some (byte 'P')
  else none

def escape (code : Nat) : Bytes :=
  match escapeLetter? code with
  | some letter => [byte '\\', letter]
  | none =>
    if code ≤ 0xFF then utf8 "\\x" ++ (hex 2 code).map toUpper
    else if code ≤ 0xFFFF then utf8 "\\u" ++ (hex 4 code).map toUpper
    else utf8 "\\U" ++ (hex 8 code).map toUpper

def needsEscape (code : Nat) : Bool :=
  !isClear code || isBreak code || code == 0x22 || code == 0x5C

def escapePiece (all : Bool) : Utf8.Piece → Bytes
  | .stray b => [b]
  | .char code text => if all || needsEscape code then escape code else text

def codeOf : Utf8.Piece → Nat
  | .char code _ => code
  | .stray b => b.toNat

-- Behind a mark of the byte order at the start, every character is escaped.
def doubleQuoted (pieces : List Utf8.Piece) : Bytes :=
  let all := pieces.head?.any fun piece => isOrderMark (codeOf piece)
  [0x22] ++ pieces.flatMap (escapePiece all) ++ [0x22]

def padding (indent : Nat) : Bytes := List.replicate indent space

-- Between single quotes a quote is doubled. Behind a break the text goes on at
-- the indentation.
def singleBody (indent : Nat) : Bool → List Utf8.Piece → Bytes
  | _, [] => []
  | broken, piece :: rest =>
    if isBreak (codeOf piece) then piece.text ++ singleBody indent true rest
    else
      (if broken then padding indent else []) ++ (if codeOf piece == 0x27 then [0x27] else [])
        ++ piece.text ++ singleBody indent false rest

def singleQuoted (indent : Nat) (pieces : List Utf8.Piece) : Bytes :=
  [0x27] ++ singleBody indent false pieces ++ [0x27]

-- The header of a block: an indentation where the text starts with a space or a
-- break, and what happens to the breaks at its end.
def blockHeader (codes : List Nat) : Bytes :=
  let hint := if codes.head?.any fun a => isSpace a || isBreak a then utf8 "2" else []
  let chomp := match codes.reverse with
    | [] => utf8 "-"
    | [a] => if isBreak a then utf8 "+" else utf8 "-"
    | a :: b :: _ => if !isBreak a then utf8 "-" else if isBreak b then utf8 "+" else []
  utf8 "|" ++ hint ++ chomp

-- The lines of a block. The first line starts below the header, unless the text
-- itself starts with a break.
def blockBody (indent : Nat) : Bool → Bool → List Utf8.Piece → Bytes
  | _, _, [] => []
  | atStart, broken, piece :: rest =>
    if isBreak (codeOf piece) then piece.text ++ blockBody indent false true rest
    else
      (if atStart then [lf] else []) ++ (if broken then padding indent else [])
        ++ piece.text ++ blockBody indent false false rest

def literalBlock (indent : Nat) (pieces : List Utf8.Piece) : Bytes :=
  blockHeader (pieces.map codeOf) ++ blockBody indent true true pieces

-- A text as the value of a key. Continuation lines are indented as told. The
-- flag says whether the value has ended its line already.
def textScalar (indent : Nat) (text : Bytes) : Bytes × Bool :=
  let pieces := Utf8.pieces text
  let codes := pieces.map codeOf
  match ScalarStyle.of text (Shape.of codes) with
  | .plain => (text, false)
  | .single => (singleQuoted indent pieces, false)
  | .double => (doubleQuoted pieces, false)
  | .literal => (literalBlock indent pieces, codes.getLast?.any isBreak)

def binaryLines : Nat → Bytes → Bytes
  | 0, _ => []
  | fuel + 1, digits =>
    if digits.isEmpty then []
    else digits.take 70 ++ [lf] ++ binaryLines fuel (digits.drop 70)

-- Bytes that are not UTF-8 are written in base 64: on the line of the key while
-- they are few, else as a block.
def binaryScalar (indent : Nat) (text : Bytes) : Bytes × Bool :=
  let digits := base64 text
  let tag := utf8 "!!binary "
  if digits.length < 70 then (tag ++ digits, false)
  else (tag ++ literalBlock indent (Utf8.pieces (binaryLines digits.length digits)), true)

def scalar (indent : Nat) (text : Bytes) : Bytes × Bool :=
  if Utf8.valid text then textScalar indent text else binaryScalar indent text

end ThemeLint.Yaml
