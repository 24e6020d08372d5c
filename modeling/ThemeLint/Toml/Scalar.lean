import ThemeLint.Bytes.Numeral
import ThemeLint.Bytes.Utf8
import ThemeLint.Calendar

namespace ThemeLint.Toml

open Bytes Numeral

def isSpace (b : UInt8) : Bool := b == space || b == tab

def isNewline (b : UInt8) : Bool := b == lf || b == cr

def isLayout (b : UInt8) : Bool := isSpace b || isNewline b

-- The character that hexadecimal digits spell, with the number of bytes read.
-- One byte before the digits says how many there are.
def codeEscape? (width : Nat) (text : Bytes) : Option (Bytes × Nat) := do
  let digits := text.take width
  let code ← natOf? 16 digits
  if digits.length == width && Utf8.isScalar code then some (Utf8.encode code, width + 1) else none

def escape? : Bytes → Option (Bytes × Nat)
  | [] => none
  | b :: rest =>
    if b == byte 'b' then some ([0x08], 1)
    else if b == byte 't' then some ([tab], 1)
    else if b == byte 'n' then some ([lf], 1)
    else if b == byte 'f' then some ([0x0C], 1)
    else if b == byte 'r' then some ([cr], 1)
    else if b == byte 'e' then some ([0x1B], 1)
    else if b == 0x22 || b == 0x5C then some ([b], 1)
    else if b == byte 'x' then codeEscape? 2 rest
    else if b == byte 'u' then codeEscape? 4 rest
    else if b == byte 'U' then codeEscape? 8 rest
    else none

-- A text up to its closing double quote, on one line. `skip` counts the bytes
-- that still belong to the last escape, and `found` is reversed.
def quotedFrom (skip : Nat) (found : Bytes) : Bytes → Option (Bytes × Bytes)
  | [] => none
  | b :: rest =>
    match skip with
    | skip + 1 => quotedFrom skip found rest
    | 0 =>
      if b == 0x22 then some (found.reverse, rest)
      else if isNewline b then none
      else if b == 0x5C then
        match escape? rest with
        | none => none
        | some (text, width) => quotedFrom width (text.reverse ++ found) rest
      else quotedFrom 0 (b :: found) rest

def literalFrom (found : Bytes) : Bytes → Option (Bytes × Bytes)
  | [] => none
  | b :: rest =>
    if b == 0x27 then some (found.reverse, rest)
    else if isNewline b then none
    else literalFrom (b :: found) rest

-- A line break right behind the opening quotes is not part of the text.
def dropFirstNewline (text : Bytes) : Bytes :=
  match text with
  | a :: b :: rest =>
    if a == lf then b :: rest else if a == cr && b == lf then rest else text
  | [a] => if a == lf then [] else text
  | [] => []

-- Where a quote stands in a text of several lines: it may belong to the text, be
-- the first of the three that close it, or be one too many.
inductive QuoteRole where
  | content
  | closing
  | excess
deriving DecidableEq, Repr

-- Up to two quotes may stand before the three that close. `before` is the source
-- of the text so far, reversed. An escaped quote before them does not count.
def quoteRole (mark : UInt8) (before rest : Bytes) : QuoteRole :=
  if !startsWith [mark, mark] rest then .content
  else if !startsWith [mark, mark, mark] rest then .closing
  else if startsWith [mark, mark] before
      && !(mark == 0x22 && startsWith [mark, mark, 0x5C] before) then .excess
  else .content

def lineBreakWidth? (text : Bytes) : Option Nat :=
  let layout := text.takeWhile isLayout
  if layout.any (· == lf) then some layout.length else none

def longQuotedFrom (skip : Nat) (before found : Bytes) : Bytes → Option (Bytes × Bytes)
  | [] => none
  | b :: rest =>
    match skip with
    | skip + 1 => longQuotedFrom skip (b :: before) found rest
    | 0 =>
      if b == 0x22 then
        match quoteRole b before rest with
        | .content => longQuotedFrom 0 (b :: before) (b :: found) rest
        | .closing => some (found.reverse, rest.drop 2)
        | .excess => none
      else if b == 0x5C then
        match lineBreakWidth? rest with
        | some width => longQuotedFrom width (b :: before) found rest
        | none =>
          match escape? rest with
          | none => none
          | some (text, width) => longQuotedFrom width (b :: before) (text.reverse ++ found) rest
      else longQuotedFrom 0 (b :: before) (b :: found) rest

def longLiteralFrom (found : Bytes) : Bytes → Option (Bytes × Bytes)
  | [] => none
  | b :: rest =>
    if b == 0x27 then
      match quoteRole b found rest with
      | .content => longLiteralFrom (b :: found) rest
      | .closing => some (found.reverse, rest.drop 2)
      | .excess => none
    else longLiteralFrom (b :: found) rest

def shortText? : Bytes → Option (Bytes × Bytes)
  | [] => none
  | b :: rest =>
    if b == 0x22 then quotedFrom 0 [] rest
    else if b == 0x27 then literalFrom [] rest
    else none

def text? (input : Bytes) : Option (Bytes × Bytes) :=
  if startsWith [0x22, 0x22, 0x22] input then
    longQuotedFrom 0 [] [] (dropFirstNewline (input.drop 3))
  else if startsWith [0x27, 0x27, 0x27] input then
    longLiteralFrom [] (dropFirstNewline (input.drop 3))
  else shortText? input

-- Underscores stand between digits only. Letters count as digits here, since
-- what is a digit depends on the base.
def underscoresOk (part : Bytes) : Bool :=
  let (spaced, last) := part.foldl (fun (spaced, digit) b =>
    (spaced && (b != byte '_' || digit), isHexDigit b)) (true, false)
  spaced && last

def hasLeadingZero (part : Bytes) : Bool :=
  let (_, digits) := splitSign part
  digits.length > 1 && digits.head? == some (byte '0')

def withoutUnderscores (text : Bytes) : Bytes := text.filter (· != byte '_')

def fitsInteger (sign : Option UInt8) (value : Nat) : Bool :=
  if sign == some (byte '-') then value ≤ Nat.pow 2 63 else value < Nat.pow 2 63

def isInteger (text : Bytes) : Bool :=
  let (sign, digits) := splitSign text
  underscoresOk text && !hasLeadingZero text
    && (natOf? 10 (withoutUnderscores digits)).any (fitsInteger sign)

def isPointOrExponent (b : UInt8) : Bool := b == byte '.' || toLower b == byte 'e'

def runs (isSeparator : UInt8 → Bool) (text : Bytes) : List Bytes :=
  (text.splitBy fun a b => !isSeparator a && !isSeparator b).filter fun run => !run.any isSeparator

def pointsOk : Bytes → Bool
  | [] => true
  | b :: rest => (b != byte '.' || rest.head?.any isDigit) && pointsOk rest

def isFloat (text : Bytes) : Bool :=
  let parts := runs isPointOrExponent text
  parts.all underscoresOk && !(parts.head?.any hasLeadingZero) && pointsOk text
    && (decimal? (withoutUnderscores (splitSign text).2)).any fun d => !overflows d

-- A date with a time, a date or a time. Seconds may be left out, and a zone
-- belongs to a date with a time only.
def isMoment (text : Bytes) : Bool :=
  let ends (rest : Option Bytes) : Bool :=
    Calendar.isEnd rest || Calendar.isEnd (rest.bind Calendar.zone?)
  let time := (Calendar.date? .exactly text).bind (Calendar.after? 'T')
  ends (time.bind (Calendar.clock? .exactly))
    || ends (time.bind (Calendar.hourMinute? .exactly))
    || Calendar.isEnd (Calendar.date? .exactly text)
    || Calendar.isEnd (Calendar.clock? .exactly text)
    || Calendar.isEnd (Calendar.hourMinute? .exactly text)

def isMomentByte (b : UInt8) : Bool :=
  isDigit b || b == byte '-' || b == byte ':' || b == byte '.' || b == byte '+' || b == space
    || toLower b == byte 't' || toLower b == byte 'z'

-- The marks of a date in their main spelling: a space stands for the T.
def momentByte (b : UInt8) : UInt8 :=
  if b == byte 't' || b == space then byte 'T' else if b == byte 'z' then byte 'Z' else b

def trimEnd (text : Bytes) : Bytes := (text.reverse.dropWhile (· == space)).reverse

def moment? (input : Bytes) : Option Bytes :=
  let text := trimEnd (input.takeWhile isMomentByte)
  if isMoment (text.map momentByte) then some (input.dropWhile isMomentByte) else none

def based? (base : Nat) (input : Bytes) : Option Bytes :=
  let isMember (b : UInt8) : Bool := b == byte '_' || (digit? b).any (· < base)
  let digits := input.takeWhile isMember
  if underscoresOk digits && (natOf? base (withoutUnderscores digits)).any (fitsInteger none) then
    some (input.dropWhile isMember)
  else none

def decimalNumber? (input : Bytes) : Option Bytes :=
  let (_, digits) := splitSign input
  let isMember (b : UInt8) : Bool := isDigit b || b == byte '_'
  let rest := digits.dropWhile isMember
  if !(digits.head?.any isDigit) then none
  else if rest.head?.any isPointOrExponent then
    let isMember (b : UInt8) : Bool :=
      isMember b || isPointOrExponent b || b == byte '+' || b == byte '-'
    let rest := rest.dropWhile isMember
    if isFloat (input.take (input.length - rest.length)) then some rest else none
  else if isInteger (input.take (input.length - rest.length)) then some rest
  else none

-- What follows a number that starts with a digit, a date or a time. A number in
-- another base has a mark behind a zero, and a date or time a mark behind its
-- first digits.
def unsigned? (input : Bytes) : Option Bytes :=
  let mark := (input.dropWhile isDigit).head?
  if mark == some (byte '-') || mark == some (byte ':') then moment? input
  else if startsWith (utf8 "0x") input then based? 16 (input.drop 2)
  else if startsWith (utf8 "0o") input then based? 8 (input.drop 2)
  else if startsWith (utf8 "0b") input then based? 2 (input.drop 2)
  else decimalNumber? input

def specialNumber? (input : Bytes) : Option Bytes :=
  let (_, word) := splitSign input
  (afterStart? (utf8 "inf") word).or (afterStart? (utf8 "nan") word)

def truthValue? (input : Bytes) : Option Bytes :=
  (afterStart? (utf8 "true") input).or (afterStart? (utf8 "false") input)

def plain? (input : Bytes) : Option Bytes :=
  if input.head?.any isDigit then unsigned? input
  else (truthValue? input).or ((specialNumber? input).or (decimalNumber? input))

end ThemeLint.Toml
