import ThemeLint.Bytes.Numeral
import ThemeLint.Calendar

namespace ThemeLint.Yaml

open Bytes Numeral Calendar

def constants : List Bytes :=
  ["", "~", "null", "Null", "NULL", "true", "True", "TRUE", "false", "False", "FALSE",
    ".nan", ".NaN", ".NAN", ".inf", ".Inf", ".INF", "+.inf", "+.Inf", "+.INF",
    "-.inf", "-.Inf", "-.INF"].map utf8

-- Plain words that older readers take for truth values.
def oldBooleans : List Bytes :=
  ["y", "Y", "yes", "Yes", "YES", "on", "On", "ON",
    "n", "N", "no", "No", "NO", "off", "Off", "OFF"].map utf8

-- A number of 64 bits, with the base told by its start. Behind 0b and 0o a
-- second sign is read as well.
def isInteger (text : Bytes) : Bool :=
  let (sign, unsigned) := splitSign text
  let (base, digits) := detectBase unsigned
  let direct := (natOf? base digits).any (fits64 sign)
  let inner (mark : Bytes) (base : Nat) : Bool :=
    match afterStart? mark text with
    | none => false
    | some rest =>
      let (sign, digits) := splitSign rest
      (natOf? base digits).any (fits64 sign)
  direct || inner (utf8 "0b") 2 || inner (utf8 "0o") 8

def isFloat (text : Bytes) : Bool :=
  let (_, unsigned) := splitSign text
  -- a point without digits before it needs digits behind it
  (decimal? unsigned).any (!overflows ·)

def underscoresOk : Option UInt8 → Bytes → Bool
  | _, [] => true
  | before, b :: rest =>
    if b == byte '_' then
      before.any isDigit && rest.head?.any isDigit && underscoresOk (some b) rest
    else underscoresOk (some b) rest

-- A fraction that starts with its point. Underscores may divide its digits.
def isPointFloat (text : Bytes) : Bool :=
  underscoresOk none text && isFloat (text.filter (· != byte '_'))

-- A date, or a date and a time: behind a T with a zone, or behind spaces
-- without one. Fields may have one digit.
def isTimestamp (text : Bytes) : Bool :=
  match date? .atMost text with
  | none => false
  | some [] => true
  | some (b :: rest) =>
    if b == byte 'T' || b == byte 't' then isEnd ((clock? .atMost rest).bind zone?)
    else if b == space then isEnd (clock? .atMost (rest.dropWhile (· == space)))
    else false

def isSixtieth : Bytes → Bool
  | [a] => isDigit a
  | [a, b] => isDigit a && a < byte '6' && isDigit b
  | _ => false

def isDigitOrUnderscore (b : UInt8) : Bool := isDigit b || b == byte '_'

-- A number in base sixty, such as 1:30. The last group may have a fraction.
def isSexagesimal (text : Bytes) : Bool :=
  match partsBy (byte ':') (splitSign text).2 with
  | [] => false
  | first :: groups =>
    first.head?.any isDigit && first.all isDigitOrUnderscore &&
      match groups.reverse with
      | [] => false
      | last :: inner =>
        inner.all isSixtieth && isSixtieth (last.takeWhile (· != byte '.')) &&
          ((last.dropWhile (· != byte '.')).drop 1).all isDigitOrUnderscore

-- Whether a reader would take the text, written plainly, for something that is
-- not a string. The first byte tells what to look for.
def isOtherType (text : Bytes) : Bool :=
  constants.contains text || oldBooleans.contains text ||
    match text with
    | [] => true
    | b :: _ =>
      if b == byte '.' then isPointFloat text
      else if isDigit b || b == byte '+' || b == byte '-' then
        let joined := text.filter (· != byte '_')
        isTimestamp text || isInteger joined || isFloat joined || isSexagesimal text
      else false

end ThemeLint.Yaml
