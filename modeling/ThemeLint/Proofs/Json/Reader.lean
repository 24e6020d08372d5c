import ThemeLint.Bytes.Numeral
import ThemeLint.Bytes.Utf8

namespace ThemeLint

open Bytes

-- What a JSON text says. A number stands for `significand * 10 ^ exponent`, and the fields
-- of an object keep their order.
inductive Json where
  | null
  | truth (value : Bool)
  | number (significand exponent : Int)
  | string (text : Bytes)
  | array (items : List Json)
  | object (fields : List (Bytes × Json))

namespace Json

-- The value of a field. Readers differ on names that stand twice, so that only a name that
-- stands once has a value.
def get? (name : String) : Json → Option Json
  | object fields =>
    match fields.filter (·.1 == utf8 name) with
    | [(_, value)] => some value
    | _ => none
  | _ => none

def at? (value : Json) (names : List String) : Option Json :=
  names.foldlM (fun value name => value.get? name) value

def text? : Json → Option Bytes
  | string text => some text
  | _ => none

-- A number that is written without fraction and exponent.
def integer? : Json → Option Int
  | number value 0 => some value
  | _ => none

def items? : Json → Option (List Json)
  | array items => some items
  | _ => none

-- The item of an array that has one.
def only? : Json → Option Json
  | array [item] => some item
  | _ => none

def textAt? (value : Json) (names : List String) : Option Bytes := (value.at? names).bind text?

def integerAt? (value : Json) (names : List String) : Option Int := (value.at? names).bind integer?

-- What the items of an array stand for. Every item has to stand for something.
def eachAt? {α : Type} (value : Json) (names : List String) (item? : Json → Option α) :
    Option (List α) := do
  (← (← value.at? names).items?).mapM item?

def isSpace (b : UInt8) : Bool := b == space || b == tab || b == lf || b == cr

def trim (text : Bytes) : Bytes := text.dropWhile isSpace

-- A string is made of bytes that stand for themselves and of units of UTF-16 that are given
-- by their numbers.
inductive Part where
  | plain (b : UInt8)
  | unit (code : Nat)
deriving DecidableEq, Repr

def letters : List (UInt8 × UInt8) :=
  [(0x22, 0x22), (0x5C, 0x5C), (byte '/', byte '/'), (byte 'b', 0x08), (byte 'f', 0x0C),
    (byte 'n', lf), (byte 'r', cr), (byte 't', tab)]

def prepend (part : Part) : List Part × Bytes → List Part × Bytes
  | (parts, rest) => (part :: parts, rest)

def parts? : Bytes → Option (List Part × Bytes)
  | [] => none
  | b :: rest =>
    if b == 0x22 then some ([], rest)
    else if b < 0x20 then none
    else if b == 0x5C then
      match rest with
      | [] => none
      | letter :: rest =>
        if letter == byte 'u' then
          match rest with
          | h₁ :: h₂ :: h₃ :: h₄ :: rest =>
            match Numeral.natOf? 16 [h₁, h₂, h₃, h₄] with
            | some code => (parts? rest).map (prepend (.unit code))
            | none => none
          | _ => none
        else
          match letters.lookup letter with
          | some meant => (parts? rest).map (prepend (.plain meant))
          | none => none
    else (parts? rest).map (prepend (.plain b))

-- A part that stands alone. Half of a pair of units is no character.
def spellPart : Part → Bytes
  | .plain b => [b]
  | .unit code => Utf8.encode (if Utf8.isScalar code then code else 0xFFFD)

-- The code point that a pair of units stands for.
def pair? : Part → Part → Option Nat
  | .unit high, .unit low =>
    if 0xD800 ≤ high && high < 0xDC00 && 0xDC00 ≤ low && low < 0xE000 then
      some (0x10000 + (high - 0xD800) * 0x400 + (low - 0xDC00))
    else none
  | _, _ => none

def spell : List Part → Bytes
  | [] => []
  | [part] => spellPart part
  | part :: next :: rest =>
    match pair? part next with
    | some code => Utf8.encode code ++ spell rest
    | none => spellPart part ++ spell (next :: rest)

def string? (text : Bytes) : Option (Bytes × Bytes) :=
  (parts? text).map fun (parts, rest) => (spell parts, rest)

def digits? (text : Bytes) : Option (Bytes × Bytes) :=
  if (text.takeWhile isDigit).isEmpty then none
  else some (text.takeWhile isDigit, text.dropWhile isDigit)

-- The digits before a point. Only a zero by itself starts with a zero.
def whole? (text : Bytes) : Option (Bytes × Bytes) := do
  let (digits, rest) ← digits? text
  if digits.head? == some (byte '0') && digits.length > 1 then none else some (digits, rest)

def fraction? : Bytes → Option (Bytes × Bytes)
  | [] => some ([], [])
  | b :: rest => if b == byte '.' then digits? rest else some ([], b :: rest)

def exponent? : Bytes → Option (Int × Bytes)
  | [] => some (0, [])
  | b :: rest =>
    if b == byte 'e' || b == byte 'E' then do
      let (sign, rest) := Numeral.splitSign rest
      let (digits, rest) ← digits? rest
      let value ← Numeral.natOf? 10 digits
      some (if sign == some (byte '-') then -value else value, rest)
    else some (0, b :: rest)

def unsigned? (text : Bytes) : Option ((Nat × Int) × Bytes) := do
  let (whole, rest) ← whole? text
  let (fraction, rest) ← fraction? rest
  let (exponent, rest) ← exponent? rest
  let value ← Numeral.natOf? 10 (whole ++ fraction)
  some ((value, exponent - fraction.length), rest)

def number? : Bytes → Option (Json × Bytes)
  | [] => none
  | b :: rest =>
    if b == byte '-' then
      (unsigned? rest).map fun ((value, exponent), rest) => (number (-value) exponent, rest)
    else (unsigned? (b :: rest)).map fun ((value, exponent), rest) => (number value exponent, rest)

def literals : List (Bytes × Json) :=
  [(utf8 "null", null), (utf8 "true", truth true), (utf8 "false", truth false)]

def literal? (text : Bytes) : Option (Json × Bytes) :=
  literals.findSome? fun (word, value) => (afterStart? word text).map fun rest => (value, rest)

-- Items with commas between them, up to the bracket that closes them. A text has no more
-- items than bytes, which bounds the search.
def list? {α : Type} (item : Bytes → Option (α × Bytes)) (closing : UInt8) :
    Nat → Bytes → Option (List α × Bytes)
  | 0, _ => none
  | bound + 1, text =>
    match item text with
    | none => none
    | some (first, rest) =>
      match trim rest with
      | [] => none
      | mark :: rest =>
        if mark == closing then some ([first], rest)
        else if mark == byte ',' then
          (list? item closing bound rest).map fun (others, rest) => (first :: others, rest)
        else none

def brackets? {α : Type} (item : Bytes → Option (α × Bytes)) (closing : UInt8) (text : Bytes) :
    Option (List α × Bytes) :=
  match trim text with
  | [] => none
  | b :: rest => if b == closing then some ([], rest) else list? item closing text.length text

def field? (value : Bytes → Option (Json × Bytes)) (text : Bytes) :
    Option ((Bytes × Json) × Bytes) :=
  match trim text with
  | [] => none
  | quote :: rest =>
    if quote == 0x22 then
      match string? rest with
      | none => none
      | some (name, rest) =>
        match trim rest with
        | [] => none
        | colon :: rest =>
          if colon == byte ':' then (value rest).map fun (value, rest) => ((name, value), rest)
          else none
    else none

-- A value whose brackets are nested less deep than this.
def value? : Nat → Bytes → Option (Json × Bytes)
  | 0, _ => none
  | depth + 1, text =>
    match trim text with
    | [] => none
    | b :: rest =>
      if b == 0x22 then (string? rest).map fun (text, rest) => (string text, rest)
      else if b == byte '[' then
        (brackets? (value? depth) (byte ']') rest).map fun (items, rest) => (array items, rest)
      else if b == 0x7B then
        (brackets? (field? (value? depth)) 0x7D rest).map fun (fields, rest) =>
          (object fields, rest)
      else
        match literal? (b :: rest) with
        | some found => some found
        | none => number? (b :: rest)

-- A text in UTF-8 that is one value, with space around it. Its brackets are nested no
-- deeper than it is long.
def read (text : Bytes) : Option Json :=
  if Utf8.valid text then
    match value? (text.length + 1) text with
    | some (value, rest) => if (trim rest).isEmpty then some value else none
    | none => none
  else none

-- Commas stand between items only, numbers have no zeros in front, and there is one value.
example : (["[1, ]", "[01]", "[1] [2]"].map fun text => (read (utf8 text)).isSome) =
    [false, false, false] := by decide

end Json

end ThemeLint
