import ThemeLint.Toml.Scalar
import ThemeLint.Toml.Value

namespace ThemeLint.Toml

open Bytes

def dropMark (text : Bytes) : Bytes :=
  if startsWith [0xFF, 0xFE] text || startsWith [0xFE, 0xFF] text then text.drop 2
  else (afterStart? [0xEF, 0xBB, 0xBF] text).getD text

-- Controls other than tabs and line ends are not allowed anywhere, and a
-- carriage return only before a line feed.
def controlsOk : Bytes → Bool
  | [] => true
  | b :: rest =>
    (if b == cr then rest.head? == some lf
      else b == tab || b == lf || (0x20 ≤ b && b != 0x7F)) && controlsOk rest

def skipComment (text : Bytes) : Bytes := text.dropWhile fun b => !isNewline b

def skipLayout : Nat → Bytes → Bytes
  | 0, text => text
  | fuel + 1, text =>
    match text.dropWhile isLayout with
    | [] => []
    | b :: rest => if b == byte '#' then skipLayout fuel (skipComment rest) else b :: rest

def keyPart? (text : Bytes) : Option (Bytes × Bytes) :=
  if text.head?.any isBare then some (text.takeWhile isBare, text.dropWhile isBare)
  else shortText? text

-- The parts of a key with points between them, up to the byte that ends it.
-- Blanks may stand around each part.
def key? : Nat → Bytes → Option (Key × Bytes)
  | 0, _ => none
  | fuel + 1, text => do
    let (part, rest) ← keyPart? (text.dropWhile isSpace)
    let rest := rest.dropWhile isSpace
    match rest with
    | b :: others =>
      if b == byte '.' then
        let (parts, rest) ← key? fuel others
        some (part :: parts, rest)
      else some ([part], rest)
    | [] => some ([part], [])

mutual

def value? : Nat → Bytes → Option (Value × Bytes)
  | 0, _ => none
  | fuel + 1, text =>
    match text with
    | [] => none
    | b :: rest =>
      if b == byte '[' then (items? fuel rest).map fun (items, rest) => (.array items, rest)
      else if b == 0x7B then (pairs? fuel rest).map fun (pairs, rest) => (.table pairs, rest)
      else if b == 0x22 || b == 0x27 then (text? text).map fun (text, rest) => (.text text, rest)
      else (plain? text).map fun rest => (.plain, rest)

-- The items of an array up to its closing bracket. A comma may stand behind the
-- last one.
def items? : Nat → Bytes → Option (List Value × Bytes)
  | 0, _ => none
  | fuel + 1, text =>
    match skipLayout text.length text with
    | [] => none
    | b :: rest =>
      if b == byte ']' then some ([], rest)
      else
        match value? fuel (b :: rest) with
        | none => none
        | some (item, rest) =>
          match skipLayout rest.length rest with
          | [] => none
          | b :: rest =>
            if b == byte ']' then some ([item], rest)
            else if b == byte ',' then
              (items? fuel rest).map fun (items, rest) => (item :: items, rest)
            else none

def pairs? : Nat → Bytes → Option (List (Key × Value) × Bytes)
  | 0, _ => none
  | fuel + 1, text =>
    match skipLayout text.length text with
    | [] => none
    | b :: rest =>
      if b == 0x7D then some ([], rest)
      else
        match pair? fuel (b :: rest) with
        | none => none
        | some (key, value, rest) =>
          match skipLayout rest.length rest with
          | [] => none
          | b :: rest =>
            if b == 0x7D then some ([(key, value)], rest)
            else if b == byte ',' then
              (pairs? fuel rest).map fun (pairs, rest) => ((key, value) :: pairs, rest)
            else none

def pair? : Nat → Bytes → Option (Key × Value × Bytes)
  | 0, _ => none
  | fuel + 1, text =>
    match key? text.length text with
    | none | some (_, []) => none
    | some (key, b :: rest) =>
      if b == byte '=' then
        (value? fuel (rest.dropWhile isSpace)).map fun (value, rest) => (key, value, rest)
      else none

end

def lineEnd? (text : Bytes) : Option Bytes :=
  match text.dropWhile isSpace with
  | [] => some []
  | b :: rest =>
    if b == byte '#' then some (skipComment rest)
    else if isNewline b then some rest
    else none

def header? (closing : Bytes) (text : Bytes) : Option (Key × Bytes) := do
  let (key, rest) ← key? text.length text
  let rest ← afterStart? closing rest
  some (key, rest)

-- One header or assignment. Reading a value takes at most three steps for each
-- byte of it.
def statement? (text : Bytes) : Option (Statement × Bytes) :=
  if startsWith (utf8 "[[") text then
    (header? (utf8 "]]") (text.drop 2)).map fun (key, rest) => (.element key, rest)
  else if startsWith (utf8 "[") text then
    (header? (utf8 "]") (text.drop 1)).map fun (key, rest) => (.table key, rest)
  else
    (pair? (3 * text.length + 3) text).map fun (key, value, rest) => (.assign key value, rest)

def statements? : Nat → Bytes → List Statement → Option (List Statement)
  | 0, _, _ => none
  | fuel + 1, text, found =>
    match skipLayout text.length text with
    | [] => some found.reverse
    | b :: rest => do
      let (statement, rest) ← statement? (b :: rest)
      let rest ← lineEnd? rest
      statements? fuel rest (statement :: found)

def read? (source : Bytes) : Option (List Statement) :=
  let text := dropMark source
  if Utf8.valid text && controlsOk text then statements? (text.length + 1) text [] else none

end ThemeLint.Toml
