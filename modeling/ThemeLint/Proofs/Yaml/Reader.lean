import ThemeLint.Yaml.Scalar

namespace ThemeLint.Yaml

open Bytes Utf8

def letters : List (Nat × Nat) :=
  [('0', 0x00), ('a', 0x07), ('b', 0x08), ('t', 0x09), ('n', 0x0A), ('v', 0x0B), ('f', 0x0C),
    ('r', 0x0D), ('e', 0x1B), (' ', 0x20), ('"', 0x22), ('/', 0x2F), ('\\', 0x5C), ('N', 0x85),
    ('_', 0xA0), ('L', 0x2028), ('P', 0x2029)].map fun (letter, code) => (letter.toNat, code)

def numbers : List (Nat × Nat) :=
  [('x', 2), ('u', 4), ('U', 8)].map fun (letter, digits) => (letter.toNat, digits)

-- The text behind an opening double quote, up to the quote that ends the value.
def double? : List Piece → Option Bytes
  | [] => none
  | piece :: rest =>
    if codeOf piece == 0x22 then if rest.isEmpty then some [] else none
    else if isBreak (codeOf piece) then none
    else if codeOf piece == 0x5C then
      match rest with
      | [] => none
      | letter :: rest =>
        match numbers.lookup (codeOf letter) with
        | some digits => do
          let code ← Numeral.natOf? 16 ((rest.take digits).flatMap Piece.text)
          (double? (rest.drop digits)).map (encode code ++ ·)
        | none => do
          let code ← letters.lookup (codeOf letter)
          (double? rest).map (encode code ++ ·)
    else (double? rest).map (piece.text ++ ·)
termination_by pieces => pieces.length
decreasing_by all_goals simp_wf <;> omega

-- The two breaks that are part of a text; the others would be read as spaces.
def isSeparator (code : Nat) : Bool := code == 0x2028 || code == 0x2029

-- The text behind an opening single quote and the character before. A quote of the text
-- stands twice. Behind a break, spaces belong to the layout; before one they would get lost.
def single? : Nat → List Piece → Option Bytes
  | _, [] => none
  | before, piece :: rest =>
    let code := codeOf piece
    if isBreak before && isGap code then single? before rest
    else if isBreak code && (isGap before || !isSeparator code) then none
    else if code == 0x27 then
      match rest with
      | [] => some []
      | next :: rest =>
        if codeOf next == 0x27 then (single? code rest).map (0x27 :: ·) else none
    else (single? code rest).map (piece.text ++ ·)

-- Characters that have a meaning of their own at the start of a value. The first three have
-- none in front of a character that is no space.
def openers : Bytes := utf8 "-?:"
def marks : Bytes := utf8 ",[]#&*!|>'\"%@`" ++ [0x7B, 0x7D]

-- Whether a plain text goes on like this behind a character: up to the end of the value, with
-- no comment and no key in it.
def isPlainRest : Nat → List Nat → Bool
  | before, [] => !isGap before && before != 0x3A
  | before, code :: rest =>
    !isBreak code && !(isGap before && code == 0x23) && !(before == 0x3A && isGap code) &&
      isPlainRest code rest

def isPlain : List Nat → Bool
  | [] => false
  | first :: rest =>
    !isGap first && !isBreak first && !marks.any (·.toNat == first) &&
      (!openers.any (·.toNat == first) || rest.head?.any (!isGap ·)) && isPlainRest first rest

-- The string that a value on one line stands for, if it stands for a string.
def text? (value : Bytes) : Option Bytes :=
  match value with
  | [] => none
  | b :: rest =>
    if b == 0x22 then double? (pieces rest)
    else if b == 0x27 then single? 0x27 (pieces rest)
    else if isPlain ((pieces value).map codeOf) && !isOtherType value then some value
    else none

def integer? (value : Bytes) : Option Int :=
  match value with
  | [] => none
  | b :: digits =>
    if b == byte '-' then (Numeral.natOf? 10 digits).map fun n => -(n : Int)
    else (Numeral.natOf? 10 value).map fun n => (n : Int)

-- A comment, a key, a list item, a number and a quote that is left open are no strings.
example : ["a #b", "a: b", "- a", "12", "'a", "\"a\" b"].map (fun value => text? (utf8 value)) =
    [none, none, none, none, none, none] := by
  decide +kernel

end ThemeLint.Yaml
