import ThemeLint.Bytes.Utf8
import ThemeLint.Bytes.Printable

namespace ThemeLint.Bytes

open Utf8

def escapeLetter? (code : Nat) : Option UInt8 :=
  if code == 0x07 then some (byte 'a')
  else if code == 0x08 then some (byte 'b')
  else if code == 0x0C then some (byte 'f')
  else if code == 0x0A then some (byte 'n')
  else if code == 0x0D then some (byte 'r')
  else if code == 0x09 then some (byte 't')
  else if code == 0x0B then some (byte 'v')
  else none

-- A printable character stands for itself; a quote or backslash is escaped;
-- everything else is spelled by a letter or by its number in hexadecimal.
def quotePiece : Piece → Bytes
  | .stray b => utf8 "\\x" ++ hex 2 b.toNat
  | .char code text =>
    if code == 0x22 || code == 0x5C then byte '\\' :: text
    else if isPrintable code then text
    else match escapeLetter? code with
      | some letter => [byte '\\', letter]
      | none =>
        if code < 0x20 || code == 0x7F then utf8 "\\x" ++ hex 2 code
        else if code < 0x10000 then utf8 "\\u" ++ hex 4 code
        else utf8 "\\U" ++ hex 8 code

def quote (text : Bytes) : Bytes :=
  [0x22] ++ (pieces text).flatMap quotePiece ++ [0x22]

def quoteChar (code : Nat) : Bytes :=
  let body :=
    if code == 0x27 then utf8 "\\'"
    else if code == 0x22 then [0x22]
    else quotePiece (.char code (encode code))
  [0x27] ++ body ++ [0x27]

end ThemeLint.Bytes
