import ThemeLint.Bytes

namespace ThemeLint.Toml

open Bytes

abbrev Key := List Bytes

-- A value as it is written. Numbers, truth values, dates and times have to be
-- well formed, but no setting takes one, so none of them is kept.
inductive Value where
  | text (text : Bytes)
  | plain
  | array (items : List Value)
  | table (pairs : List (Key × Value))

inductive Statement where
  | table (key : Key)
  | element (key : Key)
  | assign (key : Key) (value : Value)

def isBare (b : UInt8) : Bool := isPlainWord b || b == byte '-'

def escapeByte (b : UInt8) : Bytes :=
  if b == 0x22 then utf8 "\\\""
  else if b == 0x5C then utf8 "\\\\"
  else if b == 0x08 then utf8 "\\b"
  else if b == tab then utf8 "\\t"
  else if b == lf then utf8 "\\n"
  else if b == 0x0C then utf8 "\\f"
  else if b == cr then utf8 "\\r"
  else if b < 0x20 || b == 0x7F then utf8 "\\u" ++ hex 4 b.toNat
  else [b]

def renderPart (part : Bytes) : Bytes :=
  if !part.isEmpty && part.all isBare then part
  else [0x22] ++ part.flatMap escapeByte ++ [0x22]

namespace Key

def render (key : Key) : Bytes := joinWith (utf8 ".") (key.map renderPart)

end Key

end ThemeLint.Toml
