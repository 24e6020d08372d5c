import ThemeLint.Bytes.Utf8

namespace ThemeLint

open Bytes

inductive JsonValue where
  | string (text : Bytes)
  | number (value : Int)
  | array (items : List JsonValue)
  | object (fields : List (Bytes × JsonValue))

namespace JsonValue

-- The escape of a character in a string. Quotes, backslashes and control
-- characters have to be escaped; angle brackets, ampersands and the two line
-- separators are escaped too, so that a report can be put into a page.
def escapeChar (code : Nat) (text : Bytes) : Bytes :=
  if code == 0x22 then utf8 "\\\""
  else if code == 0x5C then utf8 "\\\\"
  else if code == 0x0A then utf8 "\\n"
  else if code == 0x0D then utf8 "\\r"
  else if code == 0x09 then utf8 "\\t"
  else if code < 0x20 || code == 0x3C || code == 0x3E || code == 0x26
      || code == 0x2028 || code == 0x2029 then utf8 "\\u" ++ hex 4 code
  else text

def escapePiece : Utf8.Piece → Bytes
  | .char code text => escapeChar code text
  | .stray _ => utf8 "\\ufffd"

def renderString (text : Bytes) : Bytes :=
  [0x22] ++ (Utf8.pieces text).flatMap escapePiece ++ [0x22]

def indent (depth : Nat) : Bytes := List.replicate (2 * depth) space

-- What is inside brackets stands one level deeper, one item on a line; empty
-- brackets stay together.
def bracket (opening closing : UInt8) (depth : Nat) (items : List Bytes) : Bytes :=
  if items.isEmpty then [opening, closing]
  else [opening, lf] ++ joinWith [byte ',', lf] (items.map (indent (depth + 1) ++ ·))
    ++ [lf] ++ indent depth ++ [closing]

mutual

def render (depth : Nat) : JsonValue → Bytes
  | string text => renderString text
  | number value => ofInt value
  | array items => bracket (byte '[') (byte ']') depth (renderItems (depth + 1) items)
  | object fields => bracket 0x7B 0x7D depth (renderFields (depth + 1) fields)

def renderItems (depth : Nat) : List JsonValue → List Bytes
  | [] => []
  | item :: rest => render depth item :: renderItems depth rest

def renderFields (depth : Nat) : List (Bytes × JsonValue) → List Bytes
  | [] => []
  | (name, value) :: rest =>
    (renderString name ++ utf8 ": " ++ render depth value) :: renderFields depth rest

end

def document (value : JsonValue) : Bytes := value.render 0 ++ [lf]

end JsonValue

end ThemeLint
