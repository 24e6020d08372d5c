import ThemeLint.Bytes.Utf8

namespace ThemeLint.Log

open Bytes

inductive Level where
  | debug
  | info
  | warn
  | error
deriving DecidableEq, Repr

namespace Level

def name : Level → Bytes
  | debug => utf8 "DEBUG"
  | info => utf8 "INFO"
  | warn => utf8 "WARN"
  | error => utf8 "ERROR"

-- Warnings and errors are always written, the rest only on request.
def isWritten (verbose : Bool) : Level → Bool
  | debug | info => verbose
  | warn | error => true

end Level

inductive Value where
  | text (text : Bytes)
  | number (n : Int)
  | truth (b : Bool)
  | counts (counts : List (Bytes × Nat))
deriving DecidableEq, Repr

structure Entry where
  level : Level
  message : Bytes
  pairs : List (Bytes × Value)
deriving DecidableEq, Repr

def escapePiece : Utf8.Piece → Bytes
  | .stray _ => utf8 "\\ufffd"
  | .char code text =>
    if code == 0x22 then utf8 "\\\""
    else if code == 0x5C then utf8 "\\\\"
    else if code == 0x0A then utf8 "\\n"
    else if code == 0x0D then utf8 "\\r"
    else if code == 0x09 then utf8 "\\t"
    else if code < 0x20 then utf8 "\\u" ++ hex 4 code
    else text

def renderText (text : Bytes) : Bytes :=
  [0x22] ++ (Utf8.pieces text).flatMap escapePiece ++ [0x22]

namespace Value

def render : Value → Bytes
  | text t => renderText t
  | number n => ofInt n
  | truth b => if b then utf8 "true" else utf8 "false"
  | counts cs =>
    [0x7B] ++ joinWith (utf8 ",") (cs.map fun (name, n) => renderText name ++ utf8 ":" ++ ofNat n)
      ++ [0x7D]

end Value

namespace Entry

def renderPairs (pairs : List (Bytes × Value)) : Bytes :=
  [0x7B] ++ joinWith (utf8 ", ") (pairs.map fun (key, value) =>
    renderText key ++ utf8 ": " ++ value.render) ++ [0x7D]

def render (time : Bytes) (e : Entry) : Bytes :=
  joinWith (utf8 " | ") ([time, e.level.name, utf8 "check-style-tokens", e.message]
    ++ if e.pairs.isEmpty then [] else [renderPairs e.pairs]) ++ [lf]

end Entry

def render (verbose : Bool) (time : Bytes) (entries : List Entry) : Bytes :=
  (entries.filter (·.level.isWritten verbose)).flatMap (Entry.render time)

end ThemeLint.Log
