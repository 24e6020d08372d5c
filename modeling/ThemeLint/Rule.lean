import ThemeLint.Bytes

namespace ThemeLint

open Bytes

-- What a rule looks for. A rule of any other kind finds nothing.
inductive Kind where
  | hardcodedColor
  | variableInStyle
  | variableInString
  | other (code : Int)
deriving DecidableEq, Repr

namespace Kind

def ofCode (code : Int) : Kind :=
  if code = 0 then hardcodedColor
  else if code = 1 then variableInStyle
  else if code = 2 then variableInString
  else other code

def code : Kind → Int
  | hardcodedColor => 0
  | variableInStyle => 1
  | variableInString => 2
  | other code => code

-- A color function is found by its name and parenthesis only; the message
-- closes the parenthesis again.
def closeCall (literal : Bytes) : Bytes :=
  if endsWith (utf8 "(") literal then literal ++ utf8 "...)" else literal

def message (kind : Kind) (text : Bytes) (start : Int) : Bytes :=
  let column := ofInt (start + 1)
  match kind with
  | hardcodedColor =>
    let literal := closeCall text
    utf8 "hardcoded color " ++ literal ++ utf8 " at column " ++ column ++
      utf8 "; read it from a theme token, e.g. getToken('token-name', '" ++ literal ++ utf8 "')"
  | variableInStyle =>
    utf8 "theme variable assigned as a string to an inline style at column " ++ column ++
      utf8 " (" ++ text ++ utf8 "); resolve the variable to a concrete value first"
  | variableInString =>
    utf8 "theme variable " ++ text ++ utf8 " inside a string literal at column " ++ column ++
      utf8 "; resolve it through a theme accessor instead"
  | other _ => text ++ utf8 " at column " ++ column

end Kind

inductive Policy where
  | requiresContextCheck
  | alwaysViolation
  | other
deriving DecidableEq, Repr

namespace Policy

def ofCode (code : Int) : Policy :=
  if code = 0 then requiresContextCheck
  else if code = 1 then alwaysViolation
  else other

def name : Policy → Bytes
  | requiresContextCheck => utf8 "requires-context-check"
  | alwaysViolation => utf8 "always-violation"
  | other => utf8 "unknown"

end Policy

structure Rule where
  id : Bytes
  kind : Kind
  policy : Policy
  description : Bytes
deriving DecidableEq, Repr

namespace Rule

def hardcodedColor : Rule where
  id := utf8 "hardcoded-color"
  kind := .hardcodedColor
  policy := .requiresContextCheck
  description := utf8 "Color literals (#rgb, #rrggbb, #rrggbbaa, rgb(), rgba(), hsl(), hsla()) outside a theme accessor fallback"

def variableInStyle : Rule where
  id := utf8 "css-var-in-style"
  kind := .variableInStyle
  policy := .alwaysViolation
  description := utf8 "var(--token) assigned as a string to a runtime .style property"

def variableInString : Rule where
  id := utf8 "css-var-in-string"
  kind := .variableInString
  policy := .alwaysViolation
  description := utf8 "var(--token) inside any other quoted string"

def catalog : List Rule := [hardcodedColor, variableInStyle, variableInString]

def find? (id : Bytes) : Option Rule := catalog.find? (·.id == id)

end Rule

end ThemeLint
