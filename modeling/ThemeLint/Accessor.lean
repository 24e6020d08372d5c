import ThemeLint.Bytes.Quote

namespace ThemeLint

open Bytes

inductive AccessorError where
  | noNames
  | notIdentifier (name : Bytes)
deriving DecidableEq, Repr

namespace AccessorError

def message : AccessorError → Bytes
  | noNames => utf8 "at least one accessor name is required"
  | notIdentifier name => utf8 "invalid accessor name " ++ quote name

end AccessorError

-- The functions that read a theme token with a literal fallback. A color is
-- allowed only as an argument of a call of one of them.
structure Accessors where
  names : List Bytes
  names_ne_nil : names ≠ []
  isIdentifier : ∀ name ∈ names, Bytes.isIdentifier name = true

namespace Accessors

def ofNames (names : List Bytes) : Except AccessorError Accessors :=
  if h : names = [] then .error .noNames
  else
    match hf : names.find? (fun name => !Bytes.isIdentifier name) with
    | some name => .error (.notIdentifier name)
    | none => .ok ⟨names, h, by simpa using hf⟩

def builtin : List Bytes :=
  [utf8 "getToken", utf8 "readToken", utf8 "tokenOr", utf8 "cssVar"]

-- The identifier that ends where a reversed text starts, behind spaces.
def nameBehind (reversed : Bytes) : Bytes :=
  ((reversed.dropWhile (· == space)).takeWhile isWord).reverse

def identifierBefore (text : Bytes) : Bytes := nameBehind text.reverse

-- Searches a reversed text for the parenthesis of an accessor's call, and gives
-- up at the first closing one.
def opensCall (accessors : Accessors) : Bytes → Bool
  | [] => false
  | b :: rest =>
    if b == byte ')' then false
    else if b == byte '(' && accessors.names.contains (nameBehind rest) then true
    else opensCall accessors rest

def insideOpenCall (accessors : Accessors) (text : Bytes) : Bool :=
  accessors.opensCall text.reverse

def isTokenByte (b : UInt8) : Bool := isPlainWord b || b == byte '.' || b == byte '-'

-- Reads, from the right, the start of a call up to its second argument: the
-- accessor, a parenthesis, a quoted token name, a comma and perhaps the opening
-- quote of the fallback.
def endsInFallback (accessors : Accessors) (text : Bytes) : Bool :=
  let reversed := text.reverse
  let argument := match reversed with
    | q :: rest => if isQuote q then rest else reversed
    | [] => []
  match argument.dropWhile isBlank with
  | comma :: rest =>
    comma == byte ',' &&
    match rest.dropWhile isBlank with
    | close :: name =>
      isQuote close && name.head?.any isTokenByte &&
      match name.dropWhile isTokenByte with
      | opening :: rest =>
        isQuote opening &&
        match rest.dropWhile isBlank with
        | parenthesis :: callee =>
          parenthesis == byte '(' &&
            accessors.names.contains (callee.takeWhile isWord).reverse
        | [] => false
      | [] => false
    | [] => false
  | [] => false

def isFallback (accessors : Accessors) (line : Bytes) (column : Int) : Bool :=
  if column ≤ 0 || column > line.length then false
  else
    let before := line.take column.toNat
    accessors.endsInFallback before || accessors.insideOpenCall before

end Accessors

end ThemeLint
