import ThemeLint.Bytes.Quote

namespace ThemeLint

open Bytes

inductive Flag where
  | dir
  | config
  | format
  | color
  | verbose
  | listRules
  | help
deriving DecidableEq, Repr

namespace Flag

def all : List Flag := [color, config, dir, format, help, listRules, verbose]

def name : Flag → Bytes
  | dir => utf8 "dir"
  | config => utf8 "config"
  | format => utf8 "format"
  | color => utf8 "color"
  | verbose => utf8 "verbose"
  | listRules => utf8 "list-rules"
  | help => utf8 "help"

def letter? : Flag → Option UInt8
  | dir => some (byte 'C')
  | verbose => some (byte 'v')
  | help => some (byte 'h')
  | config | format | color | listRules => none

-- A switch is turned on by its name alone; every other flag takes a value.
def isSwitch : Flag → Bool
  | verbose | listRules | help => true
  | dir | config | format | color => false

def ofName? (name : Bytes) : Option Flag := all.find? (·.name == name)

def ofLetter? (letter : UInt8) : Option Flag := all.find? (·.letter? == some letter)

def spelling (flag : Flag) : Bytes :=
  match flag.letter? with
  | some letter => utf8 "-" ++ [letter] ++ utf8 ", --" ++ flag.name
  | none => utf8 "--" ++ flag.name

end Flag

inductive UsageError where
  | badSyntax (argument : Bytes)
  | unknownFlag (name : Bytes)
  -- a letter and the letters behind it
  | unknownLetter (letter : UInt8) (rest : Bytes)
  | noValue (flag : Flag)
  | noLetterValue (letter : UInt8)
  | badValue (flag : Flag) (value : Bytes)
  | unexpected (argument : Bytes)
deriving DecidableEq, Repr

namespace UsageError

-- The character shown for the byte of an unknown letter. A byte outside ASCII is
-- shown as the first byte of the character with that number.
def shownLetter (letter : UInt8) : Nat :=
  if letter < 0x80 then letter.toNat else if letter < 0xC0 then 0xC2 else 0xC3

def message : UsageError → Bytes
  | badSyntax argument => utf8 "bad flag syntax: " ++ argument
  | unknownFlag name => utf8 "unknown flag: --" ++ name
  | unknownLetter letter rest =>
    utf8 "unknown shorthand flag: " ++ quoteChar (shownLetter letter) ++ utf8 " in -"
      ++ letter :: rest
  | noValue flag => utf8 "flag needs an argument: --" ++ flag.name
  | noLetterValue letter =>
    utf8 "flag needs an argument: " ++ quoteChar letter.toNat ++ utf8 " in -" ++ [letter]
  | badValue flag value =>
    utf8 "invalid argument " ++ quote value ++ utf8 " for " ++ quote flag.spelling
      ++ utf8 " flag: strconv.ParseBool: parsing " ++ quote value ++ utf8 ": invalid syntax"
  | unexpected argument =>
    utf8 "unknown command " ++ quote argument ++ utf8 " for " ++ quote (utf8 "check-style-tokens")

end UsageError

-- What a command line asks for. A format or color that is not given is left to
-- the configuration.
structure Options where
  dir : Bytes
  config : Bytes
  format? : Option Bytes
  color? : Option Bytes
  verbose : Bool
  listRules : Bool
  help : Bool
deriving DecidableEq, Repr

namespace Options

def default : Options := ⟨utf8 ".", [], none, none, false, false, false⟩

def yes : List Bytes := ["1", "t", "T", "true", "TRUE", "True"].map utf8
def no : List Bytes := ["0", "f", "F", "false", "FALSE", "False"].map utf8

def truth? (text : Bytes) : Option Bool :=
  if yes.contains text then some true
  else if no.contains text then some false
  else none

def set (o : Options) (flag : Flag) (value : Bytes) : Except UsageError Options :=
  let switch (turn : Bool → Options) : Except UsageError Options :=
    match truth? value with
    | some on => .ok (turn on)
    | none => .error (.badValue flag value)
  match flag with
  | .dir => .ok { o with dir := value }
  | .config => .ok { o with config := value }
  | .format => .ok { o with format? := some value }
  | .color => .ok { o with color? := some value }
  | .verbose => switch fun on => { o with verbose := on }
  | .listRules => switch fun on => { o with listRules := on }
  | .help => switch fun on => { o with help := on }

def turnOn (o : Options) (flag : Flag) : Except UsageError Options := o.set flag (utf8 "true")

-- Reads letters behind one dash. The flag that comes back is the last letter's,
-- which takes the next argument as its value. Letters that start like the flags
-- of a test run are passed over.
def setLetters (o : Options) : Bytes → Except UsageError (Options × Option Flag)
  | [] => .ok (o, none)
  | letter :: rest =>
    if startsWith (utf8 "test.") (letter :: rest) then .ok (o, none)
    else
      match Flag.ofLetter? letter with
      | none => .error (.unknownLetter letter rest)
      | some flag =>
        if rest.head? == some (byte '=') && rest.length > 1 then
          (o.set flag (rest.drop 1)).map fun o => (o, none)
        else if flag.isSwitch then
          match o.turnOn flag with
          | .ok o => o.setLetters rest
          | .error e => .error e
        else if rest.isEmpty then .ok (o, some flag)
        else (o.set flag rest).map fun o => (o, none)

def splitName (text : Bytes) : Bytes × Option Bytes :=
  match text.dropWhile (· != byte '=') with
  | [] => (text, none)
  | _ :: value => (text.takeWhile (· != byte '='), some value)

-- Reads a flag behind two dashes. The flag that comes back takes the next
-- argument as its value.
def setName (o : Options) (text : Bytes) : Except UsageError (Options × Option Flag) :=
  if text.isEmpty || text.head? == some (byte '-') || text.head? == some (byte '=') then
    .error (.badSyntax (utf8 "--" ++ text))
  else
    let (name, value?) := splitName text
    match Flag.ofName? name, value? with
    | none, _ => .error (.unknownFlag name)
    | some flag, some value => (o.set flag value).map fun o => (o, none)
    | some flag, none =>
      if flag.isSwitch then (o.turnOn flag).map fun o => (o, none) else .ok (o, some flag)

inductive Shape where
  | positional
  | finish
  | name (text : Bytes)
  | letters (text : Bytes)
deriving DecidableEq, Repr

-- One dash alone is an ordinary argument, two alone end the flags.
def shape (argument : Bytes) : Shape :=
  match argument with
  | a :: b :: rest =>
    if a != byte '-' then .positional
    else if b == byte '-' then if rest.isEmpty then .finish else .name rest
    else .letters (b :: rest)
  | _ => .positional

def readAll (o : Options) : List Bytes → Except UsageError (Options × List Bytes)
  | [] => .ok (o, [])
  | argument :: rest =>
    match shape argument with
    | .positional => (o.readAll rest).map fun (o, others) => (o, argument :: others)
    | .finish => .ok (o, rest)
    | .name text =>
      match o.setName text with
      | .error e => .error e
      | .ok (o, none) => o.readAll rest
      | .ok (o, some flag) =>
        match rest with
        | [] => .error (.noValue flag)
        | value :: rest =>
          match o.set flag value with
          | .error e => .error e
          | .ok o => o.readAll rest
    | .letters text =>
      match o.setLetters text with
      | .error e => .error e
      | .ok (o, none) => o.readAll rest
      | .ok (o, some flag) =>
        match rest with
        | [] => .error (.noLetterValue (flag.letter?.getD 0))
        | value :: rest =>
          match o.set flag value with
          | .error e => .error e
          | .ok o => o.readAll rest

-- The options of a command line. A request for help is granted before other
-- arguments are refused.
def parse (arguments : List Bytes) : Except UsageError Options := do
  let (o, others) ← default.readAll arguments
  match others with
  | argument :: _ => if o.help then .ok o else .error (.unexpected argument)
  | [] => .ok o

end Options

end ThemeLint
