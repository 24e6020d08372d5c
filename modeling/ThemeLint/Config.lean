import ThemeLint.Files.Disk
import ThemeLint.Report
import ThemeLint.Toml.Document

namespace ThemeLint

open Bytes

inductive ColorMode where
  | auto
  | always
  | never
deriving DecidableEq, Repr

namespace ColorMode

def name : ColorMode → Bytes
  | auto => utf8 "auto"
  | always => utf8 "always"
  | never => utf8 "never"

def all : List ColorMode := [auto, always, never]

def ofName? (name : Bytes) : Option ColorMode := all.find? (·.name == name)

-- Whether text is colored that goes to a terminal or elsewhere. A name that says
-- neither always nor never leaves it to the terminal, unless the environment
-- asks for no color.
def isColored (name noColor : Bytes) (isTerminal : Bool) : Bool :=
  match ofName? name with
  | some always => true
  | some never => false
  | _ => noColor.isEmpty && isTerminal

end ColorMode

-- What can be configured. Formats and color modes are names until they are
-- checked.
structure Config where
  accessors : List Bytes
  format : Bytes
  color : Bytes
  -- the file the settings come from, empty without one
  source : Bytes
deriving DecidableEq, Repr

inductive InvalidConfig where
  | unknownFormat (name : Bytes)
  | unknownColor (name : Bytes)
  | notIdentifier (accessor : Bytes)
  | unknownKey (key : Toml.Key) (path : Bytes)
deriving DecidableEq, Repr

namespace InvalidConfig

def detail : InvalidConfig → Bytes
  | unknownFormat name =>
    utf8 "unknown format " ++ quote name ++ utf8 " (want text, json, sarif or yaml)"
  | unknownColor name =>
    utf8 "unknown color mode " ++ quote name ++ utf8 " (want auto, always or never)"
  | notIdentifier accessor =>
    utf8 "accessor " ++ quote accessor ++ utf8 " is not an identifier"
  | unknownKey key path => utf8 "unknown key " ++ quote key.render ++ utf8 " in " ++ path

def message (e : InvalidConfig) : Bytes := utf8 "invalid config: " ++ e.detail

end InvalidConfig

inductive ConfigError where
  | unavailable (path : Bytes) (cause : FileError)
  | unreadable (path : Bytes) (cause : FileError)
  | malformed (path : Bytes)
  | unknown (cause : InvalidConfig)
  | invalid (path : Bytes) (cause : InvalidConfig)
deriving DecidableEq, Repr

namespace ConfigError

def message : ConfigError → Bytes
  | unavailable path cause => utf8 "failed to stat " ++ path ++ utf8 ": " ++ cause.message
  | unreadable path cause => utf8 "failed to parse " ++ path ++ utf8 ": " ++ cause.message
  | malformed path => utf8 "failed to parse " ++ path
  | unknown cause => cause.message
  | invalid path cause => path ++ utf8 ": " ++ cause.message

end ConfigError

structure Settings where
  accessors? : Option (List Bytes)
  format? : Option Bytes
  color? : Option Bytes
deriving DecidableEq, Repr

namespace Settings

def empty : Settings := ⟨none, none, none⟩

-- Upper case and lower case name the same setting. Two characters outside ASCII
-- have an ASCII letter as their other case.
def foldCase (name : Bytes) : Bytes :=
  (Utf8.pieces name).flatMap fun piece =>
    match piece with
    | .char 0x17F _ => [byte 's']
    | .char 0x212A _ => [byte 'k']
    | piece => piece.text.map toLower

def isAccessors (name : Bytes) : Bool := foldCase name == utf8 "accessors"

def isFormat (name : Bytes) : Bool := foldCase name == utf8 "format"

def isColor (name : Bytes) : Bool := foldCase name == utf8 "color"

def isKnown (name : Bytes) : Bool := isAccessors name || isFormat name || isColor name

def text? : Toml.Slot → Option Bytes
  | .value (.text text) => some text
  | _ => none

def texts? : Toml.Slot → Option (List Bytes)
  | .value (.array items) => items.mapM fun item => text? (.value item)
  | _ => none

-- One more setting; names that are not known are passed over. Nothing comes of a
-- value of the wrong kind.
def add? (s : Settings) (name : Bytes) (slot : Toml.Slot) : Option Settings :=
  if isAccessors name then (texts? slot).map fun texts => { s with accessors? := some texts }
  else if isFormat name then (text? slot).map fun text => { s with format? := some text }
  else if isColor name then (text? slot).map fun text => { s with color? := some text }
  else some s

-- All settings of a document, if each is of the right kind. Of several spellings of a
-- setting the last one that is visited counts.
def ofDocument? (traversal : Toml.Traversal) (document : Toml.Document) : Option Settings :=
  (traversal.visit document.settings).foldlM (fun s (name, slot) => s.add? name slot) empty

def unknownKey? (document : Toml.Document) : Option Toml.Key :=
  document.keys.find? fun key =>
    match key with
    | [name] => !isKnown name
    | _ => true

end Settings

namespace Config

def default : Config := ⟨[], Format.text.name, ColorMode.auto.name, []⟩

def fileName : Bytes := utf8 ".style-tokens.toml"

def validate (c : Config) : Except InvalidConfig Unit :=
  if (Format.ofName? c.format).isNone then .error (.unknownFormat c.format)
  else if (ColorMode.ofName? c.color).isNone then .error (.unknownColor c.color)
  else match c.accessors.find? (fun name => !isIdentifier name) with
    | some name => .error (.notIdentifier name)
    | none => .ok ()

def ofSettings (s : Settings) (source : Bytes) : Config where
  accessors := s.accessors?.getD default.accessors
  format := s.format?.getD default.format
  color := s.color?.getD default.color
  source := source

-- The settings that the content of a file makes. Values of a wrong kind come
-- before unknown keys.
def parse (traversal : Toml.Traversal) (path content : Bytes) : Except ConfigError Settings :=
  match Toml.Document.parse content with
  | .error _ => .error (.malformed path)
  | .ok document =>
    match Settings.ofDocument? traversal document with
    | none => .error (.malformed path)
    | some settings =>
      match Settings.unknownKey? document with
      | some key => .error (.unknown (.unknownKey key path))
      | none => .ok settings

def readFile (traversal : Toml.Traversal) (disk : Disk) (path : Bytes) :
    Except ConfigError Config :=
  match disk.read path with
  | .error cause => .error (.unreadable path cause)
  | .ok content => do
    let settings ← parse traversal path content
    let config := ofSettings settings path
    match config.validate with
    | .error cause => .error (.invalid path cause)
    | .ok () => .ok config

-- The configuration for a work directory. A file that is asked for has to be
-- there; without one, the file in the work directory counts if it is there.
def load (disk : Disk) (workDir explicit : Bytes) (traversal : Toml.Traversal := .written) :
    Except ConfigError Config :=
  if !explicit.isEmpty then readFile traversal disk explicit
  else
    let path := Path.join workDir fileName
    match disk.stat path with
    | .ok _ => readFile traversal disk path
    | .error cause => if cause.isMissing then .ok default else .error (.unavailable path cause)

end Config

end ThemeLint
