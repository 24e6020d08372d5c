import ThemeLint.Linter
import ThemeLint.Log
import ThemeLint.Workspace

namespace ThemeLint

open Bytes Source

inductive RunError where
  | locate (cause : LocateError)
  | source (cause : SourceError)
deriving DecidableEq, Repr

namespace RunError

def message : RunError → Bytes
  | locate cause => utf8 "failed to locate files: " ++ cause.message
  | source cause => cause.message

end RunError

namespace Linter

-- Adds the violations of a line to those of the lines before it, the last in front.
def gather (accessors : Accessors) (line : Line) (found : List Violation) :
    Except Empty (List Violation) :=
  .ok ((checkLine accessors line).reverse ++ found)

def checkFile (accessors : Accessors) (volume : Volume) (file : File) :
    Except SourceError (List Violation) :=
  match scan volume file (gather accessors) [] with
  | (found, none) => .ok found.reverse
  | (_, some (.failed cause)) => .error cause

def locatedEntry (root : Bytes) (files : List File) : Log.Entry where
  level := .debug
  message := utf8 "located files"
  pairs := [(utf8 "root", .text root), (utf8 "count", .number files.length)]

def scannedEntry (file : File) (lines : Nat) (violations : List Violation) : Log.Entry where
  level := .debug
  message := utf8 "scanned file"
  pairs := [(utf8 "path", .text file.relPath), (utf8 "lines", .number lines),
    (utf8 "violations", .number violations.length)]

-- The note on a file that was checked. Its lines are counted for the note only,
-- so only when the note is wanted.
def noteFile (verbose : Bool) (volume : Volume) (file : File) (violations : List Violation) :
    Except SourceError (List Log.Entry) :=
  if verbose then
    match countLines volume file with
    | (_, some e) => .error e
    | (n, none) => .ok [scannedEntry file n violations]
  else .ok []

-- Checks files one after the other. The first failure ends the pass, and what
-- was found before it is dropped; the notes made before it stay.
def checkFiles (accessors : Accessors) (verbose : Bool) (volume : Volume) :
    List File → List Log.Entry × Except SourceError (List Violation)
  | [] => ([], .ok [])
  | file :: rest =>
    match checkFile accessors volume file with
    | .error e => ([], .error e)
    | .ok violations =>
      match noteFile verbose volume file violations with
      | .error e => ([], .error e)
      | .ok note =>
        let (notes, others) := checkFiles accessors verbose volume rest
        (note ++ notes, others.map (violations ++ ·))

def run (accessors : Accessors) (verbose : Bool) (ws : Workspace) (patterns : List Bytes) :
    List Log.Entry × Except RunError Result :=
  match ws.locate patterns with
  | .error e => ([], .error (.locate e))
  | .ok files =>
    let (notes, outcome) := checkFiles accessors verbose ws.volume files
    (locatedEntry ws.root files :: notes,
      match outcome with
      | .error e => .error (.source e)
      | .ok violations => .ok ⟨ws.root, files.map (·.path), violations⟩)

end Linter

end ThemeLint
