import ThemeLint.Bytes.Utf8
import ThemeLint.Files.Tree
import ThemeLint.Source.Line

namespace ThemeLint.Source

open Bytes

structure File where
  path : Bytes
  relPath : Bytes
deriving DecidableEq, Repr

inductive SourceError where
  | unreadable (path : Bytes) (cause : FileError)
  | unopened (path : Bytes) (cause : FileError)
  | notUtf8 (path : Bytes)
  | tooLong (path : Bytes)
  | uncounted
deriving DecidableEq, Repr

namespace SourceError

def message : SourceError → Bytes
  | unreadable path cause => utf8 "failed to read " ++ path ++ utf8 ": " ++ cause.message
  | unopened path cause => utf8 "failed to open " ++ path ++ utf8 ": " ++ cause.message
  | notUtf8 path => utf8 "file is not valid UTF-8: " ++ path
  | tooLong path =>
    utf8 "failed to split " ++ path ++ utf8 " into lines: bufio.Scanner: token too long"
  | uncounted => utf8 "bufio.Scanner: token too long"

end SourceError

-- The lines to check among the segments of a file. Comment lines are left out
-- and keep their numbers.
def linesOf (file : File) (segments : List Bytes) : List Line :=
  (segments.zipIdx 1).filterMap fun (segment, number) =>
    let text := lineText segment
    if isComment text then none else some ⟨text, number, file.path, file.relPath⟩

def content (volume : Volume) (file : File) : Except SourceError Bytes :=
  match volume.read file.relPath with
  | .error cause => .error (.unreadable file.path cause)
  | .ok content => if Utf8.valid content then .ok content else .error (.notUtf8 file.path)

def visitAll {σ ε : Type} (visit : Line → σ → Except ε σ) : List Line → σ → σ × Option ε
  | [], state => (state, none)
  | line :: rest, state =>
    match visit line state with
    | .ok state => visitAll visit rest state
    | .error e => (state, some e)

inductive Stop (ε : Type) where
  | failed (cause : SourceError)
  | refused (cause : ε)
deriving DecidableEq, Repr

-- Shows the lines of a file to a visitor. Lines before the first that is too
-- long are shown before the failure is noticed.
def scan {σ ε : Type} (volume : Volume) (file : File) (visit : Line → σ → Except ε σ)
    (start : σ) : σ × Option (Stop ε) :=
  match content volume file with
  | .error cause => (start, some (.failed cause))
  | .ok content =>
    let split := segments content
    match visitAll visit (linesOf file split.lines) start with
    | (state, some cause) => (state, some (.refused cause))
    | (state, none) =>
      if split.complete then (state, none) else (state, some (.failed (.tooLong file.path)))

-- The number of lines of a file, comments included, and what cut the count
-- short. Counting does not ask for UTF-8.
def countLines (volume : Volume) (file : File) : Nat × Option SourceError :=
  match volume.read file.relPath with
  | .error cause => (0, some (.unopened file.path cause))
  | .ok content =>
    let split := segments content
    (split.lines.length, if split.complete then none else some .uncounted)

end ThemeLint.Source
