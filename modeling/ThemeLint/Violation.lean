import ThemeLint.Bytes

namespace ThemeLint

open Bytes

-- One reported find. Line and column count from one.
structure Violation where
  path : Bytes
  relPath : Bytes
  line : Int
  column : Int
  ruleId : Bytes
  found : Bytes
  message : Bytes
deriving DecidableEq, Repr

namespace Violation

def location (v : Violation) : Bytes := v.relPath ++ utf8 ":" ++ ofInt v.line

def render (v : Violation) : Bytes :=
  v.location ++ utf8 "  " ++ v.ruleId ++ utf8 "  " ++ v.message

end Violation

-- The outcome of one pass. Violations stand in the order of discovery: by file,
-- then by line, then by rule.
structure Result where
  root : Bytes
  files : List Bytes
  violations : List Violation
deriving DecidableEq, Repr

namespace Result

def count (r : Result) : Nat := r.violations.length

def hasViolations (r : Result) : Bool := !r.violations.isEmpty

def exitCode (r : Result) : Nat := if r.hasViolations then 1 else 0

def tally (id : Bytes) : List (Bytes × Nat) → List (Bytes × Nat)
  | [] => [(id, 1)]
  | (other, n) :: rest =>
    if id = other then (other, n + 1) :: rest
    else if id < other then (id, 1) :: (other, n) :: rest
    else (other, n) :: tally id rest

def countByRule (r : Result) : List (Bytes × Nat) :=
  r.violations.foldl (fun counts v => tally v.ruleId counts) []

def summary (r : Result) : Bytes := ofNat r.count ++ utf8 " violation(s) found."

end Result

end ThemeLint
