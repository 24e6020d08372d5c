import ThemeLint.Bytes

namespace ThemeLint.Calendar

open Bytes

def isLeap (year : Nat) : Bool := year % 4 == 0 && (year % 100 != 0 || year % 400 == 0)

def daysIn (year month : Nat) : Nat :=
  if month == 2 then if isLeap year then 29 else 28
  else if month == 4 || month == 6 || month == 9 || month == 11 then 30
  else 31

-- How the fields of dates and times are written: always with two digits, or
-- with one or two.
inductive Width where
  | exactly
  | atMost
deriving DecidableEq, Repr

def valueOf (b : UInt8) : Nat := (b - byte '0').toNat

def field? (width : Width) : Bytes → Option (Nat × Bytes)
  | [] => none
  | a :: rest =>
    if !isDigit a then none
    else match rest with
      | [] => if width = .atMost then some (valueOf a, []) else none
      | b :: others =>
        if isDigit b then some (valueOf a * 10 + valueOf b, others)
        else if width = .atMost then some (valueOf a, rest)
        else none

def bounded? (width : Width) (low high : Nat) (text : Bytes) : Option (Nat × Bytes) := do
  let (value, rest) ← field? width text
  if low ≤ value && value ≤ high then some (value, rest) else none

def after? (mark : Char) : Bytes → Option Bytes
  | [] => none
  | b :: rest => if b == byte mark then some rest else none

def date? (width : Width) (text : Bytes) : Option Bytes := do
  let (century, rest) ← field? .exactly text
  let (year, rest) ← field? .exactly rest
  let rest ← after? '-' rest
  let (month, rest) ← bounded? width 1 12 rest
  let rest ← after? '-' rest
  let (_, rest) ← bounded? width 1 (daysIn (century * 100 + year) month) rest
  some rest

def hourMinute? (width : Width) (text : Bytes) : Option Bytes := do
  let (_, rest) ← bounded? width 0 23 text
  let rest ← after? ':' rest
  let (_, rest) ← bounded? width 0 59 rest
  some rest

def skipFraction : Bytes → Bytes
  | mark :: b :: rest =>
    if (mark == byte '.' || mark == byte ',') && isDigit b then rest.dropWhile isDigit
    else mark :: b :: rest
  | text => text

def clock? (width : Width) (text : Bytes) : Option Bytes := do
  let rest ← hourMinute? width text
  let rest ← after? ':' rest
  let (_, rest) ← bounded? width 0 59 rest
  some (skipFraction rest)

-- The zone of a time: Z, or an offset in hours and minutes.
def zone? : Bytes → Option Bytes
  | [] => none
  | b :: rest =>
    if b == byte 'Z' then some rest
    else if b == byte '+' || b == byte '-' then do
      let (_, rest) ← bounded? .exactly 0 24 rest
      let rest ← after? ':' rest
      let (_, rest) ← bounded? .exactly 0 60 rest
      some rest
    else none

def isEnd (text : Option Bytes) : Bool := text == some []

end ThemeLint.Calendar
