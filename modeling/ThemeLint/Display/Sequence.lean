import ThemeLint.Bytes

namespace ThemeLint.Display

-- What a terminal is reading. A control sequence opens with an escape or with a
-- single byte of the upper half, and nothing of it is shown.
inductive Sequence where
  | ground
  | escape
  | escapeMarks
  | control
  | controlMarks
  -- a device control string: its opening, parameters, marks, and then its text
  | device
  | deviceParameters
  | deviceMarks
  | deviceText
  | command
  | message
deriving DecidableEq, Repr

namespace Sequence

-- The bytes below the space that are carried out on the spot and end nothing.
def isImmediate (b : UInt8) : Bool :=
  b ≤ 0x17 || b == 0x19 || (0x1C ≤ b && b ≤ 0x1F)

def isMark (b : UInt8) : Bool := 0x20 ≤ b && b ≤ 0x2F

def isParameter (b : UInt8) : Bool := 0x30 ≤ b && b ≤ 0x3F

def isFinal (b : UInt8) : Bool := 0x40 ≤ b && b ≤ 0x7E

def isDelete (b : UInt8) : Bool := b == 0x7F

-- Cancel and substitute drop whatever is being read.
def isAbort (b : UInt8) : Bool := b == 0x18 || b == 0x1A

-- A byte that the sequence being read has no use for. It ends that sequence, and
-- may open another one. None stands for the start of a character of several bytes.
def interrupt (b : UInt8) : Option Sequence :=
  if b == 0x1B then some escape
  else if b == 0x98 || b == 0x9E || b == 0x9F then some message
  else if b == 0x9B then some control
  else if b == 0x90 then some device
  else if b == 0x9D then some command
  else if 0xC2 ≤ b && b ≤ 0xF4 then none
  else some ground

def afterEscape (b : UInt8) : Option Sequence :=
  if isImmediate b || isDelete b then some escape
  else if isMark b then some escapeMarks
  else if b == byte 'X' || b == byte '^' || b == byte '_' then some message
  else if b == byte 'P' then some device
  else if b == byte '[' then some control
  else if b == byte ']' then some command
  else interrupt b

-- What follows the opening of a device control string. The marks of a new line and
-- an escape belong to its text.
def afterDevice (b : UInt8) : Option Sequence :=
  if (0x08 ≤ b && b ≤ 0x0D) || b == 0x1B || isFinal b then some deviceText
  else if isImmediate b || isDelete b then some device
  else if isMark b then some deviceMarks
  else if isParameter b then some deviceParameters
  else interrupt b

-- What is being read behind a byte. The text of a device or a command takes the
-- bytes of longer characters too; everywhere else such a character is shown, and
-- there is none.
def next : Sequence → UInt8 → Option Sequence
  | ground, b => interrupt b
  | escape, b => afterEscape b
  | escapeMarks, b =>
    if isImmediate b || isMark b || isDelete b then some escapeMarks else interrupt b
  | control, b =>
    if isImmediate b || isParameter b || isDelete b then some control
    else if isMark b then some controlMarks
    else interrupt b
  | controlMarks, b =>
    if isImmediate b || isMark b || isDelete b then some controlMarks else interrupt b
  | device, b => afterDevice b
  | deviceParameters, b =>
    if isImmediate b || isParameter b || isDelete b then some deviceParameters
    else if isMark b then some deviceMarks
    else if isFinal b then some deviceText
    else interrupt b
  | deviceMarks, b =>
    if isImmediate b || isMark b || isDelete b then some deviceMarks
    else if isParameter b || isFinal b then some deviceText
    else interrupt b
  | deviceText, b =>
    if b == 0x1B then some escape
    else if b == 0x9C || isAbort b then some ground
    else some deviceText
  | command, b =>
    if b == 0x1B then some escape
    else if b == 0x07 || b == 0x9C || isAbort b then some ground
    else some command
  | message, b =>
    if isImmediate b || (0x20 ≤ b && b ≤ 0x7F) then some message else interrupt b

def shows (sequence : Sequence) (b : UInt8) : Bool :=
  sequence == ground && 0x20 ≤ b && b ≤ 0x7E

end Sequence

end ThemeLint.Display
