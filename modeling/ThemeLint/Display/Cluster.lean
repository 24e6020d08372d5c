import ThemeLint.Display.ClassTable

namespace ThemeLint.Display

-- What a code point does to the cluster it may belong to. A cluster is what a
-- reader takes for one character.
inductive Class where
  | other
  | carriageReturn
  | lineFeed
  | control
  -- marks behind a character, without and with room of their own
  | extend
  | spacing
  | joiner
  | prepend
  -- the letters of a Korean syllable, and syllables that are open or closed
  | leading
  | vowel
  | trailing
  | openSyllable
  | closedSyllable
  | regional
  | pictograph
deriving DecidableEq, Repr

namespace Class

def leadingRanges : List (Nat × Nat) := [(0x1100, 0x115F), (0xA960, 0xA97C)]
def vowelRanges : List (Nat × Nat) := [(0x1160, 0x11A7), (0xD7B0, 0xD7C6)]
def trailingRanges : List (Nat × Nat) := [(0x11A8, 0x11FF), (0xD7CB, 0xD7FB)]
def regionalRanges : List (Nat × Nat) := [(0x1F1E6, 0x1F1FF)]

-- Syllables stand in rows of twenty-eight, of which the first is open.
def firstSyllable : Nat := 0xAC00
def lastSyllable : Nat := 0xD7A3
def syllableRow : Nat := 28

def of (code : Nat) : Class :=
  if code == 0x0D then carriageReturn
  else if code == 0x0A then lineFeed
  else if code == 0x200D then joiner
  else if firstSyllable ≤ code && code ≤ lastSyllable then
    if (code - firstSyllable) % syllableRow == 0 then openSyllable else closedSyllable
  else if isWithin controlRanges code then control
  else if isWithin extendRanges code then extend
  else if isWithin spacingRanges code then spacing
  else if isWithin prependRanges code then prepend
  else if isWithin leadingRanges code then leading
  else if isWithin vowelRanges code then vowel
  else if isWithin trailingRanges code then trailing
  else if isWithin regionalRanges code then regional
  else if isWithin pictographRanges code then pictograph
  else other

end Class

-- What a cluster ends with, as far as it matters for what may follow.
inductive Ending where
  | plain
  | carriageReturn
  | control
  | prepend
  | leading
  | vowel
  | trailing
  -- a pictograph, perhaps with marks, and one with a joiner behind them
  | pictograph
  | joined
  -- the first half of a flag, and the second
  | half
  | flag
deriving DecidableEq, Repr

namespace Ending

def of : Class → Ending
  | .other | .extend | .spacing | .joiner => plain
  | .carriageReturn => carriageReturn
  | .lineFeed | .control => control
  | .prepend => prepend
  | .leading => leading
  | .vowel | .openSyllable => vowel
  | .trailing | .closedSyllable => trailing
  | .regional => half
  | .pictograph => pictograph

def takes : Ending → Class → Bool
  | carriageReturn, .lineFeed => true
  | carriageReturn, _ | control, _ => false
  | _, .carriageReturn | _, .lineFeed | _, .control => false
  | _, .extend | _, .spacing | _, .joiner => true
  | prepend, _ => true
  | leading, .leading | leading, .vowel => true
  | leading, .openSyllable | leading, .closedSyllable => true
  | vowel, .vowel | vowel, .trailing => true
  | trailing, .trailing => true
  | joined, .pictograph => true
  | half, .regional => true
  | _, _ => false

def after : Ending → Class → Ending
  | pictograph, .extend => pictograph
  | pictograph, .joiner => joined
  | half, .regional => flag
  | _, c => of c

end Ending

end ThemeLint.Display
