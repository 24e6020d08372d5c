import ThemeLint.Bytes.Utf8

namespace ThemeLint

open Bytes

inductive NameItem where
  | byte (b : UInt8)
  | any
  | oneOf (negated : Bool) (ranges : List (Nat × Nat))
deriving DecidableEq, Repr

-- What stands between two stars, and whether a star stands before it. There are no
-- items if it cannot be read: a bracket does not close, or a backslash is the last.
structure NameChunk where
  star : Bool
  items? : Option (List NameItem)
deriving DecidableEq, Repr

abbrev NamePattern := List NameChunk

namespace NamePattern

-- The character that a name starts with and its length. A byte that starts no
-- character stands for the replacement character.
def charOf (name : Bytes) : Nat × Nat := (Utf8.head? name).getD (0xFFFD, 1)

-- One end of a range in brackets, perhaps behind a backslash. Something has to
-- follow it.
def rangeEnd? (text : Bytes) : Option (Nat × Bytes) :=
  let unescaped : Option Bytes :=
    match text with
    | [] => none
    | b :: rest =>
      if b == ThemeLint.byte '-' || b == ThemeLint.byte ']' then none
      else if b == ThemeLint.byte '\\' then some rest
      else some (b :: rest)
  match unescaped with
  | none => none
  | some text =>
    match Utf8.head? text with
    | none => none
    | some (code, width) =>
      let rest := text.drop width
      if rest.isEmpty then none else some (code, rest)

-- The ranges in brackets, from behind the opening one to behind the closing
-- one. There is at least one range, so that a bracket right at the start does
-- not close. The fuel is the length of the text.
def ranges? : Nat → List (Nat × Nat) → Bytes → Option (List (Nat × Nat) × Bytes)
  | 0, _, _ => none
  | fuel + 1, found, text =>
    if text.head? == some (ThemeLint.byte ']') && !found.isEmpty then
      some (found.reverse, text.drop 1)
    else
      match rangeEnd? text with
      | none => none
      | some (low, rest) =>
        if rest.head? == some (ThemeLint.byte '-') then
          match rangeEnd? (rest.drop 1) with
          | none => none
          | some (high, rest) => ranges? fuel ((low, high) :: found) rest
        else ranges? fuel ((low, low) :: found) rest

def items? : Nat → Bytes → Option (List NameItem)
  | 0, _ => some []
  | fuel + 1, text =>
    match text with
    | [] => some []
    | b :: rest =>
      if b == ThemeLint.byte '[' then
        let negated := rest.head? == some (ThemeLint.byte '^')
        let body := if negated then rest.drop 1 else rest
        match ranges? (body.length + 1) [] body with
        | none => none
        | some (ranges, rest) => (items? fuel rest).map (.oneOf negated ranges :: ·)
      else if b == ThemeLint.byte '?' then (items? fuel rest).map (.any :: ·)
      else if b == ThemeLint.byte '\\' then
        match rest with
        | [] => none
        | c :: rest => (items? fuel rest).map (.byte c :: ·)
      else (items? fuel rest).map (.byte b :: ·)

def chunkText (inBrackets : Bool) : Bytes → Bytes × Bytes
  | [] => ([], [])
  | b :: rest =>
    if b == ThemeLint.byte '\\' then
      match rest with
      | [] => ([b], [])
      | c :: rest =>
        let (chunk, after) := chunkText inBrackets rest
        (b :: c :: chunk, after)
    else if b == ThemeLint.byte '*' && !inBrackets then ([], b :: rest)
    else
      let inBrackets :=
        if b == ThemeLint.byte '[' then true
        else if b == ThemeLint.byte ']' then false
        else inBrackets
      let (chunk, after) := chunkText inBrackets rest
      (b :: chunk, after)

def chunks : Nat → Bytes → NamePattern
  | 0, _ => []
  | fuel + 1, text =>
    if text.isEmpty then []
    else
      let star := text.head? == some (ThemeLint.byte '*')
      let (chunk, rest) := chunkText false (text.dropWhile (· == ThemeLint.byte '*'))
      ⟨star, items? (chunk.length + 1) chunk⟩ :: chunks fuel rest

def parse (text : Bytes) : NamePattern := chunks (text.length + 1) text

def afterItems? : List NameItem → Bytes → Option Bytes
  | [], name => some name
  | _ :: _, [] => none
  | .byte b :: items, c :: name => if b == c then afterItems? items name else none
  | .any :: items, c :: name =>
    if c == ThemeLint.byte '/' then none
    else afterItems? items ((c :: name).drop (charOf (c :: name)).2)
  | .oneOf negated ranges :: items, c :: name =>
    let (code, width) := charOf (c :: name)
    if (ranges.any fun (low, high) => low ≤ code && code ≤ high) == negated then none
    else afterItems? items ((c :: name).drop width)

-- What is left behind the first place, further right, where the items fit. At
-- the end of a pattern nothing may be left. A star does not cross a slash.
def seek? (items : List NameItem) (isLast : Bool) : Bytes → Option Bytes
  | [] => none
  | b :: name =>
    if b == ThemeLint.byte '/' then none
    else match afterItems? items name with
      | some rest => if isLast && !rest.isEmpty then seek? items isLast name else some rest
      | none => seek? items isLast name

def afterChunk? (star : Bool) (items : List NameItem) (isLast : Bool) (name : Bytes) :
    Option Bytes :=
  let here := (afterItems? items name).filter fun left => left.isEmpty || !isLast
  if here.isNone && star then seek? items isLast name else here

-- Whether a name fits a pattern. A star takes as little as it can. There is no answer
-- once the name has come to a chunk that cannot be read; one that it does not come to
-- makes no difference.
def fits? : NamePattern → Bytes → Option Bool
  | [], name => some name.isEmpty
  | chunk :: rest, name =>
    match chunk.items? with
    | none => none
    | some items =>
      if chunk.star && items.isEmpty then some (!name.contains (ThemeLint.byte '/'))
      else match afterChunk? chunk.star items rest.isEmpty name with
        | some left => fits? rest left
        | none => some false

end NamePattern

end ThemeLint
