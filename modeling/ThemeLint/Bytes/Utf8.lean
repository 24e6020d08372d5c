import ThemeLint.Bytes

namespace ThemeLint.Utf8

-- What a leading byte announces: how many continuation bytes follow, and the
-- range of the first of them. The ranges exclude overlong forms, surrogates and
-- numbers past the last code point.
structure Lead where
  more : Nat
  low : UInt8
  high : UInt8
deriving DecidableEq, Repr

def lead? (b : UInt8) : Option Lead :=
  if 0xC2 ≤ b && b ≤ 0xDF then some ⟨1, 0x80, 0xBF⟩
  else if b == 0xE0 then some ⟨2, 0xA0, 0xBF⟩
  else if b == 0xED then some ⟨2, 0x80, 0x9F⟩
  else if 0xE1 ≤ b && b ≤ 0xEF then some ⟨2, 0x80, 0xBF⟩
  else if b == 0xF0 then some ⟨3, 0x90, 0xBF⟩
  else if 0xF1 ≤ b && b ≤ 0xF3 then some ⟨3, 0x80, 0xBF⟩
  else if b == 0xF4 then some ⟨3, 0x80, 0x8F⟩
  else none

-- Between two bytes the check either stands at the start of a character, waits
-- for continuation bytes, or has failed for good.
inductive State where
  | start
  | inside (lead : Lead)
  | failed
deriving DecidableEq, Repr

def step : State → UInt8 → State
  | .start, b =>
    if b < 0x80 then .start
    else match lead? b with
      | some lead => .inside lead
      | none => .failed
  | .inside lead, b =>
    if lead.low ≤ b && b ≤ lead.high then
      if lead.more ≤ 1 then .start else .inside ⟨lead.more - 1, 0x80, 0xBF⟩
    else .failed
  | .failed, _ => .failed

def valid (text : Bytes) : Bool := text.foldl step .start == .start

def complete? : Nat → UInt8 → UInt8 → Nat → Bytes → Option Nat
  | 0, _, _, code, _ => some code
  | _ + 1, _, _, _, [] => none
  | more + 1, low, high, code, b :: rest =>
    if low ≤ b && b ≤ high then complete? more 0x80 0xBF (code * 64 + (b - 0x80).toNat) rest
    else none

def head? : Bytes → Option (Nat × Nat)
  | [] => none
  | b :: rest =>
    if b < 0x80 then some (b.toNat, 1)
    else match lead? b with
      | none => none
      | some lead =>
        -- a leading byte carries 5, 4 or 3 bits of the code point
        let bits := b.toNat % (Nat.pow 2 (6 - lead.more))
        (complete? lead.more lead.low lead.high bits rest).map fun code => (code, lead.more + 1)

-- A text falls into characters and stray bytes that belong to none.
inductive Piece where
  | char (code : Nat) (text : Bytes)
  | stray (b : UInt8)
deriving DecidableEq, Repr

namespace Piece

def text : Piece → Bytes
  | char _ text => text
  | stray b => [b]

end Piece

-- `skip` counts the bytes that still belong to the last character.
def piecesFrom (skip : Nat) : Bytes → List Piece → List Piece
  | [], found => found.reverse
  | b :: rest, found =>
    match skip with
    | skip + 1 => piecesFrom skip rest found
    | 0 =>
      match head? (b :: rest) with
      | some (code, width) =>
        piecesFrom (width - 1) rest (.char code ((b :: rest).take width) :: found)
      | none => piecesFrom 0 rest (.stray b :: found)

def pieces (text : Bytes) : List Piece := piecesFrom 0 text []

def encode (code : Nat) : Bytes :=
  if code < 0x80 then [code.toUInt8]
  else if code < 0x800 then [(0xC0 + code / 64).toUInt8, (0x80 + code % 64).toUInt8]
  else if code < 0x10000 then
    [(0xE0 + code / 4096).toUInt8, (0x80 + code / 64 % 64).toUInt8, (0x80 + code % 64).toUInt8]
  else
    [(0xF0 + code / 262144).toUInt8, (0x80 + code / 4096 % 64).toUInt8,
      (0x80 + code / 64 % 64).toUInt8, (0x80 + code % 64).toUInt8]

def isScalar (code : Nat) : Bool := code < 0xD800 || (0xE000 ≤ code && code < 0x110000)

end ThemeLint.Utf8
