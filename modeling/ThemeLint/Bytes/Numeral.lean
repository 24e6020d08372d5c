import ThemeLint.Bytes

namespace ThemeLint.Numeral

open Bytes

def digit? (b : UInt8) : Option Nat :=
  if isDigit b then some (b - byte '0').toNat
  else if isHexDigit b then some ((toLower b - byte 'a').toNat + 10)
  else none

def natOf? (base : Nat) (digits : Bytes) : Option Nat :=
  if digits.isEmpty then none
  else digits.foldl (fun value b => do
    let value ← value
    let d ← digit? b
    if d < base then some (value * base + d) else none) (some 0)

-- The base of an unsigned number by its start: 0x, 0o and 0b in either case, or
-- a zero for octal. A lone zero is a decimal number.
def detectBase (text : Bytes) : Nat × Bytes :=
  match text with
  | z :: mark :: rest =>
    if z != byte '0' then (10, text)
    else if rest.isEmpty then (8, mark :: rest)
    else if toLower mark == byte 'x' then (16, rest)
    else if toLower mark == byte 'o' then (8, rest)
    else if toLower mark == byte 'b' then (2, rest)
    else (8, mark :: rest)
  | _ => (10, text)

def splitSign (text : Bytes) : Option UInt8 × Bytes :=
  match text with
  | b :: rest => if b == byte '+' || b == byte '-' then (some b, rest) else (none, text)
  | [] => (none, [])

-- Whether a number with this sign fits into 64 bits, signed or, without a sign,
-- unsigned.
def fits64 (sign : Option UInt8) (value : Nat) : Bool :=
  if sign == some (byte '-') then value ≤ Nat.pow 2 63
  else if sign == some (byte '+') then value < Nat.pow 2 63
  else value < Nat.pow 2 64

-- A decimal fraction: its digits without the point, and the power of ten that
-- the last of them counts.
structure Decimal where
  digits : Bytes
  exponent : Int

def decimal? (text : Bytes) : Option Decimal :=
  let whole := text.takeWhile isDigit
  let rest := text.dropWhile isDigit
  let hasPoint := rest.head? == some (byte '.')
  let behind := if hasPoint then rest.drop 1 else rest
  let fraction := if hasPoint then behind.takeWhile isDigit else []
  let rest := if hasPoint then behind.dropWhile isDigit else behind
  let digits := whole ++ fraction
  if digits.isEmpty then none
  else
    match rest with
    | [] => some ⟨digits, -(fraction.length : Int)⟩
    | e :: power =>
      if toLower e != byte 'e' then none
      else
        let (sign, power) := splitSign power
        match natOf? 10 power with
        | none => none
        | some n =>
          let n : Int := if sign == some (byte '-') then -(n : Int) else n
          some ⟨digits, n - (fraction.length : Int)⟩

-- Numbers from here on round to infinity: the middle between the largest double
-- and the power of two above it.
def overflowLimit : Nat := Nat.pow 2 1024 - Nat.pow 2 970

-- Whether a decimal is too large for a double. The number of its digits decides
-- except close to the limit.
def overflows (d : Decimal) : Bool :=
  let significant := d.digits.dropWhile (· == byte '0')
  let magnitude : Int := significant.length + d.exponent
  if significant.isEmpty then false
  else if magnitude > 310 then true
  else if magnitude < 308 then false
  else
    let mantissa := (natOf? 10 significant).getD 0
    if d.exponent ≥ 0 then mantissa * Nat.pow 10 d.exponent.toNat ≥ overflowLimit
    else mantissa ≥ overflowLimit * Nat.pow 10 (-d.exponent).toNat

end ThemeLint.Numeral
