import ThemeLint.Bytes

namespace ThemeLint.Bytes

def base64Digit (n : Nat) : UInt8 :=
  if n < 26 then byte 'A' + n.toUInt8
  else if n < 52 then byte 'a' + (n - 26).toUInt8
  else if n < 62 then byte '0' + (n - 52).toUInt8
  else if n = 62 then byte '+'
  else byte '/'

-- Three bytes are written as four digits; equals signs fill up the last group.
def base64 : Bytes → Bytes
  | [] => []
  | [a] => [base64Digit (a.toNat / 4), base64Digit (a.toNat % 4 * 16), byte '=', byte '=']
  | [a, b] =>
    [base64Digit (a.toNat / 4), base64Digit (a.toNat % 4 * 16 + b.toNat / 16),
      base64Digit (b.toNat % 16 * 4), byte '=']
  | a :: b :: c :: rest =>
    base64Digit (a.toNat / 4) :: base64Digit (a.toNat % 4 * 16 + b.toNat / 16) ::
      base64Digit (b.toNat % 16 * 4 + c.toNat / 64) :: base64Digit (c.toNat % 64) :: base64 rest

end ThemeLint.Bytes
