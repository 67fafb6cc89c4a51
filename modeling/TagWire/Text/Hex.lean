/-!
# Hexadecimal text

Two digits stand for each byte.  Reading takes digits of either case and names
the first byte of the text that is no digit; writing uses lower-case digits.
-/

namespace TagWire

namespace Hex

/-- Why a text is not the hexadecimal form of bytes.  The text is judged by its
bytes, so the offending one may be part of a longer character. -/
inductive Fault
  | oddLength
  | notADigit (byte : UInt8) (position : Nat)
  deriving DecidableEq, Repr

def digit (value : Nat) : Char :=
  Char.ofNat (if value < 10 then 0x30 + value else 0x57 + value)

def digitValue? (code : Nat) : Option Nat :=
  if 0x30 ≤ code ∧ code ≤ 0x39 then some (code - 0x30)
  else if 0x41 ≤ code ∧ code ≤ 0x46 then some (code - 0x37)
  else if 0x61 ≤ code ∧ code ≤ 0x66 then some (code - 0x57)
  else none

/-- The two digits of a byte. -/
def byteDigits (byte : UInt8) : List Char :=
  [digit (byte.toNat / 16), digit (byte.toNat % 16)]

/-- Writes bytes as lower-case digits. -/
def encode (bytes : List UInt8) : String :=
  String.ofList (bytes.flatMap byteDigits)

/-- Reads pairs of digits from the given position on, after the bytes `read`,
latest first. -/
def decodeFrom (position : Nat) (read : List UInt8) :
    List UInt8 → Except Fault (List UInt8)
  | [] => .ok read.reverse
  | [_] => .error .oddLength
  | high :: low :: rest =>
    match digitValue? high.toNat with
    | none => .error (.notADigit high position)
    | some highValue =>
      match digitValue? low.toNat with
      | none => .error (.notADigit low (position + 1))
      | some lowValue =>
        decodeFrom (position + 2)
          (UInt8.ofNat (highValue * 16 + lowValue) :: read) rest

/-- Reads the bytes of a text as digits.  A length that cannot be right is
reported before any digit is looked at. -/
def decode (text : List UInt8) : Except Fault (List UInt8) :=
  if text.length % 2 = 1 then .error .oddLength else decodeFrom 0 [] text

def ofNat (value : Nat) : String :=
  String.ofList (Nat.toDigits 16 value)

def upperByte (byte : UInt8) : String :=
  String.ofList ((byteDigits byte).map Char.toUpper)

end Hex

end TagWire
