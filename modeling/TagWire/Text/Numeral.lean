import TagWire.Number.Word
import TagWire.Text.Hex

/-!
# Numerals

Sixty-four bit numbers as text.  A numeral is a sign that may be left out and
then one or more digits; leading zeros are allowed, and a value that does not
fit is no value.  Values are written in decimal, and in hexadecimal behind the
mark `0x`, where a minus sign stands before the mark.  On reading, the digits
behind the mark are a numeral of their own, so they may bring a sign.
-/

namespace TagWire

namespace Numeral

/-- Continues a number `value` by digits of the radix, which is ten or sixteen. -/
def digitsFrom? (radix value : Nat) : List Char → Option Nat
  | [] => some value
  | char :: rest =>
    match Hex.digitValue? char.toNat with
    | none => none
    | some digit =>
      if digit < radix then digitsFrom? radix (value * radix + digit) rest
      else none

def digits? (radix : Nat) : List Char → Option Nat
  | [] => none
  | chars => digitsFrom? radix 0 chars

def natural? (radix : Nat) : List Char → Option Nat
  | '+' :: chars => digits? radix chars
  | chars => digits? radix chars

def integer? (radix : Nat) : List Char → Option Int
  | '-' :: chars => (digits? radix chars).map fun magnitude => -(magnitude : Int)
  | chars => (natural? radix chars).map Int.ofNat

def toUInt64? (value : Nat) : Option UInt64 :=
  if value < Word.limit then some (UInt64.ofNat value) else none

def toInt64? (value : Int) : Option Int64 :=
  if -(Word.signedLimit : Int) ≤ value ∧ value < Word.signedLimit then
    some (Int64.ofInt value)
  else none

def afterMark? : List Char → Option (List Char)
  | '0' :: 'x' :: chars => some chars
  | _ => none

def unsignedDecimal? (text : String) : Option UInt64 :=
  natural? 10 text.toList >>= toUInt64?

def signedDecimal? (text : String) : Option Int64 :=
  integer? 10 text.toList >>= toInt64?

def unsignedHex? (text : String) : Option UInt64 :=
  afterMark? text.toList >>= natural? 16 >>= toUInt64?

/-- Reads a signed word in hexadecimal.  Behind a minus sign stands the
magnitude, which is a word and may be one more than the largest value. -/
def signedHex? (text : String) : Option Int64 :=
  match text.toList with
  | '-' :: chars => do
    let magnitude ← afterMark? chars >>= natural? 16 >>= toUInt64?
    toInt64? (-(magnitude.toNat : Int))
  | chars => afterMark? chars >>= integer? 16 >>= toInt64?

def unsignedDecimal (value : UInt64) : String :=
  toString value.toNat

def signedDecimal (value : Int64) : String :=
  toString value.toInt

def unsignedHex (value : UInt64) : String :=
  "0x" ++ Hex.ofNat value.toNat

def signedHex (value : Int64) : String :=
  if value.toInt < 0 then "-0x" ++ Hex.ofNat value.toInt.natAbs
  else "0x" ++ Hex.ofNat value.toInt.natAbs

end Numeral

end TagWire
