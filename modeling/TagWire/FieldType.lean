/-!
# Types of packet fields

A field's type travels as a small code inside the field's tag.  Two codes are
set aside for containers and have no values yet.
-/

namespace TagWire

/-- What kind of value a packet field holds. -/
inductive FieldType
  | eof
  | bool
  | int
  | uint
  | float
  | double
  | text
  | bytes
  | array
  | map
  | version
  deriving DecidableEq, Repr

namespace FieldType

def code : FieldType → UInt8
  | eof => 0x0
  | bool => 0x1
  | int => 0x2
  | uint => 0x3
  | float => 0x4
  | double => 0x5
  | text => 0x6
  | bytes => 0x7
  | array => 0x8
  | map => 0x9
  | version => 0xF

def all : List FieldType :=
  [eof, bool, int, uint, float, double, text, bytes, array, map, version]

def ofCode? (code : UInt8) : Option FieldType :=
  all.find? fun type => type.code == code

def isReserved : FieldType → Bool
  | array | map => true
  | _ => false

def name : FieldType → String
  | eof => "Eof"
  | bool => "Bool"
  | int => "Int"
  | uint => "Uint"
  | float => "Float"
  | double => "Double"
  | text => "String"
  | bytes => "Bytes"
  | array => "Array"
  | map => "Map"
  | version => "Version"

end FieldType

end TagWire
