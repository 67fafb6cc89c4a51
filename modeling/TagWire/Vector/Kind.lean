/-!
# Kinds of vector files

A vector file holds cases for one codec.  Every implementation of the wire
format shares the same five files.
-/

namespace TagWire

/-- What the cases of a vector file are about. -/
inductive Kind
  /-- Words of variable length. -/
  | unsigned
  /-- Signed words of variable length. -/
  | signed
  /-- Tags of fields. -/
  | tag
  /-- Bytes behind their length. -/
  | bytes
  /-- Text with a zero byte at its end, behind its length. -/
  | text
  deriving DecidableEq, Repr

namespace Kind

def all : List Kind := [unsigned, signed, tag, bytes, text]

def name : Kind → String
  | unsigned => "varint_unsigned"
  | signed => "varint_signed"
  | tag => "typdex"
  | bytes => "varlen_bytes"
  | text => "varlen_strings"

def ofName? (name : String) : Option Kind :=
  all.find? fun kind => kind.name == name

def fileName (kind : Kind) : String := kind.name ++ ".json"

end Kind

end TagWire
