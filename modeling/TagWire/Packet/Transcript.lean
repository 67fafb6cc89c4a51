import TagWire.Packet.Reader

/-!
# Copying packets

Records are read from bytes and appended to a writer one by one, until one of
the two fails.  The copy has every record in its shortest form.
-/

namespace TagWire

/-- How far a copy got: the records that were read, why it stopped, the number
of bytes read and the writer behind the last record. -/
structure Transcript where
  fields : List Field
  stop : WireError
  position : Nat
  writer : Writer
  deriving Repr

namespace Transcript

/-- Copies records from the bytes to the writer. -/
def copy (bytes : List UInt8) (writer : Writer) : Transcript :=
  match _ : Field.decode bytes with
  | .error stop => { fields := [], stop, position := 0, writer }
  | .ok (field, length) =>
    match Writer.append field writer with
    | .error stop writer =>
      { fields := [field], stop, position := length, writer }
    | .ok () writer =>
      let rest := copy (bytes.drop length) writer
      { rest with
        fields := field :: rest.fields
        position := length + rest.position }
termination_by bytes.length
decreasing_by exact Field.decode_shortens ‹_›

end Transcript

end TagWire
