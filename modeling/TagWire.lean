import TagWire.Files.Tree
import TagWire.Main
import TagWire.Packet.Transcript
import TagWire.Proofs.Buffer.Peeking
import TagWire.Proofs.Buffer.RoundTrip
import TagWire.Proofs.Buffer.Splicing
import TagWire.Proofs.Decoders
import TagWire.Proofs.Forms
import TagWire.Proofs.Number.Varint
import TagWire.Proofs.Packet.Accessors
import TagWire.Proofs.Packet.Clearing
import TagWire.Proofs.Packet.Copying
import TagWire.Proofs.Packet.FixedMemory
import TagWire.Proofs.Packet.History
import TagWire.Proofs.Packet.Opening
import TagWire.Proofs.Packet.Parts
import TagWire.Proofs.Packet.Reading
import TagWire.Proofs.Packet.Rollback
import TagWire.Proofs.Packet.RoundTrip
import TagWire.Proofs.Packet.Truncation
import TagWire.Proofs.Lending
import TagWire.Proofs.Vector.Layout
import TagWire.Proofs.Vector.Building
import TagWire.Proofs.Tag.Tiers
import TagWire.Proofs.Payload.Locating
import TagWire.Proofs.Buffer.Texts
import TagWire.Proofs.Payload.FixedWidth
import TagWire.Proofs.Buffer.ShortPayloads
import TagWire.Proofs.Buffer.Reserving
import TagWire.Proofs.Packet.Marks
import TagWire.Proofs.Buffer.SignedWords
import TagWire.Proofs.Vector.Reencoding
import TagWire.Proofs.Files.Directories
import TagWire.Proofs.Vector.Generating
import TagWire.Proofs.Text.Signs
import TagWire.Proofs.Toml.Strings
import TagWire.Proofs.Toml.Printing
import TagWire.Proofs.Settings
