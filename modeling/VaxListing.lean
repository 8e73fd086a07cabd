import VaxListing.Bytes
import VaxListing.Command
import VaxListing.Command.Arguments
import VaxListing.Cursor
import VaxListing.Fault
import VaxListing.Hex
import VaxListing.Image
import VaxListing.Image.Config
import VaxListing.Image.Header
import VaxListing.Instruction
import VaxListing.Instruction.Encoding
import VaxListing.Listing
import VaxListing.Listing.Reader
import VaxListing.Listing.Row
import VaxListing.Listing.Sink
import VaxListing.Log
import VaxListing.Main
import VaxListing.Memory
import VaxListing.Opcode
import VaxListing.Opcode.Table
import VaxListing.Operand
import VaxListing.Operand.Encoding
import VaxListing.Operand.Mode
import VaxListing.Operand.Type
import VaxListing.Proofs.Format
import VaxListing.Proofs.OperandFormat
import VaxListing.Register
import VaxListing.Register.File
import VaxListing.Run
import VaxListing.Proofs.InstructionFormat
import VaxListing.Proofs.Run
import VaxListing.Proofs.Tour
import VaxListing.Proofs.Hexadecimal
import VaxListing.Proofs.OperandReference
import VaxListing.Proofs.Characters
import VaxListing.Proofs.PrintableText
import VaxListing.Proofs.ListingReader
import VaxListing.Proofs.Streaming
import VaxListing.Proofs.Progress
import VaxListing.Proofs.Termination
import VaxListing.Proofs.Padding
import VaxListing.Proofs.Locality
import VaxListing.Proofs.CodeSize
import VaxListing.Proofs.CommandOutput
import VaxListing.Proofs.HeaderStorage
import VaxListing.Proofs.ImageFile
import VaxListing.Proofs.Relocation
import VaxListing.Proofs.Layout
import VaxListing.Proofs.DecodingRecord
import VaxListing.Proofs.LogAccount
import VaxListing.Proofs.OperandReader
import VaxListing.Proofs.OperandAmbiguity
import VaxListing.Proofs.ImmediateOperand
import VaxListing.Proofs.InstructionText
import VaxListing.Proofs.RowLayout
import VaxListing.Proofs.RegisterHistory
import VaxListing.Proofs.MemoryHistory
import VaxListing.Proofs.FetchSequence
import VaxListing.Proofs.Displacement
