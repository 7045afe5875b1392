import RetroListing.CommandLine.Argument
import RetroListing.CommandLine.Invocation
import RetroListing.CommandLine.Program
import RetroListing.CommandLine.Value
import RetroListing.Comment.File
import RetroListing.Comment.Store
import RetroListing.Comment.Table
import RetroListing.Complaint
import RetroListing.Cpu.Basic
import RetroListing.Cpu.Decoder
import RetroListing.Cpu.Mos6502
import RetroListing.Cursor
import RetroListing.Files.Disk
import RetroListing.Files.Fault
import RetroListing.Files.Path
import RetroListing.Json.Basic
import RetroListing.Json.Parser
import RetroListing.Json.Text
import RetroListing.Json.Token
import RetroListing.Language
import RetroListing.Listing.Disassembly
import RetroListing.Listing.Line
import RetroListing.Listing.Prg
import RetroListing.Listing.Transcript
import RetroListing.Listing.Window
import RetroListing.Main
import RetroListing.Notice
import RetroListing.OrderedMap
import RetroListing.Platform.Basic
import RetroListing.Platform.Bundled
import RetroListing.Platform.Region
import RetroListing.Profile.Basic
import RetroListing.Profile.Bundled
import RetroListing.Profile.Registry
import RetroListing.Settings.Basic
import RetroListing.Settings.Format
import RetroListing.Settings.Store
import RetroListing.Text.Blank
import RetroListing.Text.Case
import RetroListing.Text.Escaped
import RetroListing.Text.Hex
import RetroListing.Text.Numeral
import RetroListing.Text.Quoted
import RetroListing.Voice.Cell
import RetroListing.Voice.Command
import RetroListing.Voice.Note
import RetroListing.Proofs.Profile.Change
import RetroListing.Proofs.Profile.Lineage
import RetroListing.Proofs.Profile.Delegation
import RetroListing.Proofs.Profile.Overlay
import RetroListing.Proofs.Cpu.Encoding
import RetroListing.Proofs.Listing.Scan
import RetroListing.Proofs.Listing.Coverage
import RetroListing.Proofs.Text.Blank
import RetroListing.Proofs.Text.Numeral
import RetroListing.Proofs.Comment.File
import RetroListing.Proofs.Comment.Grammar
import RetroListing.Proofs.Comment.RoundTrip
import RetroListing.Proofs.Profile.Texts
import RetroListing.Proofs.Listing.Rendering
import RetroListing.Proofs.CommandLine.Outcome
import RetroListing.Proofs.Listing.Window
import RetroListing.Proofs.CommandLine.Addresses
import RetroListing.Proofs.Json.RoundTrip
import RetroListing.Proofs.Settings.RoundTrip
import RetroListing.Proofs.Profile.Switching
import RetroListing.Proofs.Settings.Toggles
import RetroListing.Proofs.Profile.Bundled
import RetroListing.Proofs.CommandLine.Flags
import RetroListing.Proofs.Listing.Hiding
import RetroListing.Proofs.Comment.History
import RetroListing.Proofs.Comment.Conflicts
import RetroListing.Proofs.Comment.Reordering
import RetroListing.Proofs.Listing.Relocation
import RetroListing.Proofs.Listing.Splitting
import RetroListing.Proofs.Voice.Command
import RetroListing.Proofs.Voice.Note
import RetroListing.Proofs.Voice.Cell
import RetroListing.Proofs.Listing.Transcript
import RetroListing.Proofs.Listing.Languages
import RetroListing.Proofs.Listing.Circle
import RetroListing.Proofs.CommandLine.Number
