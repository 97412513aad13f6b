import ByteEmbed.Digit
import ByteEmbed.Hex
import ByteEmbed.Size
import ByteEmbed.Text.Lines
import ByteEmbed.Text.Utf8
import ByteEmbed.Literal.Spelling
import ByteEmbed.Literal.Basic
import ByteEmbed.Literal.Body
import ByteEmbed.Naming.Identifier
import ByteEmbed.Naming.Xoshiro
import ByteEmbed.Naming.Namer
import ByteEmbed.Symbol
import ByteEmbed.Listing.Line
import ByteEmbed.Listing.Collector
import ByteEmbed.SectionTotal
import ByteEmbed.Declaration
import ByteEmbed.Scope
import ByteEmbed.Snippet
import ByteEmbed.Yaml.Problem
import ByteEmbed.Yaml.Cursor
import ByteEmbed.Yaml.Token
import ByteEmbed.Yaml.Scalar
import ByteEmbed.Yaml.Tag
import ByteEmbed.Yaml.Tokens
import ByteEmbed.Yaml.Node
import ByteEmbed.Yaml.Document
import ByteEmbed.Settings
import ByteEmbed.Program.Console
import ByteEmbed.Program.Summary
import ByteEmbed.Program.Host
import ByteEmbed.Program.FileTree
import ByteEmbed.Program.Sandbox
import ByteEmbed.Program.Arguments
import ByteEmbed.Program.Invocation
import ByteEmbed.Program.Failure
import ByteEmbed.Program.Readers
import ByteEmbed.Program.Session
import ByteEmbed.Main
import ByteEmbed.Proofs.Digit
import ByteEmbed.Proofs.Hex
import ByteEmbed.Proofs.Symbol
import ByteEmbed.Proofs.Text.Lines
import ByteEmbed.Proofs.Text.Blocks
import ByteEmbed.Proofs.SectionTotal
import ByteEmbed.Proofs.Literal.Spelling
import ByteEmbed.Proofs.Literal.Chunk
import ByteEmbed.Proofs.Literal.Piece
import ByteEmbed.Proofs.Literal.Reading
import ByteEmbed.Proofs.Literal.RoundTrip
import ByteEmbed.Proofs.CLiteral.Reader
import ByteEmbed.Proofs.CLiteral.Spelling
import ByteEmbed.Proofs.Declaration.Initializer
import ByteEmbed.Proofs.Listing.Line
import ByteEmbed.Proofs.Listing.Step
import ByteEmbed.Proofs.Listing.Group
import ByteEmbed.Proofs.Listing.Collected
import ByteEmbed.Proofs.Listing.Printed
import ByteEmbed.Proofs.Listing.ReadBack
import ByteEmbed.Proofs.Listing.FirstRefusal
import ByteEmbed.Proofs.Listing.Spoiled
import ByteEmbed.Proofs.Literal.Grammar
import ByteEmbed.Proofs.Literal.Offence
import ByteEmbed.Proofs.Literal.Numeric
import ByteEmbed.Proofs.Literal.Joined
import ByteEmbed.Proofs.Literal.Cut
import ByteEmbed.Proofs.Literal.Fewest
import ByteEmbed.Proofs.Literal.Needed
import ByteEmbed.Proofs.Literal.Growing
import ByteEmbed.Proofs.Listing.Naming
import ByteEmbed.Proofs.Listing.Origin
import ByteEmbed.Proofs.CLiteral.Verbatim
import ByteEmbed.Proofs.Declaration.Head
import ByteEmbed.Proofs.Declaration.Separated
import ByteEmbed.Proofs.Program.FileTree
import ByteEmbed.Proofs.Program.Steps
import ByteEmbed.Proofs.Program.Equations
import ByteEmbed.Proofs.Program.Frames
import ByteEmbed.Proofs.Program.Cleared
import ByteEmbed.Proofs.Program.Ordered
import ByteEmbed.Proofs.Program.Stages
import ByteEmbed.Proofs.Program.InOrder
import ByteEmbed.Proofs.Program.Paths
import ByteEmbed.Proofs.Program.Temporary
import ByteEmbed.Proofs.CLiteral.Weight
import ByteEmbed.Proofs.Listing.Ordinal
import ByteEmbed.Proofs.Listing.Pieces
import ByteEmbed.Proofs.Listing.LineEnds
import ByteEmbed.Proofs.Listing.SectionName
import ByteEmbed.Proofs.Snippet
import ByteEmbed.Proofs.Snippet.Lines
