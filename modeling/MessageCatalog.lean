import MessageCatalog.Code.Config
import MessageCatalog.Code.Decoder
import MessageCatalog.Code.Dispatch
import MessageCatalog.Code.Encoder
import MessageCatalog.Code.Generate
import MessageCatalog.Code.Lexer
import MessageCatalog.Code.Literal
import MessageCatalog.Code.Record
import MessageCatalog.Code.Token
import MessageCatalog.CommandLine.Options
import MessageCatalog.CommandLine.Run
import MessageCatalog.Error
import MessageCatalog.FieldType
import MessageCatalog.Files.Access
import MessageCatalog.Files.Compile
import MessageCatalog.Files.System
import MessageCatalog.Files.Tree
import MessageCatalog.Frequency
import MessageCatalog.Main
import MessageCatalog.Naming
import MessageCatalog.Proofs.Clashes
import MessageCatalog.Proofs.Code.Availability
import MessageCatalog.Proofs.Code.BlockCodecs
import MessageCatalog.Proofs.Code.Leaves
import MessageCatalog.Proofs.Code.LineNumbers
import MessageCatalog.Proofs.Code.Literals
import MessageCatalog.Proofs.Code.MessageCodecs
import MessageCatalog.Proofs.Code.Names
import MessageCatalog.Proofs.Code.QuietWords
import MessageCatalog.Proofs.Code.ReadExpressions
import MessageCatalog.Proofs.Code.Reading
import MessageCatalog.Proofs.Code.Recognition
import MessageCatalog.Proofs.Code.Records
import MessageCatalog.Proofs.Code.Surface
import MessageCatalog.Proofs.Code.TypeNames
import MessageCatalog.Proofs.Code.WriteStatements
import MessageCatalog.Proofs.Files.Laws
import MessageCatalog.Proofs.Files.Paths
import MessageCatalog.Proofs.Files.Replacement
import MessageCatalog.Proofs.Files.Tree
import MessageCatalog.Proofs.Naming
import MessageCatalog.Proofs.Outcomes
import MessageCatalog.Proofs.Sequences
import MessageCatalog.Proofs.Sites
import MessageCatalog.Proofs.SnakeCase
import MessageCatalog.Proofs.Source.Completeness
import MessageCatalog.Proofs.Source.Entries
import MessageCatalog.Proofs.Source.Expectations
import MessageCatalog.Proofs.Source.Layout
import MessageCatalog.Proofs.Source.LineByLine
import MessageCatalog.Proofs.Source.LineForms
import MessageCatalog.Proofs.Source.Lines
import MessageCatalog.Proofs.Source.Regions
import MessageCatalog.Proofs.Source.Relayout
import MessageCatalog.Proofs.Source.Renumbering
import MessageCatalog.Proofs.Source.Roles
import MessageCatalog.Proofs.Source.Scanning
import MessageCatalog.Proofs.Source.Segmentation
import MessageCatalog.Proofs.Source.Significance
import MessageCatalog.Proofs.Source.Soundness
import MessageCatalog.Proofs.Source.Spelling
import MessageCatalog.Proofs.Source.Writing
import MessageCatalog.Proofs.Text.Capitals
import MessageCatalog.Proofs.Text.Numerals
import MessageCatalog.Proofs.Text.Quoted
import MessageCatalog.Proofs.Uniqueness
import MessageCatalog.Proofs.Validity
import MessageCatalog.Proofs.Wire.Blame
import MessageCatalog.Proofs.Wire.Bytes
import MessageCatalog.Proofs.Wire.Canonical
import MessageCatalog.Proofs.Wire.Delivery
import MessageCatalog.Proofs.Wire.Dispatch
import MessageCatalog.Proofs.Wire.Extension
import MessageCatalog.Proofs.Wire.Failures
import MessageCatalog.Proofs.Wire.Identifier
import MessageCatalog.Proofs.Wire.LeastLength
import MessageCatalog.Proofs.Wire.PrefixCode
import MessageCatalog.Proofs.Wire.Queue
import MessageCatalog.Proofs.Wire.Reading
import MessageCatalog.Proofs.Wire.RoundTrip
import MessageCatalog.Proofs.Wire.Truncation
import MessageCatalog.Proofs.Wire.Units
import MessageCatalog.Proofs.Wire.Writing
import MessageCatalog.Source.Entry
import MessageCatalog.Source.Line
import MessageCatalog.Source.Parse
import MessageCatalog.Source.Region
import MessageCatalog.Source.Scan
import MessageCatalog.Template
import MessageCatalog.Text.Blank
import MessageCatalog.Text.Letters
import MessageCatalog.Text.Literal
import MessageCatalog.Text.Numeral
import MessageCatalog.Text.Ranges
import MessageCatalog.Text.Visible
import MessageCatalog.Uniqueness
import MessageCatalog.Wire.Bytes
import MessageCatalog.Wire.Catalog
import MessageCatalog.Wire.Decode
import MessageCatalog.Wire.Encode
import MessageCatalog.Wire.Quaternion
import MessageCatalog.Wire.Stream
import MessageCatalog.Wire.Value
