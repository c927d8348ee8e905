import CallTable.Files.Tree
import CallTable.Main
import CallTable.Proofs.Emission
import CallTable.Proofs.Signature.ParameterLine
import CallTable.Proofs.Signature.Block
import CallTable.Proofs.Signature.Dump
import CallTable.Proofs.Signature.Accounting
import CallTable.Proofs.Signature.Match
import CallTable.Proofs.Signature.Attribution
import CallTable.Proofs.Signature.PlainAlias
import CallTable.Proofs.Identifier
import CallTable.Proofs.TypeName
import CallTable.Proofs.Table.Line
import CallTable.Proofs.Table
import CallTable.Proofs.Generation
import CallTable.Proofs.LineEnd
import CallTable.Proofs.Table.ColumnOrder
import CallTable.Proofs.Wrapper.Reading
import CallTable.Proofs.Wrapper.Lined
import CallTable.Proofs.Wrapper.Recovery
import CallTable.Proofs.Text.Lower
import CallTable.Proofs.Identifier.Cut
import CallTable.Proofs.Identifier.Position
import CallTable.Proofs.Signature.LinePosition
import CallTable.Proofs.Signature.Sorting
import CallTable.Proofs.Files.Saving
import CallTable.Proofs.Command.Session
import CallTable.Proofs.Command.Effect
import CallTable.Proofs.Text.Reader
import CallTable.Proofs.Toml.Quoted
import CallTable.Proofs.Toml.Sheet
import CallTable.Proofs.Settings
import CallTable.Proofs.Table.Match
import CallTable.Proofs.Table.Cut
import CallTable.Proofs.Table.Appending
import CallTable.Proofs.Wrapper.Origin
import CallTable.Proofs.Wrapper.Naming
import CallTable.Proofs.TypeName.Pointer
import CallTable.MemberMap.Change
import CallTable.Proofs.MemberMap.LastEntry
import CallTable.Proofs.Text.ByteOrder
import CallTable.Proofs.Log
import CallTable.Proofs.MemberMap.History
import CallTable.Proofs.Repair
import CallTable.Proofs.Wrapper.MemberPrefix
import CallTable.Proofs.Settings.Bases
import CallTable.Proofs.Signature.WellFormed
