import SchemaServer.Main
import SchemaServer.Proofs.Rename.Overlap
import SchemaServer.Proofs.Rename.Binding
import SchemaServer.Proofs.Rename.ForeignLists
import SchemaServer.Proofs.Rename.BlockMapping
import SchemaServer.Proofs.Rename.Composition
import SchemaServer.Proofs.Edit.Swap
import SchemaServer.Proofs.Text.Zone
import SchemaServer.Proofs.Text.Elements
import SchemaServer.Proofs.Rename.FieldLists
import SchemaServer.Proofs.PhysicalName
import SchemaServer.Proofs.Rename.PhysicalName
import SchemaServer.Proofs.Block.Owner
import SchemaServer.Proofs.Edit.Covers
import SchemaServer.Proofs.Rename.ExactSpans
import SchemaServer.Proofs.Guarded.Line
import SchemaServer.Proofs.Rename.Preparation
import SchemaServer.Proofs.Guarded.Document
import SchemaServer.Proofs.Guarded.Rename
import SchemaServer.Proofs.Guarded.Requests
import SchemaServer.Proofs.Rename.ExactTypes
import SchemaServer.Proofs.Rename.DefaultValues
import SchemaServer.Proofs.Document.Offsets
import SchemaServer.Proofs.Server.History
import SchemaServer.Proofs.Server.Diagnostics
import SchemaServer.Proofs.Server.Interleaving
import SchemaServer.Proofs.Server.FormatterRuns
import SchemaServer.Proofs.Server.Formatting
import SchemaServer.Proofs.Text.Columns
import SchemaServer.Proofs.FieldTable
import SchemaServer.Proofs.Navigation
import SchemaServer.Proofs.Text.Identifier
import SchemaServer.Proofs.Edit.Disjoint
import SchemaServer.Proofs.KeyCompletion
import SchemaServer.Proofs.QuickFix
import SchemaServer.Proofs.Spelling.Misranking
import SchemaServer.Proofs.Cursor
