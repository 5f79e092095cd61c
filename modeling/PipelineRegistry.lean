import PipelineRegistry.Calendar.Date
import PipelineRegistry.Calendar.Reader
import PipelineRegistry.Calendar.Timestamp
import PipelineRegistry.CommandLine.Arguments
import PipelineRegistry.CommandLine.Command
import PipelineRegistry.CommandLine.Form
import PipelineRegistry.CommandLine.Message
import PipelineRegistry.CommandLine.Report
import PipelineRegistry.CommandLine.Run
import PipelineRegistry.CommandLine.Style
import PipelineRegistry.CommandLine.Table
import PipelineRegistry.CommandLine.Tree
import PipelineRegistry.Decimal.Notation
import PipelineRegistry.Decimal.Shortest
import PipelineRegistry.Document.Decode
import PipelineRegistry.Document.DecodeError
import PipelineRegistry.Document.Encode
import PipelineRegistry.Document.Record
import PipelineRegistry.Entity
import PipelineRegistry.Json.Basic
import PipelineRegistry.Json.Fault
import PipelineRegistry.Json.Number
import PipelineRegistry.Json.Reader
import PipelineRegistry.Json.Token
import PipelineRegistry.Json.Writer
import PipelineRegistry.Listing
import PipelineRegistry.Main
import PipelineRegistry.Path
import PipelineRegistry.Proofs.Calendar.Timestamp
import PipelineRegistry.Proofs.Chain
import PipelineRegistry.Proofs.CommandLine.Aftermath
import PipelineRegistry.Proofs.CommandLine.Orders
import PipelineRegistry.Proofs.CommandLine.Processes
import PipelineRegistry.Proofs.CommandLine.Refusal
import PipelineRegistry.Proofs.CommandLine.Spelling
import PipelineRegistry.Proofs.CommandLine.Table
import PipelineRegistry.Proofs.CommandLine.Totals
import PipelineRegistry.Proofs.CommandLine.Tree
import PipelineRegistry.Proofs.Document.Acceptance
import PipelineRegistry.Proofs.Document.Decode
import PipelineRegistry.Proofs.Document.Entities
import PipelineRegistry.Proofs.Document.Layout
import PipelineRegistry.Proofs.Document.Rearrangement
import PipelineRegistry.Proofs.Document.Record
import PipelineRegistry.Proofs.Document.Refinement
import PipelineRegistry.Proofs.Document.RoundTrip
import PipelineRegistry.Proofs.Document.Tree
import PipelineRegistry.Proofs.Document.Violations
import PipelineRegistry.Proofs.Json.Number
import PipelineRegistry.Proofs.Json.Reader
import PipelineRegistry.Proofs.Json.Token
import PipelineRegistry.Proofs.Listing
import PipelineRegistry.Proofs.Path
import PipelineRegistry.Proofs.Registry.Adoption
import PipelineRegistry.Proofs.Registry.Agreement
import PipelineRegistry.Proofs.Registry.Bounds
import PipelineRegistry.Proofs.Registry.Changes
import PipelineRegistry.Proofs.Registry.Commutation
import PipelineRegistry.Proofs.Registry.Counting
import PipelineRegistry.Proofs.Registry.Creation
import PipelineRegistry.Proofs.Registry.Dated
import PipelineRegistry.Proofs.Registry.Dates
import PipelineRegistry.Proofs.Registry.Dissolution
import PipelineRegistry.Proofs.Registry.Edit
import PipelineRegistry.Proofs.Registry.Editing
import PipelineRegistry.Proofs.Registry.Failure
import PipelineRegistry.Proofs.Registry.Ids
import PipelineRegistry.Proofs.Registry.Loading
import PipelineRegistry.Proofs.Registry.Lookup
import PipelineRegistry.Proofs.Registry.Names
import PipelineRegistry.Proofs.Registry.Origin
import PipelineRegistry.Proofs.Registry.Preservation
import PipelineRegistry.Proofs.Registry.Removal
import PipelineRegistry.Proofs.Registry.Replacement
import PipelineRegistry.Proofs.Registry.Scan
import PipelineRegistry.Proofs.Registry.Success
import PipelineRegistry.Proofs.Registry.Valid
import PipelineRegistry.Proofs.Storage.Agreement
import PipelineRegistry.Proofs.Storage.Bounds
import PipelineRegistry.Proofs.Storage.Commit
import PipelineRegistry.Proofs.Storage.Commutation
import PipelineRegistry.Proofs.Storage.Course
import PipelineRegistry.Proofs.Storage.Creation
import PipelineRegistry.Proofs.Storage.Dates
import PipelineRegistry.Proofs.Storage.Disk
import PipelineRegistry.Proofs.Storage.Dissolution
import PipelineRegistry.Proofs.Storage.Draft
import PipelineRegistry.Proofs.Storage.Editing
import PipelineRegistry.Proofs.Storage.Failure
import PipelineRegistry.Proofs.Storage.Fleet
import PipelineRegistry.Proofs.Storage.Interleaving
import PipelineRegistry.Proofs.Storage.Interruption
import PipelineRegistry.Proofs.Storage.Origin
import PipelineRegistry.Proofs.Storage.Rearrangement
import PipelineRegistry.Proofs.Storage.Removal
import PipelineRegistry.Proofs.Storage.RoundTrip
import PipelineRegistry.Proofs.Storage.Save
import PipelineRegistry.Proofs.Storage.Session
import PipelineRegistry.Proofs.Storage.Steps
import PipelineRegistry.Proofs.Storage.Usability
import PipelineRegistry.Proofs.Storage.Validity
import PipelineRegistry.Proofs.Text.Digits
import PipelineRegistry.Proofs.Text.Lossy
import PipelineRegistry.Registry.Basic
import PipelineRegistry.Registry.Edit
import PipelineRegistry.Registry.Error
import PipelineRegistry.Registry.Groups
import PipelineRegistry.Registry.Ids
import PipelineRegistry.Registry.Loading
import PipelineRegistry.Registry.Operation
import PipelineRegistry.Registry.Pointers
import PipelineRegistry.Registry.Projects
import PipelineRegistry.Slots
import PipelineRegistry.Storage.Disk
import PipelineRegistry.Storage.Document
import PipelineRegistry.Storage.FileSystem
import PipelineRegistry.Storage.Fleet
import PipelineRegistry.Storage.Handle
import PipelineRegistry.Storage.Session
import PipelineRegistry.Text.Blank
import PipelineRegistry.Text.Digits
import PipelineRegistry.Text.Lossy
import PipelineRegistry.Text.Printable
import PipelineRegistry.Text.Quoted
import PipelineRegistry.Text.Ranges
import PipelineRegistry.Text.Width
import PipelineRegistry.Workspace
