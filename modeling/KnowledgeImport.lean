import KnowledgeImport.Backend.Collaborators
import KnowledgeImport.Backend.Replay
import KnowledgeImport.Backend.Wire
import KnowledgeImport.CommandLine.Session
import KnowledgeImport.Glob.PatternSet
import KnowledgeImport.Import.Encoding
import KnowledgeImport.Import.Pipeline
import KnowledgeImport.Import.Report
import KnowledgeImport.Main
import KnowledgeImport.Proofs.Import.Accounting
import KnowledgeImport.Proofs.Import.FinalRecord
import KnowledgeImport.Proofs.Scan.Pruning
import KnowledgeImport.Scan.Repository
import KnowledgeImport.Settings.File
import KnowledgeImport.Url.Parser
import KnowledgeImport.Proofs.Backend.Window
import KnowledgeImport.Proofs.Import.DryRun
import KnowledgeImport.Proofs.Backend.Requests
import KnowledgeImport.Proofs.Import.BackendLoss
import KnowledgeImport.Proofs.FileTree.WellFormed
import KnowledgeImport.Proofs.Scan.Listing
import KnowledgeImport.Proofs.CommandLine.RequestStream
import KnowledgeImport.Proofs.Import.Progress
import KnowledgeImport.Proofs.Text.Transparency
import KnowledgeImport.Proofs.Glob.Literals
import KnowledgeImport.Proofs.Scan.Membership
import KnowledgeImport.Proofs.Scan.PathPatterns
import KnowledgeImport.Proofs.Scan.Baseline
import KnowledgeImport.Proofs.Json.Grammar
import KnowledgeImport.Proofs.Json.Lexing
import KnowledgeImport.Proofs.Json.Reading
import KnowledgeImport.Proofs.Json.Scanning
import KnowledgeImport.Proofs.Json.Faults
import KnowledgeImport.Proofs.Json.Acceptance
import KnowledgeImport.Proofs.Json.Members
import KnowledgeImport.Proofs.Json.Writing
import KnowledgeImport.Proofs.Json.Records
import KnowledgeImport.Proofs.Import.Encoding
import KnowledgeImport.Proofs.CommandLine.Streams
import KnowledgeImport.Proofs.Import.CodeToggle
import KnowledgeImport.Proofs.Scan.MorePatterns
import KnowledgeImport.Proofs.FileTree.Subdirectory
import KnowledgeImport.Proofs.Scan.Subdirectory
import KnowledgeImport.Proofs.Glob.Cutting
import KnowledgeImport.Proofs.Scan.ValidPatterns
import KnowledgeImport.Proofs.Import.RecordEntries
import KnowledgeImport.Proofs.Import.Assembly
import KnowledgeImport.Proofs.Text.Decoding
import KnowledgeImport.Proofs.Text.Encoding
import KnowledgeImport.Proofs.Scan.OneFile
import KnowledgeImport.Proofs.Scan.CodeExtensions
import KnowledgeImport.Proofs.Scan.ReadmeSources
import KnowledgeImport.Proofs.Backend.Provider
import KnowledgeImport.Proofs.Json.Limits
import KnowledgeImport.Proofs.Backend.Probes
import KnowledgeImport.Proofs.Backend.Tags
import KnowledgeImport.Proofs.CommandLine.RoundTrip
import KnowledgeImport.Proofs.Import.AcceptedJson
import KnowledgeImport.Proofs.Settings.Files
import KnowledgeImport.Proofs.Scan.Slices
import KnowledgeImport.Proofs.Backend.Echo
import KnowledgeImport.Proofs.Import.Summary
import KnowledgeImport.Proofs.Import.Windows
