import Concordance.Java.Summary
import Concordance.Json.Data
import Concordance.Service.Indexing
import Concordance.Settings.File
import Concordance.Proofs.Registry.Slots
import Concordance.Proofs.Registry.Reads
import Concordance.Proofs.Service.Compaction
import Concordance.Proofs.Service.Log
import Concordance.Proofs.Service.Effect
import Concordance.Proofs.Service.Order
import Concordance.Proofs.Service.Clearing
import Concordance.Proofs.Service.History
import Concordance.Proofs.Service.Retention
import Concordance.Proofs.Registry.Tombstones
import Concordance.Proofs.Service.Residue
import Concordance.Proofs.Java.Walk
import Concordance.Proofs.Java.Numbering
import Concordance.Proofs.Java.Names
import Concordance.Proofs.Java.Package
import Concordance.Proofs.Java.Candidates
import Concordance.Proofs.Registry.Arrival
import Concordance.Proofs.Symbols.Sealing
import Concordance.Proofs.Service.Views
import Concordance.Proofs.Text.Path
import Concordance.Proofs.Text.Extension
import Concordance.Proofs.Workspace.Discovery
import Concordance.Proofs.Workspace.Ids
import Concordance.Proofs.Workspace.Writing
import Concordance.Proofs.Workspace.GitRules
import Concordance.Proofs.Service.Verdict
import Concordance.Proofs.Service.Reporting
import Concordance.Proofs.Json.Reader
import Concordance.Proofs.Json.Numbers
import Concordance.Proofs.Json.Strings
import Concordance.Proofs.Json.Layout
import Concordance.Proofs.Json.Grammar
import Concordance.Proofs.Json.Skip
import Concordance.Proofs.Json.Typed
import Concordance.Proofs.Json.Data
import Concordance.Proofs.Json.Exact
import Concordance.Proofs.Settings.Stored
import Concordance.Proofs.Settings.Overrides
import Concordance.Proofs.Settings.Capacity
import Concordance.Proofs.Registry.TypeSearch
import Concordance.Proofs.Workspace.Accounting
import Concordance.Proofs.Workspace.Reindexing
import Concordance.Proofs.Service.Answers
import Concordance.Proofs.Service.Purging
import Concordance.Proofs.Service.ClearOrder
