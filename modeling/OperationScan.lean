import OperationScan.Main
import OperationScan.Report.Reading
import OperationScan.Settings.Reading
import OperationScan.Proofs.Collector.Consistent
import OperationScan.Proofs.Collector.Identities
import OperationScan.Proofs.Inputs.History
import OperationScan.Proofs.Json.Requests
import OperationScan.Proofs.Operation.Placeholders
import OperationScan.Proofs.Pattern.Anchored
import OperationScan.Proofs.Pattern.BraceGroups
import OperationScan.Proofs.Pattern.CanonicalAnchor
import OperationScan.Proofs.Pattern.Search
import OperationScan.Proofs.Pattern.Traceable
import OperationScan.Proofs.Plugin.Isolation
import OperationScan.Proofs.Plugin.Workers
import OperationScan.Proofs.Report.Exports
import OperationScan.Proofs.Run.Composition
import OperationScan.Proofs.Run.Concurrency
import OperationScan.Proofs.Run.History
import OperationScan.Proofs.Run.Return
import OperationScan.Proofs.Scan.Aggressive
import OperationScan.Proofs.Scan.Bindings
import OperationScan.Proofs.Scan.Documentation
import OperationScan.Proofs.Scan.Embedded
import OperationScan.Proofs.Scan.Precedence
import OperationScan.Proofs.Scan.Quotations
import OperationScan.Proofs.Scan.QuotePatterns
import OperationScan.Proofs.Scan.Spellings
import OperationScan.Proofs.Scan.Unscreened
import OperationScan.Proofs.Script.Concatenation
import OperationScan.Proofs.Script.Integers
import OperationScan.Proofs.Script.JsonStrings
import OperationScan.Proofs.Script.Lookup
import OperationScan.Proofs.Script.Aliases
import OperationScan.Proofs.Script.Wrappers
import OperationScan.Proofs.Task.Order
import OperationScan.Proofs.Task.Reextraction
import OperationScan.Proofs.Task.Streaming
import OperationScan.Proofs.Text.Words
