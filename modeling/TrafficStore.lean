import TrafficStore.FileTree
import TrafficStore.Main
import TrafficStore.Session
import TrafficStore.Proofs.Outcomes
import TrafficStore.Proofs.Engine.Isolation
import TrafficStore.Proofs.Engine.Volatile
import TrafficStore.Proofs.Engine.Durable
import TrafficStore.Proofs.Scope.Copies
import TrafficStore.Proofs.Scope.Mirror
import TrafficStore.Proofs.Scope.Engines
import TrafficStore.Proofs.Transaction
import TrafficStore.Proofs.Records
import TrafficStore.Proofs.Dump
import TrafficStore.Proofs.Format
import TrafficStore.Proofs.Accesses
import TrafficStore.Proofs.Books
import TrafficStore.Lifetime
import TrafficStore.Proofs.Calls
import TrafficStore.Proofs.Lifetime
import TrafficStore.Proofs.Numbering
import TrafficStore.Proofs.Effects
import TrafficStore.Proofs.Runs
import TrafficStore.Proofs.WellLaid
import TrafficStore.Proofs.Work
import TrafficStore.Proofs.Room
import TrafficStore.Proofs.Stock
import TrafficStore.Proofs.Limit
import TrafficStore.Procedure
import TrafficStore.Proofs.Engine.Atomic
import TrafficStore.Proofs.Atomicity
import TrafficStore.Proofs.Lines
import TrafficStore.Proofs.Leads
import TrafficStore.Proofs.Tally
import TrafficStore.Proofs.Reading
import TrafficStore.Proofs.Counting
import TrafficStore.Proofs.Ingest
import TrafficStore.Proofs.Scope.Alike
import TrafficStore.Proofs.Scope.Written
import TrafficStore.Proofs.Scope.Account
import TrafficStore.Proofs.Frame
import TrafficStore.Proofs.Apart
import TrafficStore.Progress
import TrafficStore.Proofs.Progress
import TrafficStore.Proofs.Slots
import TrafficStore.Proofs.Consistency
import TrafficStore.Proofs.Interruption
import TrafficStore.Proofs.Renaming
import TrafficStore.Proofs.Reordering
import TrafficStore.Proofs.Utf8
import TrafficStore.Proofs.Decoding
import TrafficStore.Proofs.Dumping
import TrafficStore.Proofs.LastWrite
import TrafficStore.Proofs.Cataloguing
import TrafficStore.Proofs.Splitting
import TrafficStore.Proofs.BadLines
import TrafficStore.Proofs.Composing
import TrafficStore.Proofs.Words
import TrafficStore.Proofs.Numerals
import TrafficStore.Proofs.RecordLines
import TrafficStore.Proofs.Uncataloged
import TrafficStore.Proofs.Gauges
import TrafficStore.Proofs.Totals
import TrafficStore.Proofs.Charges
import TrafficStore.Proofs.Peaks
import TrafficStore.Proofs.Terminated
import TrafficStore.Proofs.Spelling
import TrafficStore.Proofs.Requests
import TrafficStore.Proofs.Commuting
import TrafficStore.Proofs.RootLabels
import TrafficStore.Proofs.Exactness
import TrafficStore.Proofs.Keys
