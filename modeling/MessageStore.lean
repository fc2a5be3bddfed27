import MessageStore.Host.Environment
import MessageStore.Message.Json
import MessageStore.Session.Command
import MessageStore.Proofs.Outcome
import MessageStore.Proofs.Relational.Frame
import MessageStore.Proofs.Relational.Rows
import MessageStore.Proofs.Schema.Record
import MessageStore.Proofs.Schema.Ascent
import MessageStore.Proofs.Schema.Resumption
import MessageStore.Proofs.Relational.Columns
import MessageStore.Proofs.Schema.Layouts
import MessageStore.Proofs.Schema.Bodies
import MessageStore.Proofs.Relational.Copies
import MessageStore.Proofs.Schema.Rebuild
import MessageStore.Proofs.Store.Adding
import MessageStore.Proofs.Schema.Preservation
import MessageStore.Proofs.Relational.Views
import MessageStore.Proofs.Store.Twins
import MessageStore.Proofs.Store.Likeness
import MessageStore.Proofs.Store.Holdings
import MessageStore.Proofs.Store.Pages
import MessageStore.Proofs.Store.History
import MessageStore.Proofs.Store.Provenance
import MessageStore.Proofs.Store.Delivery
import MessageStore.Proofs.Store.Cursor
import MessageStore.Proofs.Store.CatchUp
import MessageStore.Proofs.Store.Isolation
import MessageStore.Proofs.Store.Shown
import MessageStore.Proofs.Store.Missing
import MessageStore.Proofs.Store.Following
import MessageStore.Proofs.Store.Round
import MessageStore.Proofs.Tags
import MessageStore.Proofs.Relational.Ordering
import MessageStore.Proofs.Text.Utf8
import MessageStore.Proofs.Topics
import MessageStore.Proofs.Store.Enumeration
import MessageStore.Proofs.Store.ReadBack
import MessageStore.Proofs.Message.RoundTrip
import MessageStore.Proofs.Session.OneDataset
import MessageStore.Proofs.Store.Queries
import MessageStore.Proofs.Store.Framed
import MessageStore.Proofs.Store.Decodable
import MessageStore.Proofs.Store.Whole
import MessageStore.Proofs.Store.Current
import MessageStore.Proofs.Store.Agreement
import MessageStore.Proofs.Store.Discarding
import MessageStore.Proofs.Session.Logging
import MessageStore.Proofs.Since.GeneratedIds
import MessageStore.Proofs.Since.Recognition
import MessageStore.Proofs.Store.Depth
import MessageStore.Proofs.Store.Lookup
import MessageStore.Proofs.Store.Pruning
import MessageStore.Proofs.Store.Quotas
import MessageStore.Proofs.Store.Expiry
import MessageStore.Proofs.Store.Editing
import MessageStore.Proofs.Host.Configuration
import MessageStore.Proofs.Message.Decoding
import MessageStore.Proofs.Store.WritingBack
import MessageStore.Proofs.Store.Accounting
import MessageStore.Proofs.Schema.Refusals
import MessageStore.Proofs.Schema.Leftovers
