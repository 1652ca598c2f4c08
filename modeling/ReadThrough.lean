import ReadThrough.CacheError
import ReadThrough.Call.Backend
import ReadThrough.Call.Middleware
import ReadThrough.Call.Outcome
import ReadThrough.Call.Script
import ReadThrough.Call.Together
import ReadThrough.Context.Basic
import ReadThrough.Context.Forest
import ReadThrough.Context.Session
import ReadThrough.Context.Wait
import ReadThrough.Data
import ReadThrough.Digest.Sha256
import ReadThrough.Event
import ReadThrough.Fields
import ReadThrough.Json.Basic
import ReadThrough.Json.Numeral
import ReadThrough.Json.Reader
import ReadThrough.Key.Basic
import ReadThrough.Key.Derive
import ReadThrough.Number.Binary32
import ReadThrough.Number.Binary64
import ReadThrough.Number.Layout
import ReadThrough.Number.Scaled
import ReadThrough.Number.Shortest
import ReadThrough.Number.Whole
import ReadThrough.Policy.Basic
import ReadThrough.Policy.Settings
import ReadThrough.Proofs.Call.Books
import ReadThrough.Proofs.Call.Contacts
import ReadThrough.Proofs.Call.Events
import ReadThrough.Proofs.Call.Interleaving
import ReadThrough.Proofs.Call.Lifetimes
import ReadThrough.Proofs.Call.Parts
import ReadThrough.Proofs.Call.Pauses
import ReadThrough.Proofs.Call.Sequence
import ReadThrough.Proofs.Call.Serving
import ReadThrough.Proofs.Call.Skipping
import ReadThrough.Proofs.Call.Together
import ReadThrough.Proofs.Call.Uncacheable
import ReadThrough.Proofs.Call.Warnings
import ReadThrough.Proofs.Context.Chronicle
import ReadThrough.Proofs.Context.Tokens
import ReadThrough.Proofs.Context.Waiting
import ReadThrough.Proofs.Data.Conversions
import ReadThrough.Proofs.Data.Visits
import ReadThrough.Proofs.Fields
import ReadThrough.Proofs.Json.Equality
import ReadThrough.Proofs.Json.Grammar
import ReadThrough.Proofs.Json.Numerals
import ReadThrough.Proofs.Json.Reading
import ReadThrough.Proofs.Json.Scalars
import ReadThrough.Proofs.Key.Acceptance
import ReadThrough.Proofs.Key.Separation
import ReadThrough.Proofs.Number.Exact
import ReadThrough.Proofs.Number.Fewest
import ReadThrough.Proofs.Number.Integral
import ReadThrough.Proofs.Number.Notation
import ReadThrough.Proofs.Number.Numeral
import ReadThrough.Proofs.Number.ReadBack
import ReadThrough.Proofs.Number.Rounding
import ReadThrough.Proofs.Policy.Settings
import ReadThrough.Proofs.Store.Counting
import ReadThrough.Proofs.Store.Events
import ReadThrough.Proofs.Store.History
import ReadThrough.Proofs.Store.Live
import ReadThrough.Proofs.Store.Overlap
import ReadThrough.Proofs.Store.Purging
import ReadThrough.Proofs.Store.Views
import ReadThrough.Proofs.Table
import ReadThrough.Proofs.Text.Quoting
import ReadThrough.Proofs.Value.Bridge
import ReadThrough.Proofs.Value.Encoding
import ReadThrough.Proofs.Value.Equivalent
import ReadThrough.Proofs.Value.Fixpoint
import ReadThrough.Proofs.Value.Numbers
import ReadThrough.Proofs.Value.Reordering
import ReadThrough.Skip
import ReadThrough.Store.Basic
import ReadThrough.Store.Entry
import ReadThrough.Store.Operation
import ReadThrough.Store.Stats
import ReadThrough.Table
import ReadThrough.Text.Ascii
import ReadThrough.Text.Blank
import ReadThrough.Text.Hex
import ReadThrough.Text.Position
import ReadThrough.Text.Quoted
import ReadThrough.Text.Utf8
import ReadThrough.Time
import ReadThrough.Value.Basic
import ReadThrough.Value.Canonical
import ReadThrough.Value.Convert
import ReadThrough.Value.Json
import ReadThrough.Proofs.Call.Together
