import Typeahead.Command.Places
import Typeahead.Command.Run
import Typeahead.Command.Usage
import Typeahead.Data.Json.Reader
import Typeahead.Data.Json.Writer
import Typeahead.Data.Record
import Typeahead.Data.Toml.Reader
import Typeahead.Data.Toml.Writer
import Typeahead.Decimal.Shortest
import Typeahead.History.Call
import Typeahead.History.Frecency
import Typeahead.History.Timestamp
import Typeahead.Line.Highlight
import Typeahead.Line.Snapshot
import Typeahead.Main
import Typeahead.Menu.Frame
import Typeahead.Menu.Key
import Typeahead.Proofs.Candidate.Comparing
import Typeahead.Proofs.Candidate.Narrowing
import Typeahead.Proofs.Candidate.Promotion
import Typeahead.Proofs.History.Reading
import Typeahead.Proofs.History.Retention
import Typeahead.Proofs.History.Stored
import Typeahead.Proofs.Line.Beginning
import Typeahead.Proofs.Line.Coloring
import Typeahead.Proofs.Line.Cursor
import Typeahead.Proofs.Line.Escaping
import Typeahead.Proofs.Line.Firing
import Typeahead.Proofs.Line.Grammar
import Typeahead.Proofs.Line.Growth
import Typeahead.Proofs.Line.Lookahead
import Typeahead.Proofs.Line.Mention
import Typeahead.Proofs.Line.Quoting
import Typeahead.Proofs.Line.Replaced
import Typeahead.Proofs.Line.Retyping
import Typeahead.Proofs.Line.Rule
import Typeahead.Proofs.Menu.Erasing
import Typeahead.Proofs.Menu.Fitting
import Typeahead.Proofs.Menu.Redrawing
import Typeahead.Proofs.Session.Acceptance
import Typeahead.Proofs.Session.Offered
import Typeahead.Proofs.Session.Order
import Typeahead.Proofs.Session.Promoted
import Typeahead.Proofs.Session.Replay
import Typeahead.Proofs.Session.Staleness
import Typeahead.Proofs.Settings.Fallback
import Typeahead.Proofs.Settings.Overlay
import Typeahead.Proofs.Settings.Precedence
import Typeahead.Proofs.Source.Lifting
import Typeahead.Proofs.Source.Listing
import Typeahead.Proofs.Source.Merging
import Typeahead.Proofs.Source.Offers
import Typeahead.Proofs.Source.Packing
import Typeahead.Proofs.Source.Programs
import Typeahead.Proofs.Source.Readings
import Typeahead.Proofs.Source.Registration
import Typeahead.Proofs.Source.Repository
import Typeahead.Proofs.Source.Scanning
import Typeahead.Settings.Document
import Typeahead.Settings.Environment
import Typeahead.World
