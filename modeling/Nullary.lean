import Nullary.ArgumentError
import Nullary.Blank
import Nullary.Calendar
import Nullary.Calendar.Iso
import Nullary.Calendar.Reading
import Nullary.Check
import Nullary.Codec
import Nullary.Envelope
import Nullary.Envelope.Document
import Nullary.Envelope.Failure
import Nullary.Fields
import Nullary.FilePath
import Nullary.FileTree
import Nullary.Heap
import Nullary.Json
import Nullary.Json.Reader
import Nullary.Log
import Nullary.Log.Console
import Nullary.Log.Context
import Nullary.Log.Document
import Nullary.Log.Event
import Nullary.Log.Level
import Nullary.Log.Name
import Nullary.Log.NamedCall
import Nullary.Log.Template
import Nullary.Number.Decimal
import Nullary.Number.Digits
import Nullary.Number.Double
import Nullary.Number.Fixed
import Nullary.Number.Layout
import Nullary.Number.Shortest
import Nullary.Number.Spelled
import Nullary.Package
import Nullary.Session
import Nullary.Settings
import Nullary.Settings.Discovery
import Nullary.Settings.Layer
import Nullary.Settings.Load
import Nullary.Settings.Options
import Nullary.Settings.Threads
import Nullary.Text.Cased
import Nullary.Text.LowerCase
import Nullary.Text.Newline
import Nullary.Text.Printable
import Nullary.Text.Quoted
import Nullary.Text.Step
import Nullary.Text.Utf8
import Nullary.Toml
import Nullary.Toml.File
import Nullary.Toml.Reader
import Nullary.Toml.Scalar
import Nullary.Toml.Stop
import Nullary.Toml.Text
import Nullary.Value
import Nullary.Value.Display
import Nullary.Value.Equality
import Nullary.Value.Merge
import Nullary.Value.Misuse
import Nullary.World
import Nullary.Proofs.Settings.Check
import Nullary.Proofs.Settings.Variables
import Nullary.Proofs.Json.Reader
import Nullary.Proofs.Settings.Options
import Nullary.Proofs.Settings.Load
import Nullary.Proofs.Settings.Precedence
import Nullary.Proofs.Settings.Sources
import Nullary.Proofs.Settings.UnknownNames
import Nullary.Proofs.Toml.CarriageReturn
import Nullary.Proofs.Toml.StoredText
import Nullary.Proofs.Codec.Answers
import Nullary.Proofs.Codec.Decoding
import Nullary.Proofs.Codec.Envelopes
import Nullary.Proofs.Settings.Threads
import Nullary.Proofs.Settings.Provenance
import Nullary.Proofs.Session.Runs
import Nullary.Proofs.Session.LogState
import Nullary.Proofs.Log.Context
import Nullary.Proofs.Session.Context
import Nullary.Proofs.Number.Digits
import Nullary.Proofs.Json.Text
import Nullary.Proofs.Json.RoundTrip
import Nullary.Proofs.Log.Line
import Nullary.Proofs.Log.NamedCall
import Nullary.Proofs.Session.Lines
import Nullary.Proofs.Codec.Notes
import Nullary.Proofs.Session.ServiceNotes
import Nullary.Proofs.Except
import Nullary.Proofs.Toml.Names
import Nullary.Proofs.Settings.Discovery
import Nullary.Proofs.Session.ServiceAnswers
import Nullary.Proofs.Settings.Issues
import Nullary.Proofs.Settings.Validation
import Nullary.Proofs.Settings.Overrides
import Nullary.Proofs.Text.Quoted
import Nullary.Proofs.Codec.Reports
import Nullary.Proofs.Heap
import Nullary.Proofs.Toml.Stops
import Nullary.Proofs.Toml.Reported
import Nullary.Proofs.Log.Hierarchy
import Nullary.Proofs.Log.Written
import Nullary.Proofs.Session.Records
import Nullary.Proofs.Number.Nearest
import Nullary.Proofs.Number.Shortest
import Nullary.Proofs.Number.Layout
import Nullary.Proofs.Json.Overlong
import Nullary.Proofs.Value.Document
import Nullary.Proofs.Envelope.Failure
import Nullary.Proofs.Envelope.Document
import Nullary.Proofs.Codec.Documents
import Nullary.Proofs.Session.RoundTrips
