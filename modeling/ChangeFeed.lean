import ChangeFeed.Bytes
import ChangeFeed.Checkpoint.Basic
import ChangeFeed.Checkpoint.Path
import ChangeFeed.Checkpoint.Store
import ChangeFeed.Checkpoint.Text
import ChangeFeed.Checkpoint.Volume
import ChangeFeed.Config.Document
import ChangeFeed.Config.Load
import ChangeFeed.Config.Place
import ChangeFeed.Config.Settings
import ChangeFeed.Config.Value
import ChangeFeed.Connections
import ChangeFeed.Conninfo.Address
import ChangeFeed.Conninfo.Grammar
import ChangeFeed.Conninfo.Route
import ChangeFeed.Conninfo.Scanner
import ChangeFeed.Conninfo.Setting
import ChangeFeed.Conninfo.Strip
import ChangeFeed.Conninfo.Target
import ChangeFeed.Conninfo.Url
import ChangeFeed.Control.Catalog
import ChangeFeed.Control.Client
import ChangeFeed.Control.Database
import ChangeFeed.Control.Statement
import ChangeFeed.Decimal.Shortest
import ChangeFeed.Decoder
import ChangeFeed.Digest.Md5
import ChangeFeed.Digest.Sha256
import ChangeFeed.Error
import ChangeFeed.Feed.Desk
import ChangeFeed.Feed.Ledger
import ChangeFeed.Feed.Run
import ChangeFeed.Feed.Schedule
import ChangeFeed.Json.Reader
import ChangeFeed.Json.Value
import ChangeFeed.Lifecycle
import ChangeFeed.Live.Machine
import ChangeFeed.Lsn
import ChangeFeed.Main
import ChangeFeed.Pglogical.Frame
import ChangeFeed.Program.Arguments
import ChangeFeed.Program.Capture
import ChangeFeed.Program.Forward
import ChangeFeed.Program.Line
import ChangeFeed.Proofs.Bytes.Words
import ChangeFeed.Proofs.Checkpoint.Cell
import ChangeFeed.Proofs.Checkpoint.Crash
import ChangeFeed.Proofs.Checkpoint.Path
import ChangeFeed.Proofs.Checkpoint.Saving
import ChangeFeed.Proofs.Checkpoint.Spelling
import ChangeFeed.Proofs.Checkpoint.Text
import ChangeFeed.Proofs.Conninfo.Dividing
import ChangeFeed.Proofs.Conninfo.Scanning
import ChangeFeed.Proofs.Conninfo.Stripping
import ChangeFeed.Proofs.Conninfo.Urls
import ChangeFeed.Proofs.Feed.Acknowledgment
import ChangeFeed.Proofs.Feed.Backpressure
import ChangeFeed.Proofs.Feed.Exit
import ChangeFeed.Proofs.Feed.History
import ChangeFeed.Proofs.Feed.Keeping
import ChangeFeed.Proofs.Feed.Moves
import ChangeFeed.Proofs.Feed.Ordering
import ChangeFeed.Proofs.Feed.Output
import ChangeFeed.Proofs.Feed.Positions
import ChangeFeed.Proofs.Feed.Progress
import ChangeFeed.Proofs.Feed.Refreshing
import ChangeFeed.Proofs.Feed.Reporting
import ChangeFeed.Proofs.Feed.Stopping
import ChangeFeed.Proofs.Feed.Transcript
import ChangeFeed.Proofs.Feed.Verdict
import ChangeFeed.Proofs.Feed.Workplace
import ChangeFeed.Proofs.Json.Compact
import ChangeFeed.Proofs.Json.RoundTrip
import ChangeFeed.Proofs.Json.Strings
import ChangeFeed.Proofs.Lifecycle.Calls
import ChangeFeed.Proofs.Lsn.Notation
import ChangeFeed.Proofs.Pglogical.Announcing
import ChangeFeed.Proofs.Pglogical.Cursor
import ChangeFeed.Proofs.Pglogical.Stream
import ChangeFeed.Proofs.Program.Course
import ChangeFeed.Proofs.Program.Forwarding
import ChangeFeed.Proofs.Program.Lines
import ChangeFeed.Proofs.Program.Lossless
import ChangeFeed.Proofs.Program.Resumption
import ChangeFeed.Proofs.Program.Rounds
import ChangeFeed.Proofs.Session.Answers
import ChangeFeed.Proofs.Session.Commands
import ChangeFeed.Proofs.Session.Cuts
import ChangeFeed.Proofs.Session.Handshake
import ChangeFeed.Proofs.Session.Host
import ChangeFeed.Proofs.Session.Identifying
import ChangeFeed.Proofs.Session.Opening
import ChangeFeed.Proofs.Session.Peer
import ChangeFeed.Proofs.Session.Reading
import ChangeFeed.Proofs.Session.StartCommand
import ChangeFeed.Proofs.Source.Accepted
import ChangeFeed.Proofs.Source.Dispatches
import ChangeFeed.Proofs.Source.Failing
import ChangeFeed.Proofs.Source.Loop
import ChangeFeed.Proofs.Source.Ownership
import ChangeFeed.Proofs.Source.Position
import ChangeFeed.Proofs.Source.Recovery
import ChangeFeed.Proofs.Source.Steps
import ChangeFeed.Proofs.Stream.Messages
import ChangeFeed.Proofs.Stream.Updates
import ChangeFeed.Proofs.Surroundings.Books
import ChangeFeed.Proofs.Surroundings.Calls
import ChangeFeed.Proofs.Surroundings.Files
import ChangeFeed.Proofs.Surroundings.Flushed
import ChangeFeed.Proofs.Surroundings.Minutes
import ChangeFeed.Proofs.Surroundings.Sendings
import ChangeFeed.Proofs.Surroundings.Talks
import ChangeFeed.Proofs.Surroundings.Trial
import ChangeFeed.Proofs.Text.Base64
import ChangeFeed.Proofs.Text.Classes
import ChangeFeed.Proofs.Text.Numerals
import ChangeFeed.Proofs.Text.Utf8
import ChangeFeed.Proofs.Time.Calendar
import ChangeFeed.Proofs.Time.Format
import ChangeFeed.Proofs.Time.ServerClock
import ChangeFeed.Proofs.Time.Spelling
import ChangeFeed.Proofs.Time.Timestamps
import ChangeFeed.Proofs.Wire.Framing
import ChangeFeed.Proofs.Wire.Speech
import ChangeFeed.Rehearsal.Bench
import ChangeFeed.Rehearsal.Errand
import ChangeFeed.Rehearsal.Scene
import ChangeFeed.Rehearsal.Server
import ChangeFeed.Rehearsal.Stand
import ChangeFeed.Rehearsal.TextDecoder
import ChangeFeed.Rehearsal.World
import ChangeFeed.Session.Connection
import ChangeFeed.Session.Dialogue
import ChangeFeed.Session.Identity
import ChangeFeed.Session.Login
import ChangeFeed.Session.Password
import ChangeFeed.Session.Scram
import ChangeFeed.Source
import ChangeFeed.Stream.Message
import ChangeFeed.Stream.Status
import ChangeFeed.Text.Base64
import ChangeFeed.Text.Blank
import ChangeFeed.Text.Cut
import ChangeFeed.Text.Numeral
import ChangeFeed.Text.Percent
import ChangeFeed.Text.Printable
import ChangeFeed.Text.Quoted
import ChangeFeed.Text.Utf8
import ChangeFeed.Time.Calendar
import ChangeFeed.Time.Clock
import ChangeFeed.Time.Instant
import ChangeFeed.Time.Rfc3339
import ChangeFeed.Time.ServerClock
import ChangeFeed.Time.Timestamp
import ChangeFeed.Toml.Blank
import ChangeFeed.Toml.Moment
import ChangeFeed.Toml.Number
import ChangeFeed.Toml.Reader
import ChangeFeed.Toml.Table
import ChangeFeed.Toml.Text
import ChangeFeed.Toml.Value
import ChangeFeed.Wire.Field
import ChangeFeed.Wire.Message
import ChangeFeed.Wire.Request
