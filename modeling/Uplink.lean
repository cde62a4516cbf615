import Uplink.Address
import Uplink.Binary64
import Uplink.Checkpoint
import Uplink.Checkpoint.Rest
import Uplink.Checkpoint.Vigil
import Uplink.Device
import Uplink.Failure
import Uplink.Feed
import Uplink.Gateway
import Uplink.Gateway.Rest
import Uplink.Json
import Uplink.Json.Literal
import Uplink.Json.Numeral
import Uplink.Json.Parser
import Uplink.Json.Printer
import Uplink.Json.Record
import Uplink.Json.Token
import Uplink.Keyed
import Uplink.Link.Exchange
import Uplink.Link.Framer
import Uplink.Link.Framing
import Uplink.Modem.Config
import Uplink.Modem.Identity
import Uplink.Modem.Lines
import Uplink.Modem.Report
import Uplink.Modem.Session
import Uplink.Network
import Uplink.Note
import Uplink.Record
import Uplink.Relay.Account
import Uplink.Relay.Config
import Uplink.Relay.Traffic
import Uplink.Retry
import Uplink.Route.Check
import Uplink.Route.Config
import Uplink.Route.Keeper
import Uplink.Script.Reader
import Uplink.Script.Runner
import Uplink.Script.Sum
import Uplink.Script.Syntax
import Uplink.Script.Utility
import Uplink.Settings
import Uplink.Settings.Reader
import Uplink.Shell
import Uplink.Store
import Uplink.Template
import Uplink.Text.Blank
import Uplink.Text.Glob
import Uplink.Text.Numeral
import Uplink.Text.Quoted
import Uplink.Text.Unprintable
import Uplink.Text.Utf8
import Uplink.Transport
import Uplink.Watcher.Machine
import Uplink.Watcher.Resource
import Uplink.Watcher.Rest
import Uplink.Watcher.Scripted
import Uplink.Watcher.State
import Uplink.Wire.Checksum
import Uplink.Wire.Codec
import Uplink.Wire.Message
import Uplink.Wire.Storage
import Uplink.Yaml.Cursor
import Uplink.Yaml.Node
import Uplink.Yaml.Parser
import Uplink.Yaml.Scalar
import Uplink.Yaml.Scanner
import Uplink.Yaml.Token
import Uplink.Proofs.Wire.Bytes
import Uplink.Proofs.Wire.Datagram
import Uplink.Proofs.Json.Document
import Uplink.Proofs.Json.Value
import Uplink.Proofs.Link.Search
import Uplink.Proofs.Link.Stream
import Uplink.Proofs.Relay.Queues
import Uplink.Proofs.Watcher.Ownership
import Uplink.Proofs.Store.Keys
import Uplink.Proofs.Wire.Burst
import Uplink.Proofs.Relay.Announcement
import Uplink.Proofs.Link.Run
import Uplink.Proofs.Link.Delivery
import Uplink.Proofs.Watcher.Lifecycle
import Uplink.Proofs.Watcher.Readiness
import Uplink.Link.Desk
import Uplink.Proofs.Link.Interleaving
import Uplink.Proofs.Link.Place
import Uplink.Proofs.Link.Connection
import Uplink.Proofs.Link.Isolation
import Uplink.Proofs.Link.Refinement
import Uplink.Proofs.Checkpoint.Run
import Uplink.Proofs.Checkpoint.Flags
import Uplink.Relay.Errand
import Uplink.Proofs.Relay.Errands
import Uplink.Proofs.Relay.Accounting
import Uplink.Proofs.Relay.Entries
import Uplink.Proofs.Relay.Timestamps
import Uplink.Proofs.Watcher.Stopped
import Uplink.Proofs.Gateway.Run
import Uplink.Proofs.Gateway.Launch
import Uplink.Proofs.Gateway.BringUp
import Uplink.Proofs.Gateway.Validation
import Uplink.Proofs.Modem.Lines
import Uplink.Proofs.Modem.Sayings
import Uplink.Proofs.Modem.Run
import Uplink.Proofs.Modem.Stream
import Uplink.Proofs.Modem.Search
import Uplink.Proofs.Modem.Echo
import Uplink.Proofs.Keyed
import Uplink.Proofs.Store.TypedMap
import Uplink.Proofs.Store.Refinement
import Uplink.Proofs.Text.Numeral
import Uplink.Proofs.Settings.Overlay
import Uplink.Proofs.Settings.Timing
import Uplink.Proofs.Address
import Uplink.Proofs.Settings.Codec
import Uplink.Proofs.Route.Run
import Uplink.Proofs.Route.Readiness
import Uplink.Proofs.Route.Intervals
import Uplink.Proofs.Route.Refinement
import Uplink.Proofs.Failure
import Uplink.Proofs.Json.Held
import Uplink.Proofs.Wire.Refusal
import Uplink.Proofs.Wire.Flips
import Uplink.Proofs.Wire.Size
import Uplink.Proofs.Wire.Section
import Uplink.Proofs.Wire.Passage
import Uplink.Proofs.Template.Codec
import Uplink.Proofs.Json.Contents
import Uplink.Proofs.Link.Delimiters
import Uplink.Proofs.Link.Events
import Uplink.Proofs.Watcher.Schedule
import Uplink.Link.Mail
import Uplink.Proofs.Link.Mail
import Uplink.Proofs.Link.Letters
import Uplink.Proofs.Link.Posting
import Uplink.Proofs.Link.Admission
import Uplink.Proofs.History
import Uplink.Proofs.Modem.Decision
import Uplink.Proofs.Shell.Cache
import Uplink.Proofs.Text.Blank
import Uplink.Proofs.Route.Convergence
import Uplink.Proofs.Checkpoint.Vigil
import Uplink.Proofs.Checkpoint.Listeners
import Uplink.Proofs.Checkpoint.Intervals
import Uplink.Proofs.Checkpoint.Protocol
import Uplink.Proofs.Checkpoint.Requests
import Uplink.Proofs.Checkpoint.Opening
import Uplink.Proofs.Checkpoint.Wakes
import Uplink.Proofs.Checkpoint.Refinement
import Uplink.Proofs.Text.Denotation
import Uplink.Proofs.Modem.Report
import Uplink.Proofs.Binary64
import Uplink.Proofs.Text.Decimal
import Uplink.Proofs.Text.Order
import Uplink.Proofs.Template.Conversion
import Uplink.Proofs.Settings.Precedence
import Uplink.Proofs.Modem.Requests
import Uplink.Proofs.Modem.Schedule
import Uplink.Proofs.Loop
import Uplink.Proofs.Text.Walk
import Uplink.Proofs.Store.Hollow
import Uplink.Proofs.Link.Turns
import Uplink.Proofs.Link.Buffer
