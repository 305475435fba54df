import HealthWatch.Api.Basic
import HealthWatch.Api.Problem
import HealthWatch.Api.Query
import HealthWatch.Check
import HealthWatch.Collector.Basic
import HealthWatch.Collector.Endpoint
import HealthWatch.Collector.Reporter
import HealthWatch.Collector.Round
import HealthWatch.Collector.Run
import HealthWatch.Duration
import HealthWatch.Duration.Show
import HealthWatch.Entry
import HealthWatch.FileFault
import HealthWatch.Http.Client
import HealthWatch.Http.Form
import HealthWatch.Http.MediaType
import HealthWatch.Http.Message
import HealthWatch.Http.Router
import HealthWatch.Http.Status
import HealthWatch.Http.Url
import HealthWatch.Identifier
import HealthWatch.Instant.Basic
import HealthWatch.Instant.Fields
import HealthWatch.Instant.Rfc3339
import HealthWatch.Instant.Stored
import HealthWatch.Json.Basic
import HealthWatch.Json.Decode
import HealthWatch.Json.Document
import HealthWatch.Json.Number
import HealthWatch.Json.Octets
import HealthWatch.Json.Place
import HealthWatch.Json.Real
import HealthWatch.Json.Shape
import HealthWatch.Json.Syntax
import HealthWatch.Json.Writer
import HealthWatch.Lifetime
import HealthWatch.Main
import HealthWatch.Probe.Basic
import HealthWatch.Probe.Bounded
import HealthWatch.Probe.Builtin
import HealthWatch.Probe.Disk
import HealthWatch.Probe.Hub
import HealthWatch.Probe.Liveness
import HealthWatch.Probe.Mail
import HealthWatch.Probe.Memory
import HealthWatch.Probe.Mounts
import HealthWatch.Probe.Names
import HealthWatch.Probe.Registry
import HealthWatch.Probe.Rest
import HealthWatch.Probe.Stream
import HealthWatch.Probe.Transfer.Address
import HealthWatch.Probe.Transfer.Basic
import HealthWatch.Probe.Transfer.Dialogue
import HealthWatch.Probe.Transfer.Reply
import HealthWatch.Proofs.Identifier
import HealthWatch.Proofs.Instant.Order
import HealthWatch.Proofs.Instant.Stored
import HealthWatch.Proofs.Json.Place
import HealthWatch.Proofs.Json.RoundTrip
import HealthWatch.Proofs.Store.Changes
import HealthWatch.Proofs.Store.Definitions
import HealthWatch.Proofs.Store.History
import HealthWatch.Proofs.Store.Records
import HealthWatch.Proofs.Store.Refinement
import HealthWatch.Proofs.Store.Row
import HealthWatch.Proofs.Store.Run
import HealthWatch.Proofs.Text.Decimal
import HealthWatch.Proofs.Text.Utf8
import HealthWatch.Proofs.TimeSpan
import HealthWatch.Report
import HealthWatch.Settings.Basic
import HealthWatch.Settings.Decode
import HealthWatch.Settings.Load
import HealthWatch.Settings.Options
import HealthWatch.Startup
import HealthWatch.Status
import HealthWatch.Store.Basic
import HealthWatch.Store.Open
import HealthWatch.Store.Overwrite
import HealthWatch.Store.Row
import HealthWatch.Store.Tables
import HealthWatch.Text.Blank
import HealthWatch.Text.Decimal
import HealthWatch.Text.DecimalDigit
import HealthWatch.Text.Hexadecimal
import HealthWatch.Text.Quoted
import HealthWatch.Text.Split
import HealthWatch.Text.Unprintable
import HealthWatch.Text.Uppercase
import HealthWatch.Text.Utf8
import HealthWatch.TimeSpan
import HealthWatch.View
import HealthWatch.Word
import HealthWatch.Wire.Check
import HealthWatch.Wire.Entry
import HealthWatch.Wire.Report
import HealthWatch.Wire.Scalar
import HealthWatch.Wire.View
import HealthWatch.Proofs.Store.Overwrite
import HealthWatch.Proofs.Store.Session
import HealthWatch.Proofs.View
import HealthWatch.Proofs.Store.Views
import HealthWatch.Proofs.Interleaving
import HealthWatch.Proofs.Store.Keywise
import HealthWatch.Proofs.Store.Renaming
import HealthWatch.Proofs.Store.Commutation
import HealthWatch.Proofs.Instant.Rfc3339
import HealthWatch.Proofs.Json.Decode
import HealthWatch.Proofs.Wire.RoundTrip
import HealthWatch.Proofs.Collector.Turns
import HealthWatch.Proofs.Collector.Life
import HealthWatch.Proofs.Api.Body
import HealthWatch.Proofs.Http.Router
import HealthWatch.Proofs.Api.Session
import HealthWatch.Proofs.Settings.Check
import HealthWatch.Proofs.Settings
import HealthWatch.Proofs.Api.Acceptance
import HealthWatch.Proofs.Collector.Delivery
import HealthWatch.Proofs.Api.Problem
import HealthWatch.Proofs.Api.Reporting
import HealthWatch.Proofs.Probe.Stream
import HealthWatch.Proofs.Probe.Reply
import HealthWatch.Proofs.Probe.Error
import HealthWatch.Proofs.Probe.Policy
import HealthWatch.Proofs.Probe.Framing
import HealthWatch.Proofs.Probe.Dialogue
import HealthWatch.Proofs.TimeSpan.Grammar
import HealthWatch.Proofs.Duration
import HealthWatch.Proofs.Text.Words
import HealthWatch.Proofs.Probe.Mounts
import HealthWatch.Proofs.Instant.Forms
import HealthWatch.Proofs.Probe.Address
import HealthWatch.Proofs.Settings.Load
import HealthWatch.Proofs.Probe.Disk
import HealthWatch.Proofs.Probe.Mail
import HealthWatch.Proofs.Probe.Rest
import HealthWatch.Proofs.Probe.Hosts
import HealthWatch.Proofs.Probe.Bounded
import HealthWatch.Proofs.Collector.Endpoint
import HealthWatch.Proofs.Collector.Jobs
import HealthWatch.Proofs.Probe.Hub
import HealthWatch.Lifetime.Handles
import HealthWatch.Proofs.Lifetime.Handles
import HealthWatch.Proofs.Probe.Memory
import HealthWatch.Proofs.Probe.Escapes
import HealthWatch.Proofs.Instant.Timeline
