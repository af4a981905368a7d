import Switchboard.Client.Basic
import Switchboard.Client.Carrier
import Switchboard.Client.Dial
import Switchboard.Client.Sharing
import Switchboard.Envelope.Body
import Switchboard.Envelope.Id
import Switchboard.Envelope.Params
import Switchboard.Envelope.Request
import Switchboard.Envelope.Response
import Switchboard.Envelope.Version
import Switchboard.Fault
import Switchboard.Handler.Basic
import Switchboard.Handler.Stock
import Switchboard.Handler.Typed
import Switchboard.Http.Address
import Switchboard.Http.Bearer
import Switchboard.Http.Header
import Switchboard.Http.Target
import Switchboard.Journal.Basic
import Switchboard.Journal.Measurement
import Switchboard.Json.Basic
import Switchboard.Json.Printer
import Switchboard.Json.Reader
import Switchboard.Json.Token
import Switchboard.Kind
import Switchboard.Method.Basic
import Switchboard.Method.Table
import Switchboard.Method.Violation
import Switchboard.Number.Binary64
import Switchboard.Number.Notation
import Switchboard.Number.Shortest
import Switchboard.Server.Draft
import Switchboard.Server.Network
import Switchboard.Server.Session
import Switchboard.Service
import Switchboard.Shape.Basic
import Switchboard.Shape.Read
import Switchboard.Signature.AutoName
import Switchboard.Signature.Basic
import Switchboard.Signature.Parser
import Switchboard.Socket.Frame
import Switchboard.Socket.Gauge
import Switchboard.Socket.Link
import Switchboard.Socket.Serving
import Switchboard.Socket.Sharing
import Switchboard.Text.Blank
import Switchboard.Text.Hidden
import Switchboard.Text.Quoted
import Switchboard.Text.Utf8
import Switchboard.Watch.Basic
import Switchboard.Watch.Filter
import Switchboard.Watch.Settings
import Switchboard.Proofs.Act
import Switchboard.Proofs.Groundwork
import Switchboard.Proofs.Exchange
import Switchboard.Proofs.Reply
import Switchboard.Proofs.Authentication
import Switchboard.Proofs.Grammar
import Switchboard.Proofs.Parsing
import Switchboard.Proofs.Batches
import Switchboard.Proofs.Cells
import Switchboard.Proofs.Envelopes
import Switchboard.Proofs.Rendering
import Switchboard.Proofs.Spacing
import Switchboard.Proofs.Lexing
import Switchboard.Proofs.ReadBack
import Switchboard.Proofs.Requests
import Switchboard.Proofs.Responses
import Switchboard.Proofs.Transparency
import Switchboard.Proofs.Legibility
import Switchboard.Proofs.Notifications
import Switchboard.Proofs.Registration
import Switchboard.Proofs.Validation
import Switchboard.Proofs.Tables
import Switchboard.Proofs.Redaction
import Switchboard.Proofs.Runs
import Switchboard.Proofs.Serving
import Switchboard.Proofs.Numbering
import Switchboard.Proofs.Errands
import Switchboard.Proofs.Links
import Switchboard.Proofs.Crosstalk
import Switchboard.Proofs.Accounting
import Switchboard.Proofs.Dialects
import Switchboard.Proofs.Binding
import Switchboard.Proofs.Keywords
import Switchboard.Proofs.Conventions
import Switchboard.Proofs.Failures
import Switchboard.Proofs.Naming
import Switchboard.Proofs.Reading
import Switchboard.Proofs.Decoding
import Switchboard.Proofs.Unkeyed
import Switchboard.Proofs.Readers
import Switchboard.Proofs.Listings
import Switchboard.Proofs.Drafts
import Switchboard.Proofs.Words
import Switchboard.Proofs.Autonaming
import Switchboard.Proofs.Gauge
import Switchboard.Proofs.Credentials
import Switchboard.Proofs.Freshness
