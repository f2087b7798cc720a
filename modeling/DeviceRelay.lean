import DeviceRelay.Address.Basic
import DeviceRelay.Address.Parser
import DeviceRelay.Backoff
import DeviceRelay.Camera.Hub
import DeviceRelay.Camera.Replay
import DeviceRelay.ClaimCode
import DeviceRelay.ClientId
import DeviceRelay.CommandLine.Options
import DeviceRelay.CommandLine.Setting
import DeviceRelay.Control.Protocol
import DeviceRelay.Device.ConfigQueue
import DeviceRelay.Device.Host
import DeviceRelay.Device.Wireless
import DeviceRelay.Document.Merge
import DeviceRelay.Document.Redact
import DeviceRelay.Duration
import DeviceRelay.Endpoint.Access
import DeviceRelay.Endpoint.Basic
import DeviceRelay.Endpoint.Clients
import DeviceRelay.Endpoint.Events
import DeviceRelay.Endpoint.Publish
import DeviceRelay.Endpoint.Server
import DeviceRelay.Endpoint.Session
import DeviceRelay.Frame
import DeviceRelay.Json.Basic
import DeviceRelay.Json.Failure
import DeviceRelay.Json.Member
import DeviceRelay.Json.Numeral
import DeviceRelay.Json.Parser
import DeviceRelay.Json.Printer
import DeviceRelay.Json.Rest
import DeviceRelay.Json.Typed
import DeviceRelay.Log.Range
import DeviceRelay.Log.Request
import DeviceRelay.Log.Source
import DeviceRelay.Main
import DeviceRelay.Number.Binary
import DeviceRelay.Number.Shortest
import DeviceRelay.Outbound.Certificate
import DeviceRelay.Outbound.Client
import DeviceRelay.Outbound.Error
import DeviceRelay.Outbound.Progress
import DeviceRelay.Outbound.Uri
import DeviceRelay.Proofs.Backoff
import DeviceRelay.Proofs.Backoff.Budget
import DeviceRelay.Proofs.Backoff.Delays
import DeviceRelay.Proofs.Camera.Audience
import DeviceRelay.Proofs.Camera.Replay
import DeviceRelay.Proofs.ClaimCode
import DeviceRelay.Proofs.Control.Camera
import DeviceRelay.Proofs.Control.Effects
import DeviceRelay.Proofs.Control.Outcomes
import DeviceRelay.Proofs.Control.Replies
import DeviceRelay.Proofs.Control.Secrecy
import DeviceRelay.Proofs.Control.WriteBack
import DeviceRelay.Proofs.Document.Masking
import DeviceRelay.Proofs.Document.Overlay
import DeviceRelay.Proofs.Document.ReadBack
import DeviceRelay.Proofs.Document.Shape
import DeviceRelay.Proofs.Endpoint.Broadcast
import DeviceRelay.Proofs.Endpoint.Copies
import DeviceRelay.Proofs.Endpoint.Course
import DeviceRelay.Proofs.Endpoint.Frames
import DeviceRelay.Proofs.Endpoint.Ledger
import DeviceRelay.Proofs.Endpoint.Limits
import DeviceRelay.Proofs.Endpoint.Line
import DeviceRelay.Proofs.Endpoint.Numbers
import DeviceRelay.Proofs.Endpoint.Order
import DeviceRelay.Proofs.Endpoint.Query
import DeviceRelay.Proofs.Endpoint.Roster
import DeviceRelay.Proofs.Endpoint.Sessions
import DeviceRelay.Proofs.Endpoint.Snapshots
import DeviceRelay.Proofs.Endpoint.Table
import DeviceRelay.Proofs.Endpoint.Tokens
import DeviceRelay.Proofs.Endpoint.Topics
import DeviceRelay.Proofs.Json.Numerals
import DeviceRelay.Proofs.Json.Reading
import DeviceRelay.Proofs.Json.RoundTrip
import DeviceRelay.Proofs.Json.Size
import DeviceRelay.Proofs.Json.Skipping
import DeviceRelay.Proofs.Json.Written
import DeviceRelay.Proofs.Log.Growing
import DeviceRelay.Proofs.Log.Paging
import DeviceRelay.Proofs.Log.Sizes
import DeviceRelay.Proofs.Log.Stores
import DeviceRelay.Proofs.Log.Window
import DeviceRelay.Proofs.Outbound.Outbox
import DeviceRelay.Proofs.Outbound.Session
import DeviceRelay.Proofs.Outbound.Sharing
import DeviceRelay.Proofs.Outbound.Supervision
import DeviceRelay.Proofs.Relays.Answers
import DeviceRelay.Proofs.Relays.Cloud
import DeviceRelay.Proofs.Relays.Following
import DeviceRelay.Proofs.Relays.Privacy
import DeviceRelay.Proofs.Relays.Updates
import DeviceRelay.Proofs.Startup.Overrides
import DeviceRelay.Proofs.Text.Cut
import DeviceRelay.Proofs.Text.Percent
import DeviceRelay.Proofs.Text.Utf8
import DeviceRelay.Proofs.Tunnel.BrokerFields
import DeviceRelay.Proofs.Tunnel.Callbacks
import DeviceRelay.Proofs.Tunnel.Classify
import DeviceRelay.Proofs.Tunnel.Configuring
import DeviceRelay.Proofs.Tunnel.Deliveries
import DeviceRelay.Proofs.Tunnel.Dial
import DeviceRelay.Proofs.Tunnel.Disabling
import DeviceRelay.Proofs.Tunnel.Generations
import DeviceRelay.Proofs.Tunnel.History
import DeviceRelay.Proofs.Tunnel.Moves
import DeviceRelay.Proofs.Tunnel.Pace
import DeviceRelay.Proofs.Tunnel.Permits
import DeviceRelay.Proofs.Tunnel.Queues
import DeviceRelay.Proofs.Tunnel.Readiness
import DeviceRelay.Proofs.Tunnel.Sends
import DeviceRelay.Proofs.Tunnel.Settings
import DeviceRelay.Proofs.Tunnel.Snapshots
import DeviceRelay.Proofs.Tunnel.Stances
import DeviceRelay.Proofs.Tunnel.Steps
import DeviceRelay.Proofs.Tunnel.Transports
import DeviceRelay.Proofs.Tunnel.Turns
import DeviceRelay.Proofs.Tunnel.Waits
import DeviceRelay.Queue
import DeviceRelay.Relays.Basic
import DeviceRelay.Relays.Cloud
import DeviceRelay.Relays.Settings
import DeviceRelay.Reply
import DeviceRelay.Service
import DeviceRelay.Startup.Basic
import DeviceRelay.Startup.Error
import DeviceRelay.Startup.Launch
import DeviceRelay.Startup.Overrides
import DeviceRelay.Text.Blank
import DeviceRelay.Text.Percent
import DeviceRelay.Text.Quoted
import DeviceRelay.Text.Utf8
import DeviceRelay.Ticker
import DeviceRelay.Tunnel.Basic
import DeviceRelay.Tunnel.BrokerMessage
import DeviceRelay.Tunnel.Control
import DeviceRelay.Tunnel.Dial
import DeviceRelay.Tunnel.Fleet
import DeviceRelay.Tunnel.Gate
import DeviceRelay.Tunnel.Progress
import DeviceRelay.Tunnel.Send
import DeviceRelay.Tunnel.State
import DeviceRelay.Tunnel.Step
import DeviceRelay.Tunnel.Transport
import DeviceRelay.Tunnel.Worker
