import CoapNode.Log
import CoapNode.Text.Quoted
import CoapNode.Endpoint.Parser
import CoapNode.Message.Response
import CoapNode.Random
import CoapNode.Time.Clock
import CoapNode.Time.Retry
import CoapNode.Time.Timer
import CoapNode.Config
import CoapNode.Credential.DefaultPsk
import CoapNode.Credential.Keystore
import CoapNode.Resource.Basic
import CoapNode.Resource.Periodic
import CoapNode.Activity
import CoapNode.Transaction.Basic
import CoapNode.Transaction.Slots
import CoapNode.Transaction.Table
import CoapNode.Blockwise.Client
import CoapNode.Network.Conversation
import CoapNode.Network.SecureChannel
import CoapNode.Network.Transport
import CoapNode.Network.Inbound
import CoapNode.Network.Outbound
import CoapNode.Node.Basic
import CoapNode.Simulation.Channel
import CoapNode.Simulation.Clock
import CoapNode.Simulation.Exchange
import CoapNode.Simulation.Resource
import CoapNode.Simulation.Socket
import CoapNode.Simulation.Node
import CoapNode.Proofs.Message.Block
import CoapNode.Proofs.Message.Header
import CoapNode.Proofs.Resource.Reply
import CoapNode.Proofs.Resource.Dispatch
import CoapNode.Proofs.Blockwise.Session
import CoapNode.Proofs.Blockwise.Requests
import CoapNode.Proofs.Blockwise.Transfer
import CoapNode.Proofs.Blockwise.Conversation
import CoapNode.Proofs.Time.Retry
import CoapNode.Proofs.Time.Delay
import CoapNode.Proofs.Transaction.Life
import CoapNode.Proofs.Transaction.Lookup
import CoapNode.Proofs.Transaction.Run
import CoapNode.Proofs.Transaction.Consistency
import CoapNode.Proofs.Transaction.Outcome
import CoapNode.Proofs.Transaction.Credit
import CoapNode.Proofs.Transaction.Choice
import CoapNode.Proofs.Transaction.Holders
import CoapNode.Proofs.Transaction.Deliveries
import CoapNode.Proofs.Transaction.Timing
import CoapNode.Proofs.Transaction.Retransmission
import CoapNode.Proofs.Transaction.Deadline
import CoapNode.Proofs.Transaction.Agreement
import CoapNode.Proofs.Transaction.Addressee
import CoapNode.Proofs.Network.Delivered
import CoapNode.Proofs.Network.Origin
import CoapNode.Proofs.Network.Recorded
import CoapNode.Proofs.Node.Layer
import CoapNode.Proofs.Node.Sender
import CoapNode.Proofs.Node.Reaction
import CoapNode.Proofs.Node.Intake
import CoapNode.Proofs.Node.Service
import CoapNode.Proofs.Node.Quiescence
import CoapNode.Proofs.Node.Separation
import CoapNode.Proofs.Node.Turn
import CoapNode.Proofs.Node.Exchange
import CoapNode.Proofs.Transaction.Isolation
import CoapNode.Proofs.Transaction.Places
import CoapNode.Proofs.Blockwise.Fleet
import CoapNode.Proofs.Resource.Recorded
import CoapNode.Proofs.Resource.Routing
import CoapNode.Proofs.Network.Address
import CoapNode.Proofs.Node.ReturnPath
import CoapNode.Proofs.Node.Precedence
import CoapNode.Proofs.Network.Queued
import CoapNode.Proofs.Node.Strays
import CoapNode.Proofs.Text.Utf8
import CoapNode.Proofs.Message.OptionBlock
import CoapNode.Proofs.Message.RoundTrip
import CoapNode.Proofs.Resource.Segments
import CoapNode.Proofs.Resource.NormalPath
import CoapNode.Proofs.Resource.Firing
import CoapNode.Proofs.Resource.Run
import CoapNode.Proofs.Resource.Ticks
import CoapNode.Proofs.Credential.Lookup
import CoapNode.Proofs.Address.Digits
import CoapNode.Proofs.Address.RoundTrip
import CoapNode.Proofs.Endpoint.Grammar
import CoapNode.Proofs.Network.Arrivals
import CoapNode.Proofs.Resource.Sweep
import CoapNode.Proofs.Resource.Wakeup
import CoapNode.Proofs.Resource.Refusal
import CoapNode.Proofs.Resource.Slice
import CoapNode.Proofs.Blockwise.Readable
import CoapNode.Proofs.Blockwise.Budget
import CoapNode.Proofs.Time.Polls
import CoapNode.Proofs.Time.Spacing
import CoapNode.Proofs.Message.Rounds
import CoapNode.Proofs.Message.BlockValue
import CoapNode.Proofs.Credential.Handshake
