import LightLink.Device.Sink
import LightLink.Device.Source
import LightLink.Main
import LightLink.Relay.Loopback
import LightLink.Relay.Rehearsal
import LightLink.Session.StandIn
import LightLink.Proofs.Wire.Reads
import LightLink.Proofs.Wire.Incremental
import LightLink.Proofs.Text.Number
import LightLink.Proofs.Message.Formats
import LightLink.Proofs.Message.RoundTrip
import LightLink.Proofs.Message.Canonical
import LightLink.Proofs.Message.Steps
import LightLink.Proofs.Message.Positions
import LightLink.Proofs.Message.Restarts
import LightLink.Proofs.Message.Arriving
import LightLink.Proofs.Message.Responses
import LightLink.Proofs.Message.Commands
import LightLink.Proofs.Message.Blame
import LightLink.Proofs.Message.Programs
import LightLink.Proofs.Message.ColourText
import LightLink.Proofs.Config.Dump
import LightLink.Proofs.Config.Validation
import LightLink.Proofs.Config.Addressing
import LightLink.Proofs.Frame.Segments
import LightLink.Proofs.Frame.WellFormed
import LightLink.Proofs.Frame.Fates
import LightLink.Proofs.Frame.Script
import LightLink.Proofs.Frame.Latched
import LightLink.Proofs.Ring.Shared
import LightLink.Proofs.Session.Calls
import LightLink.Proofs.Session.Kept
import LightLink.Proofs.Session.Pending
import LightLink.Proofs.Session.Flow
import LightLink.Proofs.Session.Taken
import LightLink.Proofs.Session.Requests
import LightLink.Proofs.Session.Order
import LightLink.Proofs.Session.Sound
import LightLink.Proofs.Session.Written
import LightLink.Proofs.Session.Terminated
import LightLink.Proofs.Session.Verdicts
import LightLink.Proofs.Session.Polled
import LightLink.Proofs.Session.AtHand
import LightLink.Proofs.Session.Interleaved
import LightLink.Proofs.Session.Responder
import LightLink.Proofs.Session.Ready
import LightLink.Proofs.Session.IdealWait
import LightLink.Proofs.Session.Recorded
import LightLink.Proofs.Session.Plans
import LightLink.Proofs.Scan.Registry
import LightLink.Proofs.Scan.Polls
import LightLink.Proofs.Scan.Passes
import LightLink.Proofs.Scan.Attribution
import LightLink.Proofs.Scan.History
import LightLink.Proofs.Relay.Items
import LightLink.Proofs.Relay.Stream
import LightLink.Proofs.Relay.Turns
import LightLink.Proofs.Relay.Broadcast
import LightLink.Proofs.Relay.Live
import LightLink.Proofs.Relay.Pairing
import LightLink.Proofs.Relay.Sharing
import LightLink.Proofs.Relay.Served
import LightLink.Proofs.Relay.LifeCycle
import LightLink.Proofs.Relay.DataAnswers
import LightLink.Proofs.Relay.Replies
import LightLink.Proofs.Relay.Collected
