import EchoLoad.Client.Sender
import EchoLoad.Datagram.Client
import EchoLoad.Datagram.Endpoint
import EchoLoad.Datagram.Server
import EchoLoad.Main
import EchoLoad.Stream.Client
import EchoLoad.Stream.Server
import EchoLoad.Checked
import EchoLoad.Framing.Assembly
import EchoLoad.Proofs.Framing.Segmentation
import EchoLoad.Proofs.Framing.Reassembly
import EchoLoad.Proofs.Framing.Sending
import EchoLoad.Proofs.Framing.Link
import EchoLoad.Proofs.Framing.Reading
import EchoLoad.Proofs.Framing.Steady
import EchoLoad.Proofs.Stream.Echo
import EchoLoad.Proofs.Stats.Sampling
import EchoLoad.Proofs.Client.Turns
import EchoLoad.Client.Group
import EchoLoad.Proofs.Client.Admission
import EchoLoad.Proofs.Client.Trace
import EchoLoad.Datagram.Exchange
import EchoLoad.Proofs.Datagram.Conservation
import EchoLoad.Proofs.Datagram.Safety
import EchoLoad.Proofs.Datagram.Answer
import EchoLoad.Proofs.Stream.Table
import EchoLoad.Proofs.Stream.Turns
import EchoLoad.Proofs.Stream.Removal
import EchoLoad.Proofs.Framing.Waiting
import EchoLoad.Proofs.Stream.Interest
import EchoLoad.Proofs.Stream.Backlog
import EchoLoad.Proofs.Client.FrameLimit
import EchoLoad.Proofs.Client.ClosedLoop
import EchoLoad.Proofs.Random.Ranges
import EchoLoad.Proofs.Schedule.Drawn
import EchoLoad.Proofs.Schedule.Course
import EchoLoad.Proofs.Client.Access
import EchoLoad.Proofs.Stats.Reporting
import EchoLoad.Proofs.Node.Registry
import EchoLoad.Datagram.Socket
import EchoLoad.Proofs.Datagram.Filter
import EchoLoad.Proofs.Framing.Polling
import EchoLoad.Proofs.Framing.Refusal
import EchoLoad.Proofs.Datagram.Serving
import EchoLoad.Proofs.Schedule.Calls
import EchoLoad.Proofs.Schedule.Repetition
import EchoLoad.Proofs.Stats.Accounting
import EchoLoad.Proofs.Stats.Ranking
import EchoLoad.Proofs.Decimal.Literals
import EchoLoad.Proofs.Text.Fields
import EchoLoad.Proofs.Workload.Names
import EchoLoad.Proofs.Workload.Means
import EchoLoad.Proofs.Schedule.Independence
import EchoLoad.Proofs.Stats.Dumping
import EchoLoad.Stream.Member
import EchoLoad.Proofs.Stream.Membership
import EchoLoad.Proofs.Command.Targets
import EchoLoad.Proofs.Arguments.Reading
import EchoLoad.Proofs.Arguments.Pending
import EchoLoad.Proofs.Toml.Names
import EchoLoad.Proofs.Settings.Options
import EchoLoad.Proofs.Settings.Precedence
import EchoLoad.Proofs.Command.RoundTrip
import EchoLoad.Proofs.Settings.Startup
import EchoLoad.Proofs.Settings.Startup
import EchoLoad.Proofs.Message.Codec
