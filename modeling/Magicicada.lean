import Magicicada.Bytes
import Magicicada.Pb
import Magicicada.Prog
import Magicicada.Errors
import Magicicada.FrameScan
import Magicicada.Framing
import Magicicada.Hello
import Magicicada.Fields
import Magicicada.MultiQuery
import Magicicada.Dict
import Magicicada.Uuid
import Magicicada.UuidForm
import Magicicada.Validators
import Magicicada.Validation
import Magicicada.Records
import Magicicada.Shares
import Magicicada.Requests
import Magicicada.Sending
import Magicicada.Client
import Magicicada.Rules
import Magicicada.Quiet
import Magicicada.Runs
import Magicicada.Registry
import Magicicada.Lifecycle
import Magicicada.Responses
import Magicicada.Demux
import Magicicada.Late
import Magicicada.Producing
import Magicicada.Upload
import Magicicada.Acts
import Magicicada.Performing
import Magicicada.Events
import Magicicada.Rejecting
import Magicicada.Teardown
import Magicicada.Throttle
import Magicicada.Unthrottle
import Magicicada.Throttled
import Magicicada.NextFit
import Magicicada.Starting
import Magicicada.QueryFrames
import Magicicada.FailedStart
import Magicicada.Callbacks
import Magicicada.Losing
import Magicicada.Peers
import Magicicada.Factory
import Magicicada.Timers
import Magicicada.Clock
import Magicicada.Resets
import Magicicada.Reconnect
import Magicicada.ProxyTunnel
import Magicicada.LineScan
import Magicicada.ProxyHeader
import Magicicada.ProxyChunks
import Magicicada.ProxyOutcome
import Magicicada.Flowing
import Magicicada.Resuming
import Magicicada.Stalls
import Magicicada.QueryLoop
import Magicicada.Notices
import Magicicada.ProxyStatus
import Magicicada.Replies
import Magicicada.StableSort
import Magicicada.WireRead
import Magicicada.DirContent
import Magicicada.Offsets
import Magicicada.Others
import Magicicada.Downloads
import Magicicada.Cancelling
import Magicicada.ReadErrors
import Magicicada.Disabling
import Magicicada.ChunkFrames
import Magicicada.Work
import Magicicada.WireShows
import Magicicada.Serializing
import Magicicada.Frames
import Magicicada.Timestamps
import Magicicada.WireParse
import Magicicada.Parsing
import Magicicada.Connected
import Magicicada.Links
import Magicicada.Conversations
import Magicicada.Received
import Magicicada.Alone
import Magicicada.Listings
import Magicicada.Queried
import Magicicada.Outgoing
import Magicicada.Roots
import Magicicada.Meter
import Magicicada.Reading
import Magicicada.Waiting
import Magicicada.Backlog
import Magicicada.ProxyLines
import Magicicada.ProxyCuts
