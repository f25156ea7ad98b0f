import Revent.Interleave.Prog
import Revent.Interleave.Pool
import Revent.Interleave.Alone
import Revent.Interleave.Amid
import Revent.Interleave.Refinement
import Revent.Feed.Spec
import Revent.Lists.Rotation
import Revent.Lists.Windows
import Revent.Url.Split
import Revent.Url.Path
import Revent.Domain.HashMap
import Revent.Domain.Ids
import Revent.Domain.Messages
import Revent.Domain.QueryHandler
import Revent.Api.Proto
import Revent.Api.Transform
import Revent.Api.GrpcTx
import Revent.Runtime.World
import Revent.Domain.Pages
import Revent.Api.Rest
import Revent.Db.SourceEventTable
import Revent.Domain.State
import Revent.Runtime.System
import Revent.Laws.Sites
import Revent.Laws.Flow
import Revent.Laws.Effects
import Revent.Laws.Registration
import Revent.Laws.Attribution
import Revent.Laws.Registry
import Revent.Laws.Requests
import Revent.Laws.Routing
import Revent.Laws.Forwarding
import Revent.Laws.Answers
import Revent.Laws.Settlement
import Revent.Laws.Ownership
import Revent.Laws.Roster
import Revent.Laws.Conservation
import Revent.Laws.Responders
import Revent.Laws.Channels
import Revent.Laws.Broadcasts
import Revent.Laws.Cleanup
import Revent.Laws.Clock
import Revent.Laws.Publication
import Revent.Laws.EventOrder
import Revent.Laws.Backpressure
import Revent.Laws.Delivery
import Revent.Laws.Identity
import Revent.Laws.Selection
import Revent.Laws.Fairness
import Revent.Laws.Switchboard
import Revent.Laws.Twins
import Revent.Laws.RoundRobin
import Revent.Laws.Frames
import Revent.Laws.Atomicity
import Revent.Laws.Duplicates
import Revent.Laws.Tick
import Revent.Laws.Decoding
import Revent.Laws.Reasons
import Revent.Laws.Storability
import Revent.Laws.Payloads
import Revent.Laws.Pages
import Revent.Laws.Partition
import Revent.Laws.ClientLinks
import Revent.Laws.PrevLinks
import Revent.Laws.Snapshots
import Revent.Laws.EventFeed
import Revent.Laws.Rounds
import Revent.Laws.Staleness
import Revent.Laws.Quiescence
import Revent.Lists.Ranks
import Revent.Laws.Browsing
import Revent.Interleave.Latch
import Revent.Laws.Latches
import Revent.Laws.Details
import Revent.Laws.Ticks
import Revent.Interleave.Footprint
import Revent.Laws.Commutation
import Revent.Laws.Provenance
import Revent.Laws.Isolation
import Revent.Laws.RoundTrip
