import Zerogw.Library.Execution
import Zerogw.Library.Heap
import Zerogw.Library.Grouped
import Zerogw.Library.Tally
import Zerogw.Library.FileTree
import Zerogw.Library.Log
import Zerogw.Library.RoseTree
import Zerogw.Library.Multipart
import Zerogw.Library.Json
import Zerogw.Library.Buffer
import Zerogw.Basic
import Zerogw.Sieve
import Zerogw.SieveMemory
import Zerogw.Uids
import Zerogw.Backend.Basic
import Zerogw.Backend.Properties
import Zerogw.Backend.References
import Zerogw.Topics.Basic
import Zerogw.Topics.Links
import Zerogw.Topics.Tables
import Zerogw.Topics.Properties
import Zerogw.Topics.Routes
import Zerogw.Topics.Allocation
import Zerogw.Outputs.Basic
import Zerogw.Outputs.Properties
import Zerogw.Config
import Zerogw.Polling.Basic
import Zerogw.Polling.Arguments
import Zerogw.Polling.Properties
import Zerogw.Server.Basic
import Zerogw.Server.PublicId
import Zerogw.Server.Connections
import Zerogw.Server.Delivery
import Zerogw.Server.Broadcast
import Zerogw.Server.Moves
import Zerogw.Server.Handlers
import Zerogw.Server.Commands
import Zerogw.Server.LongPoll
import Zerogw.Server.Runs
import Zerogw.Server.Refinement
import Zerogw.Server.Watchers
import Zerogw.Server.Recipients
import Zerogw.Server.Acknowledge
import Zerogw.Server.JsonList
import Zerogw.Server.Numbering
import Zerogw.Server.Requests
import Zerogw.Server.Lifetimes
import Zerogw.Server.Grammar
import Zerogw.Server.Prefixes
import Zerogw.Server.Sync
import Zerogw.Server.Origins
import Zerogw.Server.Allocation
import Zerogw.Disk.Basic
import Zerogw.Disk.Properties
import Zerogw.Disk.Join
import Zerogw.Disk.Mime
import Zerogw.Disk.Deny
import Zerogw.Library.Cursor
import Zerogw.Disk.Encoding
import Zerogw.Library.Loop
import Zerogw.Disk.ReadFile
import Zerogw.Http.Basic
import Zerogw.Http.HeaderBlock
import Zerogw.Http.Properties
import Zerogw.Http.Answers
import Zerogw.Http.Slots
import Zerogw.Http.DiskReferences
import Zerogw.Http.DiskJobs
import Zerogw.Http.Retries
import Zerogw.Http.RetryCount
import Zerogw.Http.Wire
import Zerogw.Routing.Basic
import Zerogw.Routing.Properties
import Zerogw.Routing.Limits
import Zerogw.Lookups
import Zerogw.Rejections
import Zerogw.Isolation
import Zerogw.Receive
import Zerogw.Control
import Zerogw.Logging.Basic
import Zerogw.Logging.Buffers
import Zerogw.Logging.Escapes
import Zerogw.Logging.Decimal
import Zerogw.Library.Desk
import Zerogw.Server.Changes
import Zerogw.Server.Replies
import Zerogw.Server.Identity
import Zerogw.Server.Sessions
import Zerogw.Library.Transfer
import Zerogw.Page.Basic
import Zerogw.Page.Exchange
import Zerogw.Page.Tracking
import Zerogw.Page.Delivery
import Zerogw.Page.Runs
import Zerogw.Server.Presence
import Zerogw.Server.Inboxes
import Zerogw.Library.Intrusive
import Zerogw.Pools.Basic
import Zerogw.Pools.Properties
import Zerogw.Pools.Runs
import Zerogw.Pools.Backends
import Zerogw.Pools.Comets
