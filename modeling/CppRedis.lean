import CppRedis.Runs
import CppRedis.Ledger
import CppRedis.Interleaving
import CppRedis.Strings
import CppRedis.Reply
import CppRedis.Uri
import CppRedis.Connection
import CppRedis.Pool
import CppRedis.Execute
import CppRedis.Lending
import CppRedis.Exhaustion
import CppRedis.Capacity
import CppRedis.Health
import CppRedis.Database
import CppRedis.Clients
import CppRedis.Sentinels
import CppRedis.Monitor
import CppRedis.Lifetime
import CppRedis.AsyncConnections
import CppRedis.AsyncLifetimes
import CppRedis.Timers
import CppRedis.Pushes
import CppRedis.Dispatch
import CppRedis.Subscriptions
import CppRedis.Listeners
import CppRedis.Resubscription
import CppRedis.Cuts
import CppRedis.Frames
import CppRedis.Commands
import CppRedis.Requests
import CppRedis.Decoders
import CppRedis.Methods
import CppRedis.Arities
import CppRedis.Outcomes
import CppRedis.Connects
import CppRedis.Destructors
import CppRedis.Errors
import CppRedis.Successes
import CppRedis.Bounds
import CppRedis.Lists
import CppRedis.Deadlines
import CppRedis.Expiry
import CppRedis.Urls
import CppRedis.Residues
import CppRedis.EntryPoints
import CppRedis.Discovery
import CppRedis.Tables
import CppRedis.Containers
import CppRedis.Exchanges
import CppRedis.Counters
import CppRedis.StringMaps
import CppRedis.Hashes
import CppRedis.Updates
import CppRedis.Sets
import CppRedis.Notifications
import CppRedis.Streams
import CppRedis.Readers
import CppRedis.ReplyStreams
import CppRedis.Deliveries
import CppRedis.Encodings
import CppRedis.Contexts
import CppRedis.Conversations
import CppRedis.Buckets
import CppRedis.Dicts
import CppRedis.Callbacks
import CppRedis.Scans
import CppRedis.Pipelines
import CppRedis.Responses
import CppRedis.Lifecycles
import CppRedis.Registers
import CppRedis.Broadcasts
import CppRedis.Formats
import CppRedis.Refinements
import CppRedis.Transports
