import CppGate.Foundations.ListWeights
import CppGate.ConnectionPool.Pool
import CppGate.ConnectionPool.Accounting
import CppGate.ConnectionPool.Invariant
import CppGate.ConnectionPool.Guarantees
import CppGate.ConnectionPool.IdleTime
import CppGate.Foundations.Text
import CppGate.Proxies.TrustedProxies
import CppGate.Proxies.Forwarding
import CppGate.WebSocketSession.Delivery
import CppGate.Routing.Answers
import CppGate.HttpClient.Call
import CppGate.HttpClient.Completion
import CppGate.HttpClient.Client
import CppGate.HttpClient.Pairing
import CppGate.HttpClient.Attempts
import CppGate.HttpClient.Retries
import CppGate.WebSocketClient.Connection
import CppGate.WebSocketClient.EventGrammar
import CppGate.WebSocketClient.Handlers
import CppGate.WebSocketClient.ClosedForGood
import CppGate.WebSocketClient.CloseCodes
import CppGate.WebSocketClient.QueueSteps
import CppGate.WebSocketClient.Reservations
import CppGate.WebSocketClient.MessageOrder
import CppGate.WebSocketClient.RetryDelay
import CppGate.HttpSession.GracefulStop
import CppGate.Foundations.FifoQueue
import CppGate.ConnectionPool.Fairness
import CppGate.ConnectionPool.Closing
import CppGate.ConnectionPool.MinSize
import CppGate.Routing.Dispatch
import CppGate.Routing.Groups
import CppGate.Routing.WholeTemplates
import CppGate.Routing.Attribution
import CppGate.Routing.UrlParams
import CppGate.Middleware.Cors
import CppGate.Middleware.CorsHeaders
import CppGate.HttpSession.Control
import CppGate.HttpSession.Discipline
import CppGate.HttpSession.Persistence
import CppGate.Foundations.Framing
import CppGate.Foundations.Regex
import CppGate.HttpSession.HeadRequests
import CppGate.WebSocketSession.Callbacks
import CppGate.WebSocketSession.Accounting
import CppGate.RingBuffer.RingBuffer
import CppGate.RingBuffer.Fifo
import CppGate.RingBuffer.Capacity
import CppGate.ConnectionPool.Reclaiming
import CppGate.ConnectionPool.Handles
import CppGate.ConnectionPool.Deadlines
import CppGate.Routing.PlainTemplates
import CppGate.Foundations.Uri
import CppGate.Foundations.UriGrammar
import CppGate.ClientCommon.ParseUrl
import CppGate.Routing.SentPaths
import CppGate.Foundations.BitPrefixes
import CppGate.Proxies.Blocks
import CppGate.Proxies.Suffixes
import CppGate.Proxies.AddressForms
import CppGate.Middleware.OriginPatterns
import CppGate.Middleware.Subdomains
import CppGate.Middleware.Caching
import CppGate.HttpClient.ConnectionFlow
import CppGate.HttpClient.Reuse
import CppGate.HttpClient.IdleStore
import CppGate.HttpClient.Sharing
import CppGate.HttpClient.Destinations
import CppGate.Foundations.Histories
import CppGate.WebSocketClient.Muting
import CppGate.WebSocketClient.Reconnecting
import CppGate.HttpClient.Reports
import CppGate.HttpClient.ReportInvariant
import CppGate.HttpClient.ProgressReports
import CppGate.HttpClient.Strand
import CppGate.HttpClient.FirstAbort
import CppGate.Foundations.Roster
import CppGate.Foundations.Parts
import CppGate.WebSocketSession.Lifecycle
import CppGate.WebSocketSession.GoingAway
import CppGate.WebSocketSession.Opening
import CppGate.Server.Listener
import CppGate.HttpSession.Admission
import CppGate.Server.Sessions
import CppGate.Server.Server
import CppGate.Server.Shutdown
import CppGate.HttpSession.Deadlines
import CppGate.Routing.Handshakes
import CppGate.RingBuffer.Emptiness
import CppGate.HttpClient.Lifetime
import CppGate.HttpClient.Destruction
import CppGate.WebSocketClient.Closing
import CppGate.WebSocketClient.Lifetime
import CppGate.RingBuffer.Progress
import CppGate.HttpClient.Deadlines
import CppGate.Proxies.Publication
