import RoqKraken.Tools.FormBody
import RoqKraken.Tools.LimitHeaders
import RoqKraken.Protocol.Timestamps
import RoqKraken.Protocol.OrderFrames
import RoqKraken.Protocol.OrderRequests
import RoqKraken.Protocol.Parser
import RoqKraken.Gateway.Funds
import RoqKraken.Gateway.TradedQuantity
import RoqKraken.Gateway.Fills
import RoqKraken.Gateway.OrderSnapshots
import RoqKraken.Gateway.Parsing
import RoqKraken.Gateway.Rejections
import RoqKraken.Gateway.Attribution
import RoqKraken.Gateway.Books
import RoqKraken.Gateway.BookLevels
import RoqKraken.Gateway.Trades
import RoqKraken.Gateway.TradingStatus
import RoqKraken.Gateway.PrivateSessions
import RoqKraken.Gateway.Subscriptions
import RoqKraken.Gateway.StreamTables
import RoqKraken.Gateway.Responses
import RoqKraken.Gateway.Tokens
import RoqKraken.Gateway.Isolation
import RoqKraken.Gateway.Stopping
import RoqKraken.Gateway.Statuses
import RoqKraken.Gateway.Orders
import RoqKraken.Gateway.Exchange
import RoqKraken.Gateway.Heartbeats
import RoqKraken.Gateway.RequestOrder
import RoqKraken.Gateway.Connections
import RoqKraken.Gateway.Credentials
import RoqKraken.Gateway.Signing
import RoqKraken.Gateway.Recovery
import RoqKraken.Gateway.Texts
import RoqKraken.Gateway.Readiness
import RoqKraken.Tools.Suspensions
import RoqKraken.Gateway.Introductions
