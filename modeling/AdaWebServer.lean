import AdaWebServer.Client.PostAttachments
import AdaWebServer.Containers.HeaderFields
import AdaWebServer.Containers.ParameterStreams
import AdaWebServer.Digest.Nonce
import AdaWebServer.Http2.Acknowledgement
import AdaWebServer.Http2.HeaderBlocks
import AdaWebServer.Http2.HeadersLayout
import AdaWebServer.Http2.Hpack.DecoderCapacity
import AdaWebServer.Http2.Hpack.HuffmanAccepted
import AdaWebServer.Http2.Hpack.IndexLookup
import AdaWebServer.Http2.Hpack.IntegerRange
import AdaWebServer.Http2.Hpack.Totality
import AdaWebServer.Http2.RangeFraming
import AdaWebServer.Http2.ReceiveLimits
import AdaWebServer.Http2.ReceiveWindow
import AdaWebServer.Http2.SettingsOrder
import AdaWebServer.Http2.StreamStates
import AdaWebServer.Http2.Synchronisation
import AdaWebServer.Messages.CacheRoundTrip
import AdaWebServer.Net.Readiness
import AdaWebServer.Net.SetSending
import AdaWebServer.Net.TimeoutRetry
import AdaWebServer.Net.Transparency
import AdaWebServer.Push.OutputQueue
import AdaWebServer.Server.ChunkedSending
import AdaWebServer.Server.Dispatcher
import AdaWebServer.Server.FileExtraction
import AdaWebServer.Server.RangeSending
import AdaWebServer.Services.Cookie
import AdaWebServer.Services.DownloadSafety
import AdaWebServer.Services.TimerDispatcher
import AdaWebServer.Session.Cleaner
import AdaWebServer.Session.Persistence
import AdaWebServer.Smtp.Survival
import AdaWebServer.Soap.DurationsRoundTrip
import AdaWebServer.Soap.Insignificance
import AdaWebServer.Soap.Scoping
import AdaWebServer.Status.ReadBody
import AdaWebServer.Url.Resolve
import AdaWebServer.Utils.BufferedData
import AdaWebServer.Utils.Mailbox
import AdaWebServer.WebSocket.Asynchronous
import AdaWebServer.WebSocket.CloseReason
import AdaWebServer.WebSocket.Totality
