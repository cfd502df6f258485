import Ladder.Library.Words
import Ladder.Library.Runs
import Ladder.Library.Fifo
import Ladder.Library.Handover
import Ladder.Library.Chain
import Ladder.Library.Occurrences
import Ladder.Library.Streams
import Ladder.Library.Framing
import Ladder.Library.LowestBit
import Ladder.Source.Buffer
import Ladder.Source.Codec
import Ladder.Source.BufferTransfer
import Ladder.Source.Channel
import Ladder.Source.FileBuffer
import Ladder.Source.FileTransfer
import Ladder.Source.Connection
import Ladder.Source.TlsConnection
import Ladder.Source.TlsEngine
import Ladder.Source.TcpServer
import Ladder.Source.ThreadPool
import Ladder.Source.EventLoop
import Ladder.Source.KqueuePoller
import Ladder.Source.TcpClient
import Ladder.Source.Singletons
import Ladder.Source.IocpConnection
import Ladder.Source.ReadDispatch
import Ladder.Source.CodecDispatch
import Ladder.Source.Logger
import Ladder.Source.MemoryPool
import Ladder.Source.Connector
import Ladder.Source.ClientConnector
import Ladder.Source.FindSubstr
import Ladder.Source.HttpMessage
import Ladder.Source.HttpParsing
import Ladder.Source.HttpServer
import Ladder.Source.HttpConnection
import Ladder.Source.ArgumentParser
import Ladder.Source.GZip
import Ladder.Guarantees.BufferFifo
import Ladder.Guarantees.CodecFraming
import Ladder.Guarantees.ConcurrentFlush
import Ladder.Guarantees.WriteInterest
import Ladder.Guarantees.SendFileStream
import Ladder.Guarantees.HalfClose
import Ladder.Guarantees.CloseDispatch
import Ladder.Guarantees.TlsHandshake
import Ladder.Guarantees.ConnectionTable
import Ladder.Guarantees.SetupEdges
import Ladder.Guarantees.PoolMutex
import Ladder.Guarantees.TaskDelivery
import Ladder.Guarantees.PoolWakeUp
import Ladder.Guarantees.LoopStop
import Ladder.Guarantees.KqueueInterest
import Ladder.Guarantees.KqueueDispatch
import Ladder.Guarantees.ClientStatus
import Ladder.Guarantees.SingletonLifetime
import Ladder.Guarantees.IocpOutput
import Ladder.Guarantees.ReadHandover
import Ladder.Guarantees.PoolDelivery
import Ladder.Guarantees.WriteShutdown
import Ladder.Guarantees.LogFile
import Ladder.Guarantees.BlockConservation
import Ladder.Guarantees.UntrustedPackets
import Ladder.Guarantees.ConnectionOutput
import Ladder.Guarantees.CodecConnection
import Ladder.Guarantees.MessageTransport
import Ladder.Guarantees.TlsPump
import Ladder.Guarantees.ReconnectBackoff
import Ladder.Guarantees.ClientAttempts
import Ladder.Guarantees.TransferCounters
import Ladder.Guarantees.FileFlush
import Ladder.Guarantees.ComposeParse
import Ladder.Guarantees.HttpPipelining
import Ladder.Guarantees.HttpExchange
import Ladder.Guarantees.MalformedHead
import Ladder.Guarantees.HttpFraming
import Ladder.Guarantees.SubstringSearch
import Ladder.Guarantees.BufferStorage
import Ladder.Guarantees.OptionGrammar
import Ladder.Guarantees.GZipDrivers
import Ladder.Guarantees.RequestParsing
import Ladder.Guarantees.FileDownload
