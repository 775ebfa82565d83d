import EventDispatcher.Lib.Substitution
import EventDispatcher.Base
import EventDispatcher.Lib.SortedMap
import EventDispatcher.Communicator.Communicator
import EventDispatcher.Communicator.Delivery
import EventDispatcher.Communicator.Poll
import EventDispatcher.Communicator.Tick
import EventDispatcher.Communicator.Overflow
import EventDispatcher.Dispatcher.Definition
import EventDispatcher.Dispatcher.Match
import EventDispatcher.Dispatcher.Validation
import EventDispatcher.Dispatcher.Past
import EventDispatcher.Lib.Binary64
import EventDispatcher.Lib.Decimal
import EventDispatcher.Message.Accept
import EventDispatcher.Message.Cache
import EventDispatcher.Message.JsonRoundTrip
import EventDispatcher.Message.JsonValue
import EventDispatcher.Reporter.Lexer
import EventDispatcher.Reporter.Scan
import EventDispatcher.Reporter.Lexeme
import EventDispatcher.Lib.Lines
import EventDispatcher.Buffer.Read
import EventDispatcher.Buffer.HangUp
import EventDispatcher.Buffer.Write
import EventDispatcher.Permanent.Alive
import EventDispatcher.Permanent.Order
import EventDispatcher.Permanent.Flush
import EventDispatcher.Dispatcher.Remove
import EventDispatcher.Dispatcher.Load
import EventDispatcher.InterThread.Delivery
import EventDispatcher.InterThread.Poll
import EventDispatcher.CppProcess.Pipeline
import EventDispatcher.CppProcess.Life
import EventDispatcher.CppProcess.Tee
import EventDispatcher.SignalChild.ProcessSignal
import EventDispatcher.FileChanged.Table
import EventDispatcher.SocketEvents.Waiting
import EventDispatcher.SnapLogger.Daemon
import EventDispatcher.Buffer.Blocking
import EventDispatcher.Datagram.ProcessRead
import EventDispatcher.LocalServer.Ownership
import EventDispatcher.Reporter.Data
import EventDispatcher.Lib.Descent
import EventDispatcher.Reporter.Expression
import EventDispatcher.Reporter.Statement
import EventDispatcher.Reporter.Parser
import EventDispatcher.Reporter.Grammar
import EventDispatcher.Reporter.Compute
import EventDispatcher.Reporter.Control
import EventDispatcher.Reporter.Poll
import EventDispatcher.Reporter.Sort
import EventDispatcher.Reporter.SendData
import EventDispatcher.Reporter.If
import EventDispatcher.Reporter.Literal
import EventDispatcher.SnapLogger.Fields
import EventDispatcher.Datagram.Send
import EventDispatcher.Buffer.Deadline
import EventDispatcher.SocketEvents.Reply
import EventDispatcher.FileChanged.Merge
import EventDispatcher.CppProcess.DataPipe
import EventDispatcher.CppProcess.CapturePipe
import EventDispatcher.CppProcess.ProcessInfo
import EventDispatcher.CppProcess.ProcessList
import EventDispatcher.SignalHandler.Callbacks
import EventDispatcher.SignalHandler.Dispositions
import EventDispatcher.Buffer.BioClient
import EventDispatcher.LocalServer.Address
import EventDispatcher.Reporter.Substitute
import EventDispatcher.Reporter.Timestamp
import EventDispatcher.Reporter.Narrow
import EventDispatcher.Reporter.SendMessage
import EventDispatcher.Reporter.Position
import EventDispatcher.Link.Delivery
import EventDispatcher.Conversation.Wire
import EventDispatcher.Signal.Delivery
import EventDispatcher.SignalChild.Parent
import EventDispatcher.Script.Accepted
