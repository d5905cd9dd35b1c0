import SMEWindow.Lib.Transition
import SMEWindow.Lib.Refinement
import SMEWindow.Lib.Loop
import SMEWindow.Lib.Utf8
import SMEWindow.Lib.Hexadecimal
import SMEWindow.Lib.LittleEndian
import SMEWindow.Lib.RecordLayout
import SMEWindow.Lib.MemoryTrace
import SMEWindow.Lib.SegmentedStream
import SMEWindow.Lib.Text
import SMEWindow.Lib.Splitting
import SMEWindow.Lib.Terminated
import SMEWindow.Lib.Element
import SMEWindow.Lib.Markup
import SMEWindow.Lib.Autocommit
import SMEWindow.Lib.Chain
import SMEWindow.Lib.IdentityTable
import SMEWindow.Lib.SharedFiles
import SMEWindow.Lib.WorkerPool
import SMEWindow.Lib.Alternation
import SMEWindow.Lib.QuotedText
import SMEWindow.Lib.InsertStatement
import SMEWindow.Lib.StatementExecution
import SMEWindow.Lib.SharedDatabase
import SMEWindow.NetLib.Sender
import SMEWindow.Collect.CallStack
import SMEWindow.Collect.StackTrace
import SMEWindow.Collect.Information
import SMEWindow.Collect.FileName
import SMEWindow.Collect.ExceptionInformation
import SMEWindow.Collect.DataDictionary
import SMEWindow.Collect.Collector
import SMEWindow.Collect.ReportFiles
import SMEWindow.Client.FirstChance
import SMEWindow.Xml.Report
import SMEWindow.Xml.ReportFile
import SMEWindow.DumpReader.MinidumpStream
import SMEWindow.DumpReader.MappedView
import SMEWindow.DumpReader.NativeRecords
import SMEWindow.DumpReader.Reader
import SMEWindow.DumpReader.DumpContent
import SMEWindow.Server.Receiver
import SMEWindow.Server.HeaderExchange
import SMEWindow.Client.Configuration
import SMEWindow.Client.Routing
import SMEWindow.Server.ReceiverReturn
import SMEWindow.Server.Listener
import SMEWindow.Server.Acceptance
import SMEWindow.Server.BodyTransfer
import SMEWindow.Server.ReceivedPath
import SMEWindow.Server.ReceivedFiles
import SMEWindow.Server.DumpsTable
import SMEWindow.Server.ExceptionRows
import SMEWindow.Server.ExceptionChain
import SMEWindow.Server.Statements
import SMEWindow.Server.Storage
import SMEWindow.Server.StoringEnd
import SMEWindow.Server.TokenStructure
import SMEWindow.Server.InsertedRows
import SMEWindow.Server.StoredException
import SMEWindow.Server.Delivery
import SMEWindow.Server.DumpDelivery
import SMEWindow.Server.MinidumpRows
import SMEWindow.Server.SMEDBManager
import SMEWindow.Server.ModuleStatement
import SMEWindow.Breakpad.HandlerThread
import SMEWindow.Breakpad.HandlerReturn
import SMEWindow.Breakpad.HandlerStack
import SMEWindow.Breakpad.DestructionOrder
import SMEWindow.Breakpad.MinidumpPath
import SMEWindow.Breakpad.MinidumpFiles
import SMEWindow.Breakpad.UserStreams
import SMEWindow.Breakpad.AppMemory
