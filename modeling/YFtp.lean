import YFtp.Frames
import YFtp.Registry
import YFtp.ClientLists
import YFtp.HandlerSpecs
import YFtp.Authorization
import YFtp.NullUser
import YFtp.Authentication
import YFtp.Hosts
import YFtp.Confinement
import YFtp.Dispatch
import YFtp.ParserState
import YFtp.Chunking
import YFtp.DataProtection
import YFtp.PassivePorts
import YFtp.Survival
import YFtp.CurrentDirectory
import YFtp.Theory.Streams
import YFtp.Threads
import YFtp.FinalReplies
import YFtp.Conversation
import YFtp.TransferSpecs
import YFtp.ConversationSteps
import YFtp.AbortedTransfer
import YFtp.OneTransfer
import YFtp.RestartOffset
import YFtp.DataChannel
import YFtp.Service
import YFtp.WorkerLifetime
import YFtp.AlikeSessions
import YFtp.Theory.Observations
import YFtp.AlikeServers
import YFtp.CleanLogin
import YFtp.FileContents
import YFtp.UserTable
import YFtp.LineFraming
import YFtp.ListPaths
import YFtp.Listening
import YFtp.InitFtpServer
import YFtp.Reinitialisation
import YFtp.Exchanges
import YFtp.ThreadProgress
import YFtp.Theory.ReplyGrammar
import YFtp.WellFormedReplies
import YFtp.LackingServers
import YFtp.UserNames
import YFtp.Theory.Scanning
import YFtp.ListOptions
import YFtp.TelnetCodes
import YFtp.PortNumbers
import YFtp.RefusedTransfer
import YFtp.ListLines
import YFtp.ListedNames
import YFtp.StartUp
import YFtp.StouUploads
import YFtp.UniqueNames
import YFtp.Theory.Interleaving
import YFtp.Independence
import YFtp.ServedConversations
import YFtp.FileOperations
import YFtp.Utf8
import YFtp.CommandLines
import YFtp.Accounts
import YFtp.PortRotation
import YFtp.ThreadRecords
import YFtp.Downloads
import YFtp.Uploads
import YFtp.Theory.Calendar
import YFtp.Theory.Columns
import YFtp.Timestamps
import YFtp.ListColumns
import YFtp.Dialogues
import YFtp.Theory.Locks
import YFtp.Mutexes
import YFtp.StartStop
