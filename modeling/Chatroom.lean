import Chatroom.ConcurrentHashMap
import Chatroom.AtomicProgram
import Chatroom.PrefixInduction
import Chatroom.Entity
import Chatroom.Registry
import Chatroom.ServerHandler
import Chatroom.Invocation
import Chatroom.HandlerRun
import Chatroom.ChannelMaps
import Chatroom.RoomMembers
import Chatroom.ConnectedChannels
import Chatroom.SessionTable
import Chatroom.SessionRefinement
import Chatroom.Interleaving
import Chatroom.ConcurrentCalls
import Chatroom.RoomIsolation
import Chatroom.StepMachine
import Chatroom.Int64Fields
import Chatroom.Snowflake
import Chatroom.SnowflakeRuns
import Chatroom.Login
import Chatroom.SnowflakeParse
import Chatroom.RelayedMessages
import Chatroom.FailedFrames
import Chatroom.OfflineNotices
import Chatroom.Collectors
import Chatroom.RoomQueries
import Chatroom.Registration
import Chatroom.Accounts
import Chatroom.TaskHistories
import Chatroom.RoomJoins
import Chatroom.BroadcastDeeds
import Chatroom.BroadcastLogouts
import Chatroom.GaplessNumbering
import Chatroom.SequenceNumbers
import Chatroom.PolynomialHash
import Chatroom.NodeId
import Chatroom.IdOrigins
import Chatroom.OwnedViews
import Chatroom.EventLoops
import Chatroom.ClientViews
import Chatroom.SettledViews
import Chatroom.ConcurrentSessions
import Chatroom.CallEffects
import Chatroom.InterruptedLogouts
import Chatroom.SessionHistory
import Chatroom.LinkedSessions
import Chatroom.HandlerPipeline
import Chatroom.ServerPipeline
import Chatroom.WebServer
import Chatroom.ChatPages
import Chatroom.ServerLifecycle
