import Dragonmouth.Plugin.ChannelPanic
import Dragonmouth.Plugin.ReplayStart
import Dragonmouth.Plugin.Wakeups
import Dragonmouth.Plugin.StatusGaps
import Dragonmouth.Plugin.Callbacks
import Dragonmouth.Richat.RingPanic
import Dragonmouth.Richat.RingReaders
import Dragonmouth.Richat.ChannelLimits
import Dragonmouth.Richat.CommitmentStreams
import Dragonmouth.Encoding.Agreement
import Dragonmouth.Grpc.UnaryAnswers
import Dragonmouth.Grpc.Delivery
import Dragonmouth.Grpc.CacheTransparency
import Dragonmouth.Grpc.RequestRefusal
import Dragonmouth.Grpc.Served
import Dragonmouth.Transports.SendLoopProgress
import Dragonmouth.Transports.AccessToken
import Dragonmouth.Transports.Notifications
import Dragonmouth.Transports.Session
import Dragonmouth.Transports.Readers
import Dragonmouth.Grpc.Seating
import Dragonmouth.Transports.Shutdown
import Dragonmouth.Filters.ConditionOverflow
import Dragonmouth.Filters.DataSlices
import Dragonmouth.Filters.AnySwitch
import Dragonmouth.Filters.MemcmpSpellings
import Dragonmouth.Filters.MemcmpText
import Dragonmouth.Filters.Blocks
import Dragonmouth.Filters.BlockSizes
import Dragonmouth.Filters.Contents
import Dragonmouth.Filters.Reencode
import Dragonmouth.Filters.Request
import Dragonmouth.Richat.BinaryCapacity
import Dragonmouth.Richat.AccountDedup
import Dragonmouth.Richat.ParsedPush
import Dragonmouth.Richat.SlotRelease
import Dragonmouth.Richat.SlotReports
import Dragonmouth.Richat.SlotDrops
import Dragonmouth.Plugin.Backfill
import Dragonmouth.Richat.Notified
import Dragonmouth.Grpc.UnaryRuns
