import SeastarLive.Lib.Failure
import SeastarLive.Lib.HeaderStream
import SeastarLive.Lib.Transition
import SeastarLive.Lib.LexicalPath
import SeastarLive.Lib.BinaryRounding
import SeastarLive.Lib.Double
import SeastarLive.Flv.Frame
import SeastarLive.Flv.TagHeader
import SeastarLive.Flv.AmfCommand
import SeastarLive.Frame.FrameQueue
import SeastarLive.Frame.FrameQueueTheorems
import SeastarLive.Frame.GopQueue
import SeastarLive.Frame.GopQueueTheorems
import SeastarLive.Frame.GopHistory
import SeastarLive.Session.Session
import SeastarLive.Session.PlaySession
import SeastarLive.Session.PlaySessionTheorems
import SeastarLive.Session.Broadcast
import SeastarLive.Session.BroadcastTheorems
import SeastarLive.Session.BroadcastRuns
import SeastarLive.Session.PublishSession
import SeastarLive.Session.PublishSessionTheorems
import SeastarLive.Util.CxxUrl
import SeastarLive.Util.FilePath
import SeastarLive.Rtmp.Publish
import SeastarLive.Util.CxxUrlTheorems
import SeastarLive.Rtmp.PublishTheorems
import SeastarLive.Http1.HlsFile
import SeastarLive.Http1.HlsFileTheorems
import SeastarLive.Rtmp.ServerOutput
import SeastarLive.Rtmp.ServerOutputTheorems
import SeastarLive.Server.Registry
import SeastarLive.Server.RegistryTheorems
import SeastarLive.Frame.FrameExchange
import SeastarLive.Frame.FrameExchangeTheorems
import SeastarLive.Session.Playback
import SeastarLive.Session.PlaybackTheorems
import SeastarLive.Session.Outcome
import SeastarLive.Session.StartWith
import SeastarLive.Session.StartWithTheorems
import SeastarLive.Session.Subscribers
import SeastarLive.Hls.Playlist
import SeastarLive.Server.PublishBody
import SeastarLive.Flv.Tag
import SeastarLive.Flv.MetadataTag
import SeastarLive.Session.TagOutput
import SeastarLive.Session.TagOutputTheorems
import SeastarLive.Server.PublishStop
import SeastarLive.Session.RelayTheorems
import SeastarLive.Hls.Tracer
import SeastarLive.Hls.TracerTheorems
import SeastarLive.Hls.PlaySessionV3
import SeastarLive.Hls.PlaySessionV3Theorems
import SeastarLive.Hls.Transcoding
import SeastarLive.Hls.FragmentIds
import SeastarLive.Lib.Segments
import SeastarLive.Hls.FragmentConservation
import SeastarLive.Hls.StreamTail
import SeastarLive.Hls.MediaSequence
import SeastarLive.Hls.TracedSession
import SeastarLive.Frame.GopAggregates
import SeastarLive.Frame.GopStructure
import SeastarLive.Frame.GopEviction
import SeastarLive.Session.RectifyDts
import SeastarLive.Flv.AmfItems
import SeastarLive.Flv.MetadataLoad
import SeastarLive.Session.SequenceHeader
import SeastarLive.Lib.BoundedQueue
import SeastarLive.Rtmp.MediaOutput
import SeastarLive.Rtmp.MediaInput
import SeastarLive.Rtmp.StopOnce
import SeastarLive.Flv.ConfigRecord
import SeastarLive.Flv.ConfigRecordTheorems
import SeastarLive.Session.RepeatedMetadata
import SeastarLive.Lib.Loop
import SeastarLive.Rtmp.ClientPool
import SeastarLive.Server.SessionQueries
import SeastarLive.Hls.PlaylistRetention
import SeastarLive.Hls.Discontinuity
import SeastarLive.Hls.WriteOnce
import SeastarLive.Session.Subscription
import SeastarLive.Session.PlayerStart
import SeastarLive.Session.FirstDelivery
import SeastarLive.Flv.MetadataWrite
import SeastarLive.Flv.MetadataRoundTrip
import SeastarLive.Lib.Inevitable
import SeastarLive.Rtmp.ClientPoolBound
import SeastarLive.Util.RetryRunner
import SeastarLive.Util.RetryRunnerTheorems
import SeastarLive.Hls.PlaylistFile
import SeastarLive.Util.QueryString
import SeastarLive.Flv.SpsRange
import SeastarLive.Frame.FrameQueueCaches
import SeastarLive.Lib.Endian
import SeastarLive.Lib.Feeding
import SeastarLive.Rtmp.ChunkHeader
import SeastarLive.Rtmp.ChunkRead
import SeastarLive.Rtmp.Handler
import SeastarLive.Rtmp.ChunkReadTheorems
import SeastarLive.Rtmp.ChunkWrite
import SeastarLive.Rtmp.ChunkStream
import SeastarLive.Lib.Transport
import SeastarLive.Rtmp.ChunkChannel
import SeastarLive.Rtmp.Aggregate
import SeastarLive.Rtmp.Command
import SeastarLive.Rtmp.InvokeHandler
import SeastarLive.Rtmp.ServerSession
import SeastarLive.Rtmp.ClientSession
import SeastarLive.Rtmp.SessionCommands
import SeastarLive.Lib.Scenario
import SeastarLive.Rtmp.Peers
import SeastarLive.Rtmp.PublishDialogue
import SeastarLive.Mpeg.Pes
import SeastarLive.Lib.Packets
import SeastarLive.Mpeg.TsPacket
import SeastarLive.Mpeg.Sections
import SeastarLive.Mpeg.TsMuxer
import SeastarLive.Mpeg.TsMuxerTheorems
import SeastarLive.Mpeg.FrameDelivery
import SeastarLive.Mpeg.PatRead
import SeastarLive.Mpeg.ProgramDelivery
