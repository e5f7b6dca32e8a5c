import Lfs.Common.Crc32
import Lfs.Common.CfgFile
import Lfs.Common.Periodic
import Lfs.Binlog.UploadRecord
import Lfs.Binlog.WriterRun
import Lfs.Binlog.Compaction
import Lfs.Binlog.ReaderRun
import Lfs.Binlog.Vanished
import Lfs.FullSync.Handover
import Lfs.FullSync.Ending
import Lfs.Tracker.WlcCalls
import Lfs.Tracker.WriteServer
import Lfs.Tracker.Maintenance
import Lfs.Tracker.RegisterRace
import Lfs.Tracker.ArrayRegistry
import Lfs.Tracker.SnapshotText
import Lfs.Tracker.Address
import Lfs.Tracker.Residue
import Lfs.Tracker.Locks
import Lfs.Tracker.VolumeCount
import Lfs.Tracker.Reading
import Lfs.Tracker.Overdue
import Lfs.Replication.Freshness
import Lfs.Server.FileMetedata
import Lfs.Server.Registration
import Lfs.Server.Progress
import Lfs.Server.PeerReplies
import Lfs.Server.StoreFetch
import Lfs.Server.Ownership
import Lfs.Server.Upload
import Lfs.Server.BinlogReply
import Lfs.Server.Parser
import Lfs.Server.Capture
import Lfs.Server.TrackerList
import Lfs.Tracker.Framing
import Lfs.Tracker.Capture
import Lfs.Block.PlacementRace
import Lfs.Block.Capacity
import Lfs.Block.StatFile
