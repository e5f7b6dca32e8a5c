/-
The data model of the tracker: blocks, volumes and the cluster (`ts_types.h`).

A block is one dataserver of a volume.  The volumes are linked into the buckets of
a hash table; the `next` pointer of a volume is the order of the list it stands in.
-/
import Lfs.Base.CString
import Lfs.Lib.Buckets

namespace Lfs.Tracker

open Lfs.Lib

/-- `IP_ADDRESS_SIZE`, the size of `ip_addr`. -/
def ipAddressSize : ℕ := 16

/-- `enum datasevr_state`. -/
inductive DatasevrState where
  | init
  | waitSync
  | syncing
  | onLine
  | active
  | offLine
  | deleted
deriving DecidableEq

structure DatasevrBlock where
  parentVolumeId : UInt32
  blockId : UInt32
  state : DatasevrState
  mapInfo : List Byte
  ipAddr : List Byte
  /-- `enum datasevr_type`, which a snapshot writes and reads as a number. -/
  type : ℤ
  port : ℤ
  currConns : ℤ
  weight : ℤ
  heartBeatInterval : ℤ
  totalMb : ℤ
  freeMb : ℤ
  regTime : ℤ
  startedTime : ℤ
  /-- `last_sync_sequence`: the mark that the server sent in its last sync report. -/
  lastSyncSequence : ℤ
  lastHeartbeatTime : ℤ
  lastStatreporttimestamp : ℤ
deriving DecidableEq

/-- `master_server`, the first value of `enum datasevr_type`. -/
def masterServer : ℤ := 0

/-- `block_new`: a block of zeros. -/
def blockNew : DatasevrBlock where
  parentVolumeId := 0
  blockId := 0
  state := .init
  mapInfo := []
  ipAddr := []
  type := 0
  port := 0
  currConns := 0
  weight := 0
  heartBeatInterval := 0
  totalMb := 0
  freeMb := 0
  regTime := 0
  startedTime := 0
  lastSyncSequence := 0
  lastHeartbeatTime := 0
  lastStatreporttimestamp := 0

/-- `datasevr_volume`: the first `block_count` slots of `blocks` are the list. -/
structure DatasevrVolume where
  volumeId : UInt32
  blocks : List DatasevrBlock
  /-- `master_block_index`, `-1` while the volume has no master. -/
  masterBlockIndex : ℤ
  lastReadBlockIndex : ℤ
deriving DecidableEq

def volumeNew : DatasevrVolume where
  volumeId := 0
  blocks := []
  masterBlockIndex := -1
  lastReadBlockIndex := 0

/-- `datasevr_cluster`, less the skip list.  The table `oldVolumes` is only there
during an expansion. -/
structure DatasevrCluster where
  oldVolumeCount : ℕ
  primaryVolumeCount : ℕ
  /-- `hash_size`, the power of two that is the size of the primary table. -/
  hashSize : ℕ
  expandBucket : ℕ
  isStartedExpanding : Bool
  expanding : Bool
  oldVolumes : Buckets DatasevrVolume
  primaryVolumes : Buckets DatasevrVolume
deriving DecidableEq

end Lfs.Tracker
