/-
The full synchronisation of a slave from its master (`ds_sync.c`).

`full_sync_from_master` copies the binlogs of the master, first the remote ones file by
file, then the local ones, whose bytes it appends to its own remote binlog through `rbctx`;
then it reads the result back and requests the data file of every record.  How far the copy
has got is kept in a mark, which is written to `local_sync.mark` but for the byte offset.

The machine takes one step at each network operation, whose outcome is an argument of the
step; between any two steps the process may be restarted.  File operations succeed.
-/
import Lfs.Binlog.Reader
import Lfs.Lib.Run

namespace Lfs.FullSync

open Lfs.Binlog

/-- `enum full_sync_state`. -/
inductive FullSyncState where
  | ok
  | error
  | markError
  | networkError
  | noInifile
  | finish
deriving DecidableEq

/-- The fields of `full_sync_binlog_mark` that are written to `local_sync.mark`, less a time
stamp that nothing sets. -/
structure FullSyncMark where
  bFileCount : ℕ
  bCurrSyncIndex : ℕ
  rbFileCount : ℕ
  rbCurrSyncIndex : ℕ
deriving DecidableEq

/-- Reads that return as many bytes as they are asked for, as long as there are any. -/
def readFull : ℕ → ReadIo := readSizes fun _ => binlogBufferSize

/-- The binlog files that the master serves, its local ones and its remote ones. -/
structure Master where
  locals : List (List Byte)
  remotes : List (List Byte)

/-- How a network operation ends: it succeeds, it fails before any byte of a file has been
received, or it fails while a file is being received. -/
inductive Outcome where
  | ok
  | refused
  | broken
deriving DecidableEq

/-- Where the slave stands in `full_sync_from_master`. -/
inductive Pc where
  | connect
  /-- At the start of `__full_sync_binlog_from_master`. -/
  | binlogs
  | remoteFiles
  | localFiles
  /-- In the loop of `__full_sync_append_remote_binlog`, with these bytes to receive. -/
  | appendBinlog (remain : List Byte)
  /-- In the loop of `__full_sync_data_from_master`. -/
  | data
  /-- `full_sync_from_master` has returned. -/
  | returned (fstate : FullSyncState)
deriving DecidableEq

/-- The slave: the memory of `full_sync_from_master`, the remote binlog with its directory,
the mark files, and a record of what it has done. -/
structure Slave where
  pc : Pc
  nfaildCount : ℕ
  /-- The connection has not failed. -/
  alive : Bool
  fmark : FullSyncMark
  /-- `fmark.b_offset`. -/
  bOffset : ℕ
  rbctx : BinlogCtx
  /-- The file that `rbctx.binlog_fd` has open is still in the directory. -/
  linked : Bool
  /-- The fields in `local_sync.mark`, if there is such a file. -/
  markFile : Option FullSyncMark
  sctx : SyncCtx
  /-- `ctxs.last_sync_sequence`. -/
  lastSyncSequence : ℤ
  /-- The bytes that `__full_sync_append_remote_binlog` has appended to the binlog. -/
  appended : List Byte
  /-- The data files that `__full_sync_handle` has requested. -/
  requested : List (List Byte)

namespace Slave

def fresh : Slave where
  pc := .connect
  nfaildCount := 0
  alive := false
  fmark := ⟨0, 0, 0, 0⟩
  bOffset := 0
  rbctx := .fresh
  linked := true
  markFile := none
  sctx := zeroSyncCtx none
  lastSyncSequence := 0
  appended := []
  requested := []

/-- The connection is closed and the loop of `full_sync_from_master` goes round again. -/
def reconnect (s : Slave) : Slave := { s with pc := .connect, alive := false }

/-- `__full_sync_binlog_mark_write`. -/
def markWrite (s : Slave) : Slave := { s with markFile := some s.fmark }

/-- `__full_sync_binlog_mark_initload`: the offset is not among the fields. -/
def markInitload (s : Slave) : Slave :=
  match s.markFile with
  | none => s
  | some f => { s with fmark := f }

def connectMaster (o : Outcome) (s : Slave) : Slave :=
  if o = .ok then { s with pc := .binlogs, alive := true }
  else if 3 < s.nfaildCount then { s with pc := .returned .networkError }
  else { s with nfaildCount := s.nfaildCount + 1 }

/-- The start of `__full_sync_binlog_from_master`: the mark is loaded, and without one the
numbers of files are asked for (`__binlogmete_get_from_master`). -/
def binlogFromMaster (m : Master) (o : Outcome) (s : Slave) : Slave :=
  let s := s.markInitload
  if s.fmark.bFileCount + s.fmark.rbFileCount = 0 then
    if o = .ok then
      markWrite { s with
        pc := .remoteFiles
        fmark := { s.fmark with bFileCount := m.locals.length, rbFileCount := m.remotes.length } }
    else s.reconnect
  else { s with pc := .remoteFiles }

/-- `client_recvfile` of the `i`-th remote file.  A receive that fails removes the file,
also when it is the one that `rbctx` has open. -/
def recvfile (m : Master) (o : Outcome) (i : ℕ) (s : Slave) : Slave :=
  match o with
  | .ok => { s with rbctx := { s.rbctx with
      files := Function.update s.rbctx.files i ((m.remotes[i]?).getD []) } }
  | .refused => s
  | .broken => { s with
      rbctx := { s.rbctx with files := Function.update s.rbctx.files i [] }
      linked := s.linked && decide (s.rbctx.binlogFd ≠ some i) }

/-- One round of the loop over the remote files (`__sync_remote_binlog_data_from_master`). -/
def syncRemoteBinlogData (m : Master) (o : Outcome) (s : Slave) : Slave :=
  if s.fmark.rbCurrSyncIndex < s.fmark.rbFileCount then
    let s := s.recvfile m o s.fmark.rbCurrSyncIndex
    if o = .ok then
      markWrite { s with
        fmark := { s.fmark with rbCurrSyncIndex := s.fmark.rbCurrSyncIndex + 1 } }
    else s.reconnect
  else { s with pc := .localFiles }

/-- `fullsyncctx_init` on a directory without a mark of the reader, or the start of a later
round of the loop, which finds the reader's mark. -/
def fullsyncctxInit (s : Slave) : SyncCtx :=
  (zeroSyncCtx s.sctx.markFile).markFileBatdataLoad.openSettingBinlog

/-- One round of the loop over the local files up to the response of the master
(`__sync_local_binlog_data_from_master`); after the last file the data phase begins. -/
def syncLocalBinlogData (m : Master) (o : Outcome) (s : Slave) : Slave :=
  if s.fmark.bCurrSyncIndex < s.fmark.bFileCount then
    if o = .ok ∧ s.alive then
      { s with
        pc := .appendBinlog (((m.locals[s.fmark.bCurrSyncIndex]?).getD []).drop s.bOffset)
        rbctx := (s.rbctx.binlogFlush .ok).2 }
    else s.reconnect
  else if 0 < s.fmark.bFileCount + s.fmark.rbFileCount then
    { s with pc := .data, sctx := s.fullsyncctxInit }
  else { s with pc := .returned .finish }

/-- The end of `__sync_local_binlog_data_from_master`. -/
def nextLocalFile (s : Slave) : Slave :=
  markWrite { s with
    pc := .localFiles
    fmark := { s.fmark with bCurrSyncIndex := s.fmark.bCurrSyncIndex + 1 }
    bOffset := 0 }

/-- `binlog_flush(&rbctx)` of bytes that were received into the cache.  Bytes written to a
file that has been removed are in no file of the binlog. -/
def flushReceived (bytes : List Byte) (s : Slave) : ℤ × Slave :=
  let (ret, rbctx) := (s.rbctx.withCache bytes).binlogFlush .ok
  (ret, { s with
    rbctx := if s.linked then rbctx else { rbctx with files := s.rbctx.files }
    linked := s.linked || decide (rbctx.currBinlogFileIndex ≠ s.rbctx.currBinlogFileIndex)
    appended := if s.linked ∧ ret = lfsOk then s.appended ++ bytes else s.appended })

/-- One round of the loop of `__full_sync_append_remote_binlog`.  The assignment of an error
to `rstate` stands after the `break`, so `F_SYNC_OK` is returned also when a receive or a
flush has failed, and the caller goes on to the next file. -/
def appendRemoteBinlog (o : Outcome) (remain : List Byte) (s : Slave) : Slave :=
  if remain.length = 0 then s.nextLocalFile
  else if o = .ok ∧ s.alive then
    let bytes := remain.take binlogCacheBufferSize
    let (ret, s) := s.flushReceived bytes
    if ret = lfsOk then
      { s with
        pc := .appendBinlog (remain.drop binlogCacheBufferSize)
        bOffset := s.bOffset + bytes.length }
    else s.nextLocalFile
  else { s with alive := false }.nextLocalFile

/-- `sync_mark_file_batdata_write` of the reader. -/
def batdataWrite (s : Slave) : Slave :=
  { s with sctx := (s.sctx.syncMarkFileBatdataWrite (readFull 0)).2 }

/-- After the loop of `__full_sync_data_from_master` the reader's mark is written if it is
behind. -/
def endData (s : Slave) : Slave :=
  if s.sctx.lastSyncCount ≠ s.sctx.syncCount then s.batdataWrite else s

/-- The end of one round of that loop. -/
def countRecord (size : ℕ) (s : Slave) : Slave :=
  let s := { s with sctx := { s.sctx with
    bOffset := s.sctx.bOffset + size
    syncCount := s.sctx.syncCount + 1 } }
  if writeToBatFileBySyncCount ≤ s.sctx.syncCount - s.sctx.lastSyncCount then s.batdataWrite else s

/-- One round of the loop of `__full_sync_data_from_master`: the next record is read and its
data file is requested (`__full_sync_handle`). -/
def fullSyncData (mounts : Mounts) (o : Outcome) (s : Slave) : Slave :=
  let r := binlogRead mounts readFull s.rbctx s.sctx
  let s := { s with rbctx := r.ctx, sctx := r.sctx }
  match r.state, r.record with
  | some .ok, some brecord =>
    if o = .ok ∧ s.alive then
      countRecord r.brecordSize { s with
        requested := s.requested ++ [brecord.fBlockMapName]
        lastSyncSequence := max s.lastSyncSequence brecord.sequence }
    else s.endData.reconnect
  | some .nodata, _ => { s.endData with pc := .returned .finish }
  | some .error, _ => { s.endData with pc := .returned .error }
  | _, _ => s.countRecord r.brecordSize

/-- The process is started again: the remote binlog is opened again, the memory of
`full_sync_from_master` is lost, and `last_sync_sequence` is what the state file gives. -/
def restart (sequence : ℤ) (s : Slave) : Slave :=
  match s.rbctx.binlogInit with
  | none => { s with pc := .returned .error, fmark := ⟨0, 0, 0, 0⟩, bOffset := 0 }
  | some rbctx =>
    { s with
      pc := .connect
      nfaildCount := 0
      alive := false
      fmark := ⟨0, 0, 0, 0⟩
      bOffset := 0
      rbctx := rbctx
      linked := true
      sctx := zeroSyncCtx s.sctx.markFile
      lastSyncSequence := sequence }

end Slave

/-- What happens to the slave: its next network operation ends in some way, or its process
is started again. -/
inductive SyncOp where
  | next (o : Outcome)
  | restart (sequence : ℤ)
deriving DecidableEq

def Slave.step (mounts : Mounts) (m : Master) (s : Slave) : SyncOp → Slave
  | .restart sequence => s.restart sequence
  | .next o =>
    match s.pc with
    | .connect => s.connectMaster o
    | .binlogs => s.binlogFromMaster m o
    | .remoteFiles => s.syncRemoteBinlogData m o
    | .localFiles => s.syncLocalBinlogData m o
    | .appendBinlog remain => s.appendRemoteBinlog o remain
    | .data => s.fullSyncData mounts o
    | .returned _ => s

end Lfs.FullSync
