/-
The reader of a binlog (`sync_ctx` and `binlog_read` in `ds_binlog.c`).

The reader takes bytes from a file into a buffer of 64 KiB and cuts the records off its
front.  At the end of a file that is not the last one `binlog_read` goes on to the next
index; it then calls `__open_new_binlog_file`, which reopens the file of the writer, and
keeps its own descriptor.  What the system calls return is an argument.
-/
import Lfs.Binlog.Ctx
import Lfs.Binlog.Record

namespace Lfs.Binlog

open Lfs.Lib

def binlogBufferSize : ℕ := 64 * 1024

def writeToBatFileBySyncCount : ℕ := 2

/-- A value that `sync_mark_file_batdata_write` returns for a failed `write`. -/
def eio : ℤ := 5

structure BinlogBuff where
  /-- `cbuff - buff`. -/
  cbuff : ℕ
  /-- `BINLOG_FILE_READ_END_FLAG`. -/
  flag : Bool
  /-- The `length` bytes at `cbuff`. -/
  data : List Byte
deriving DecidableEq

/-- `sync_ctx` with its mark file.  Nothing sets `m_fd`, so it is left out. -/
structure SyncCtx where
  bIndex : ℕ
  /-- `b_fd`: the file that is open for reading, `none` for `-1`. -/
  bFd : Option ℕ
  /-- The position of `b_fd` in its file. -/
  fdOffset : ℕ
  lastTimestamp : ℤ
  bBuff : BinlogBuff
  bOffset : ℕ
  syncCount : ℕ
  lastSyncCount : ℕ
  /-- The text of the mark file, if there is one. -/
  markFile : Option (List Byte)
deriving DecidableEq

/-- The context of a reader before a mark is loaded. -/
def zeroSyncCtx (markFile : Option (List Byte)) : SyncCtx where
  bIndex := 0
  bFd := none
  fdOffset := 0
  lastTimestamp := 0
  bBuff := ⟨0, false, []⟩
  bOffset := 0
  syncCount := 0
  lastSyncCount := 0
  markFile := markFile

/-- What the system calls of one round of the loop of `binlog_read` return: `read` fails
or returns some number of bytes, the writer's file and the mark file are opened or not,
and the mark is written. -/
structure ReadIo where
  read : Option ℕ
  openNew : Bool
  markOpen : Bool
  markWrite : WriteOutcome

/-- Rounds of the loop in which every system call succeeds and the `j`-th `read` returns at
most `sizes j` bytes. -/
def readSizes (sizes : ℕ → ℕ) (j : ℕ) : ReadIo := ⟨some (sizes j), true, true, .full⟩

@[simp] lemma readSizes_read (sizes : ℕ → ℕ) (j : ℕ) : (readSizes sizes j).read = some (sizes j) :=
  rfl

@[simp] lemma readSizes_openNew (sizes : ℕ → ℕ) (j : ℕ) : (readSizes sizes j).openNew = true := rfl

/-- The number of bytes that a `read` of `want` bytes returns where `avail` are left: it
is `0` only at the end of the file. -/
def readCount (k want avail : ℕ) : ℕ := min (max k 1) (min want avail)

namespace SyncCtx

/-- The line that `sync_mark_file_batdata_write` prints. -/
def batdata (s : SyncCtx) : List Byte :=
  decimal s.bIndex ++ batDataSeperator :: decimalInt s.lastTimestamp ++
    batDataSeperator :: decimal s.bOffset ++ batDataSeperator :: decimal s.syncCount ++ [newline]

def syncMarkFileBatdataWrite (io : ReadIo) (s : SyncCtx) : ℤ × SyncCtx :=
  if !io.markOpen then (lfsError, s)
  else
    let n := io.markWrite.count s.batdata.length
    (if n = some s.batdata.length then lfsOk else eio,
      { s with markFile := some (s.batdata.take (n.getD 0)), lastSyncCount := s.syncCount })

/-- The loop of `__mark_file_batdata_load` over the lines of the mark file. -/
def loadBatdata : List (List Byte) → SyncCtx → SyncCtx
  | [], s => s
  | line :: lines, s =>
    if cstr line = [] then loadBatdata lines s
    else match splitStr batDataSeperator 4 (cstr line) with
      | [index, timestamp, offset, count] =>
        loadBatdata lines { s with
          bIndex := (atoi (trim index)).toNat
          lastTimestamp := atol (trim timestamp)
          bOffset := (atol (trim offset)).toNat
          syncCount := (atol (trim count)).toNat
          lastSyncCount := (atol (trim count)).toNat }
      | _ => s

/-- `__mark_file_batdata_load` where there is a mark file. -/
def markFileBatdataLoad (s : SyncCtx) : SyncCtx :=
  match s.markFile with
  | none => s
  | some text => loadBatdata (fgetsLines binlogRecordSize text) s

/-- `__open_setting_binlog` on files that can be opened. -/
def openSettingBinlog (s : SyncCtx) : SyncCtx :=
  { s with bFd := some s.bIndex, fdOffset := s.bOffset }

/-- The bytes of the file that is open and have not been read. -/
def unread (c : BinlogCtx) (s : SyncCtx) : List Byte :=
  match s.bFd with
  | none => []
  | some i => (c.files i).drop s.fdOffset

/-- The bytes that the `read` of `__binlog_file_read` returns. -/
def chunk (k : ℕ) (c : BinlogCtx) (s : SyncCtx) : List Byte :=
  (s.unread c).take
    (readCount k (binlogBufferSize - s.bBuff.data.length) (s.unread c).length)

/-- The unconsumed bytes are moved to the front of the buffer. -/
def compact (s : SyncCtx) : SyncCtx := { s with bBuff := { s.bBuff with cbuff := 0 } }

/-- Bytes that were read are appended to those in the buffer. -/
def fill (bytes : List Byte) (s : SyncCtx) : SyncCtx :=
  { s with
    fdOffset := s.fdOffset + bytes.length
    bBuff := { s.bBuff with data := s.bBuff.data ++ bytes } }

/-- A record is taken off the front of the buffer, which leaves `rest`. -/
def consume (record rest : List Byte) (s : SyncCtx) : SyncCtx :=
  { s with bBuff := { s.bBuff with cbuff := s.bBuff.cbuff + record.length, data := rest } }

/-- The end of a file that is not the last one was met. -/
def setEndFlag (s : SyncCtx) : SyncCtx := { s with bBuff := { s.bBuff with flag := true } }

def binlogFileRead (io : Option ℕ) (c : BinlogCtx) (s : SyncCtx) : BinlogFileState × SyncCtx :=
  if s.bBuff.flag ∧ s.bBuff.data.length = 0 then (.fileEnd, s)
  else
    match s.bFd, io with
    | some _, some k =>
      if (s.chunk k c).length = 0 then
        if s.bIndex = c.currBinlogFileIndex then (.nodata, s.compact)
        else (.fileEnd, s.compact.setEndFlag)
      else (.ok, s.compact.fill (s.chunk k c))
    | _, _ => (.error, s.compact)

/-- `__binlog_record_read_do`: the record is cut off the front of the buffer. -/
def binlogRecordReadDo (s : SyncCtx) : BinlogFileState × List Byte × SyncCtx :=
  match cut newline s.bBuff.data with
  | none => (.nodata, [], s)
  | some (line, rest) =>
    let record := line ++ [newline]
    if binlogRecordSize ≤ record.length then (.error, record, s)
    else (.ok, record, s.consume record rest)

def binlogRecordRead (io : Option ℕ) (c : BinlogCtx) (s : SyncCtx) :
    BinlogFileState × List Byte × SyncCtx :=
  match s.binlogRecordReadDo with
  | (.nodata, _, s) =>
    match s.binlogFileRead io c with
    | (.ok, s) => s.binlogRecordReadDo
    | (st, s) => (st, [], s)
  | r => r

/-- The reader goes on to the next index. -/
def nextIndex (s : SyncCtx) : SyncCtx :=
  { s with bIndex := s.bIndex + 1, bOffset := 0, bBuff := { s.bBuff with flag := false } }

/-- The loop of `binlog_read`.  The first argument is `curr_binlog_file_index + 1 - b_index`,
which is `0` exactly when `b_index > curr_binlog_file_index`; `i` counts the rounds. -/
def binlogReadLoop (io : ℕ → ReadIo) :
    ℕ → ℕ → BinlogCtx → SyncCtx → BinlogFileState × List Byte × BinlogCtx × SyncCtx
  | gap, i, c, s =>
    match s.binlogRecordRead (io i).read c with
    | (.fileEnd, record, s) =>
      match gap with
      | 0 => (.error, record, c, s)
      | gap + 1 =>
        if s.bBuff.data.length ≠ 0 then (.error, record, c, s)
        else
          match c.openNewBinlogFile (io i).openNew with
          | (.ok, c) =>
            match s.nextIndex.syncMarkFileBatdataWrite (io i) with
            | (ret, s) =>
              if ret = lfsOk then binlogReadLoop io gap (i + 1) c s else (.error, record, c, s)
          | (st, c) => (st, record, c, s.nextIndex)
    | (st, record, s) => (st, record, c, s)

end SyncCtx

/-- The state that `binlog_read` returns when the parser fails; `none` where the parser
has no defined behaviour. -/
def ParseError.toState : ParseError → Option BinlogFileState
  | fileError => some .error
  | lfsError => some .lfsError
  | undefined => none

/-- What `binlog_read` returns and leaves behind.  The record is set when the state is
`B_FILE_OK`; `state` is `none` where the parser has no defined behaviour. -/
structure ReadResult where
  state : Option BinlogFileState
  record : Option BinlogRecord
  brecordSize : ℕ
  ctx : BinlogCtx
  sctx : SyncCtx

def binlogRead (mounts : Mounts) (io : ℕ → ReadIo) (c : BinlogCtx) (s : SyncCtx) : ReadResult :=
  match s.binlogReadLoop io (c.currBinlogFileIndex + 1 - s.bIndex) 0 c with
  | (.ok, record, c, s) =>
    match binlogRecordParse mounts record with
    | .ok brecord => ⟨some .ok, some brecord, record.length, c, s⟩
    | .error e => ⟨e.toState, none, record.length, c, s⟩
  | (st, record, c, s) => ⟨some st, none, record.length, c, s⟩

end Lfs.Binlog
