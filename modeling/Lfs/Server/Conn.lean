/-
A client connection of a dataserver (`ds_conn.c`, `ds_file.c`).

A connection is served by an nio thread, which runs `__state_machine` on it when libevent
reports its socket ready, and by the dio threads, which read and write its file.  The nio
thread deletes the event and puts the connection into the queue of a dio thread, and the
dio thread puts it into the queue `cq` of the nio thread, which adds the event again.  The
places of a connection are fields here, next to the fields of `conn` and `file_ctx`.  The
bytes that the socket still has to deliver are a field, and the outcomes of the other
system calls are an argument of every step (`StepEnv`).
-/
import Lfs.Base.CString

namespace Lfs.Server

/-- `enum conn_states`. -/
inductive ConnState where
  | waiting
  | read
  | fread
  | parseCmd
  | write
  | fwrite
  | fsend
  | mwrite
  | n2dio
  | closed
deriving DecidableEq

/-- The event flags in use, `EV_READ | EV_PERSIST` and `EV_WRITE | EV_PERSIST`. -/
inductive EvFlags where
  | read
  | write
deriving DecidableEq

/-- The values of `protocol_resp_status` that a dataserver answers. -/
inductive RespStatus where
  | success
  | errorMemory
  | errorPackagesizeOverflow
  | errorDioWriteDisk
  | errorMountBlockMapInfo
  | errorFilemetedataPack
  | errorFiledownloadOffsetInvalid
  | errorFiledownloadSizeInvalid
  | errorFileDownloadDio
  | errorBinlogWrite
  | errorSyncStatBinlogfile
  | errorSyncNoBinlogtype
  | errorSyncStatDatafile
  /-- The `return LFS_ERROR` inside `LFS_SPLIT_BLOCK_INDEX_BY_FILE_ID`. -/
  | lfsError
deriving DecidableEq

/-- The functions `f_dio_func` and `f_op_func`, which the handlers set together. -/
inductive FileJob where
  | none
  /-- `dio_write` and `file_upload_done_callback`. -/
  | upload
  /-- `dio_write` and `asyncfile_done_callback`. -/
  | asyncCopy
  /-- `dio_read` and `file_download_done_callback`. -/
  | download
deriving DecidableEq

/-- `DEFAULT_FILE_BUFF_SIZE`, which is `f_buff_size` of every file context. -/
def fileBuffSize : ℕ := 65536

structure FileCtx where
  job : FileJob
  /-- The bytes of the socket that are in `f_buff`. -/
  fBuff : List Byte
  fBuffOffset : ℕ
  fRwoffset : ℕ
  fOffset : ℤ
  fSize : ℤ
  fTotalOffset : ℤ
  fTotalSize : ℤ
  file : List Byte
deriving DecidableEq

namespace FileCtx

/-- `file_ctx_new`, where the memory is there. -/
def fileCtxNew : FileCtx where
  job := .none
  fBuff := []
  fBuffOffset := 0
  fRwoffset := 0
  fOffset := 0
  fSize := 0
  fTotalOffset := 0
  fTotalSize := 0
  file := []

/-- `file_ctx_buff_reset`. -/
def buffReset (f : FileCtx) : FileCtx := { f with fBuff := [], fBuffOffset := 0, fRwoffset := 0 }

/-- `file_ctx_reset`. -/
def reset (f : FileCtx) : FileCtx :=
  { f.buffReset with fOffset := 0, fSize := 0, fTotalOffset := 0, fTotalSize := 0 }

/-- The bytes `bs` read from the socket in `__network_fread`. -/
def received (bs : List Byte) (f : FileCtx) : FileCtx :=
  { f with
    fBuff := f.fBuff ++ bs
    fBuffOffset := f.fBuffOffset + bs.length
    fRwoffset := f.fRwoffset + bs.length }

/-- `n` bytes written to the socket in `__network_fwrite`. -/
def sent (n : ℕ) (f : FileCtx) : FileCtx :=
  { f with
    fRwoffset := f.fRwoffset + n
    fOffset := f.fOffset + n
    fTotalOffset := f.fTotalOffset + n }

/-- The buffer written to the file in `dio_write`. -/
def written (f : FileCtx) : FileCtx :=
  { f with
    fOffset := f.fOffset + f.fBuffOffset
    fTotalOffset := f.fTotalOffset + f.fBuffOffset
    file := f.file ++ f.fBuff }

/-- The bytes that `dio_read` asks for. -/
def readBytes (f : FileCtx) : ℕ := min (fileBuffSize - f.fBuffOffset) (f.fSize - f.fOffset).toNat

end FileCtx

/-! ### The outcomes of system calls -/

/-- What the socket has for the next calls of `read`. -/
inductive ReadEv where
  /-- These bytes are there; one call takes as many of them as it asks for. -/
  | data (bytes : List Byte)
  /-- Nothing is there: `EAGAIN`. -/
  | again
  | eof
  | error
deriving DecidableEq

/-- The result of a call of `read`. -/
inductive ReadRes where
  | bytes (bs : List Byte)
  | again
  | eof
  | error
deriving DecidableEq

/-- A call of `read` that asks for `count` bytes, at least one. -/
def readAvail (count : Option ℕ) : List ReadEv → ReadRes × List ReadEv
  | [] => (.again, [])
  | .data [] :: input => readAvail count input
  | .data (b :: bs) :: input =>
    match count with
    | none => (.bytes (b :: bs), .data [] :: input)
    | some n => (.bytes ((b :: bs).take n), .data ((b :: bs).drop n) :: input)
  | .again :: input => (.again, input)
  | .eof :: input => (.eof, .eof :: input)
  | .error :: input => (.error, input)

/-- `read(sfd, buf, count)` on the rest of the input.  The count `none` is one that is negative
as an `int` and larger than any buffer as a `size_t`; a call that asks for nothing returns 0, as
at the end of the stream. -/
def readSock (count : Option ℕ) (input : List ReadEv) : ReadRes × List ReadEv :=
  if count = some 0 then (.eof, input) else readAvail count input

/-- The result of a call of `write` on the socket. -/
inductive WriteRes where
  /-- Some bytes were written, at least one and at most `n` of them. -/
  | wrote (n : ℕ)
  /-- `EINTR` or `EWOULDBLOCK`. -/
  | again
  | error
deriving DecidableEq

/-- How a loop of calls of `write` ends. -/
inductive WriteEnd where
  | done
  | again
  | error
deriving DecidableEq

/-- A loop of calls of `write` for `remain` bytes, and how many of them were written.  When
the outcomes are used up, the next call writes everything. -/
def writeLoop : List WriteRes → ℕ → ℕ × WriteEnd
  | _, 0 => (0, .done)
  | [], remain => (remain, .done)
  | .wrote n :: writes, remain =>
    let w := min (max n 1) remain
    let (ws, e) := writeLoop writes (remain - w)
    (w + ws, e)
  | .again :: _, _ => (0, .again)
  | .error :: _, _ => (0, .error)

lemma writeLoop_nil (n : ℕ) : writeLoop [] n = (n, .done) := by cases n <;> rfl

inductive Actor where
  /-- The nio thread, by the event of the connection or inside `__state_machine`. -/
  | nio
  /-- A dio thread, by its queue. -/
  | dio
  /-- The nio thread, by a `'d'` in its notify pipe. -/
  | cq
deriving DecidableEq

/-- Who takes a step, and the outcomes of the calls that the step makes. -/
structure StepEnv where
  actor : Actor
  /-- libevent reports the socket writable. -/
  writable : Bool
  writes : List WriteRes
  eventDel : Bool
  eventAdd : Bool
  fileCtxNew : Bool
  mountBlockMapPolling : Bool
  realloc : Bool
  /-- `st_size` of the file, if there is one. -/
  stat : Option ℕ
  /-- `open` and `fcntl` in `__network_fsend`. -/
  fsend : Bool
  openFile : Bool
  /-- The `read` or `write` of the file handles all the bytes it is asked to. -/
  fileIo : Bool
  rename : Bool
  binlogWrite : Bool
  /-- `sizeof(lfs_fileupload_resp)`. -/
  fileuploadRespSize : ℕ
deriving DecidableEq

def StepEnv.ok (actor : Actor) : StepEnv where
  actor := actor
  writable := true
  writes := []
  eventDel := true
  eventAdd := true
  fileCtxNew := true
  mountBlockMapPolling := true
  realloc := true
  stat := some 0
  fsend := true
  openFile := true
  fileIo := true
  rename := true
  binlogWrite := true
  -- `LFS_B64_FILE_ID_SIZE`
  fileuploadRespSize := 256

/-! ### The connection -/

/-- Where the nio thread stands inside `__state_machine`. -/
inductive Loop where
  /-- At the head of the loop over the states. -/
  | none
  /-- In the loop of `__network_read_header`. -/
  | header
  /-- In the loop of `__network_read_body`. -/
  | body
  /-- In the loop of `__network_fread`. -/
  | fread
deriving DecidableEq

/-- `conn`, with the places in which the connection is. -/
structure Conn where
  state : ConnState
  nextto : ConnState
  /-- The nio thread is in `__state_machine`. -/
  running : Bool
  loop : Loop
  /-- The event is registered with the event base. -/
  registered : Bool
  eventFlags : EvFlags
  /-- How often the connection is in a dio queue. -/
  dioq : ℕ
  /-- How often the connection is in the queue `cq` of its nio thread. -/
  cq : ℕ
  /-- `conn_close` was called. -/
  closed : Bool
  rbuff : List Byte
  /-- The offset of `rcurr` in `rbuff`. -/
  rcurr : ℕ
  rbytes : ℕ
  rsize : ℕ
  allocCount : ℕ
  wbytes : ℕ
  wused : ℕ
  /-- The state byte of the response in `wbuff`. -/
  wstate : RespStatus
  fctx : Option FileCtx
  input : List ReadEv
  /-- The commands dispatched so far, with their bodies. -/
  dispatched : List (Byte × List Byte)
  stored : List (List Byte)
deriving DecidableEq

namespace Conn

/-- `conn_new` with a read buffer of `rsize` bytes, for a client that is going to send
`input`. -/
def connNew (rsize : ℕ) (input : List ReadEv) : Conn where
  state := .read
  nextto := .waiting
  running := false
  loop := .none
  registered := true
  eventFlags := .read
  dioq := 0
  cq := 0
  closed := false
  rbuff := []
  rcurr := 0
  rbytes := 0
  rsize := rsize
  allocCount := 0
  wbytes := 0
  wused := 0
  wstate := .success
  fctx := none
  input := input
  dispatched := []
  stored := []

def connReset (c : Conn) : Conn :=
  { c with
    rbuff := []
    rbytes := 0
    wbytes := 0
    wused := 0
    allocCount := 0
    rcurr := 0
    fctx := c.fctx.map FileCtx.buffReset }

def connWriteReset (c : Conn) : Conn := { c with wbytes := 0, wused := 0 }

/-- `conn_close`, after which `__state_machine` returns. -/
def connClose (c : Conn) : Conn :=
  { c with
    registered := false
    rbytes := 0
    wbytes := 0
    wused := 0
    allocCount := 0
    rcurr := 0
    fctx := none
    state := .closed
    closed := true
    running := false }

/-- `update_conn_event`, and whether it returns 0. -/
def updateConnEvent (flags : EvFlags) (env : StepEnv) (c : Conn) : Conn × Bool :=
  if c.eventFlags = flags then (c, true)
  else if env.eventDel then
    ({ c with eventFlags := flags, registered := env.eventAdd }, env.eventAdd)
  else (c, false)

/-- `add_conn_event` in the `'d'` branch of `__libevent_thread_callback`, which ignores its
result. -/
def addConnEvent (env : StepEnv) (c : Conn) : Conn :=
  { c with cq := c.cq - 1, registered := env.eventAdd }

/-- The bytes `bs` read from the socket to `rcurr + rbytes`. -/
def store (bs : List Byte) (c : Conn) : Conn :=
  { c with
    rbuff := c.rbuff.take (c.rcurr + c.rbytes) ++ bs
    rbytes := c.rbytes + bs.length }

end Conn

end Lfs.Server
