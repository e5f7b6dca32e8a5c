/-
The connection machinery of a dataserver (`ds_network_io.c`, `ds_service.c`, `ds_disk_io.c`).

One step is one round of the `switch` in `__state_machine`, one call of `read` in a loop of
the three functions that read the socket, the function that a dio thread calls on a
connection it has taken from its queue, or the `'d'` branch of the nio thread's callback.
The handlers keep of a request what decides how the connection goes on; file names are left
out.  Where the source would use a file that is not there the connection stays as it is, and where
the assertion of `__parse_protocol_cmd` fails it goes on to `conn_waiting` (`Conn.Aborts` in
`Lfs.Server.Capture` are the states in which the process ends there).
-/
import Lfs.Server.Conn
import Lfs.Binlog.Record

namespace Lfs.Server

open Lfs.Binlog

/-- The commands of `protocol_cmd` that a dataserver handles. -/
inductive Cmd where
  | fileUpload
  | fileDownload
  | asyncCopyFile
  | fullSyncGetMasterBinlogMete
  | fullSyncCopyMasterBinlog
  | fullSyncCopyMasterData
deriving DecidableEq

def Cmd.toByte : Cmd → Byte
  | fileUpload => 0x12
  | fileDownload => 0x13
  | asyncCopyFile => 0x31
  | fullSyncGetMasterBinlogMete => 0x36
  | fullSyncCopyMasterBinlog => 0x37
  | fullSyncCopyMasterData => 0x38

/-- The cases of the `switch` in `dispatch_cmd`. -/
def Cmd.ofByte (b : Byte) : Option Cmd :=
  if b = 0x12 then some fileUpload
  else if b = 0x13 then some fileDownload
  else if b = 0x31 then some asyncCopyFile
  else if b = 0x36 then some fullSyncGetMasterBinlogMete
  else if b = 0x37 then some fullSyncCopyMasterBinlog
  else if b = 0x38 then some fullSyncCopyMasterData
  else none

@[simp] lemma Cmd.ofByte_toByte (cmd : Cmd) : Cmd.ofByte cmd.toByte = some cmd := by
  cases cmd <;> rfl

/-- `sizeof(protocol_header)`. -/
def headerSize : ℕ := 16

def maxPackageDataSize : ℕ := 8192

namespace Conn

/-! ### The fields of a request -/

/-- `n` bytes at an offset of the read buffer, which is zero where nothing was read. -/
def bytesAt (offset n : ℕ) (c : Conn) : List Byte :=
  (c.rbuff.drop offset ++ List.replicate n 0).take n

/-- `header_s.body_len`, a `uint64_t`. -/
def bodyLen (c : Conn) : ℕ := littleEndian (c.bytesAt 0 8)

/-- `header_s.cmd`. -/
def cmd (c : Conn) : Byte := c.rbuff.getD 8 0

/-- `n` bytes at an offset of the body, which starts at `rcurr`. -/
def field (offset n : ℕ) (c : Conn) : List Byte := c.bytesAt (c.rcurr + offset) n

/-! ### `ds_service.c` -/

def respHeader (status : RespStatus) (c : Conn) : Conn :=
  { c with wbytes := headerSize, wstate := status }

def handleProtocolError (status : RespStatus) (c : Conn) : Conn :=
  { c.respHeader status with state := .write }

def handleProtocolAck (state nextto : ConnState) (c : Conn) : Conn :=
  { c.respHeader .success with state := state, nextto := nextto }

def handleCmdFileupload (env : StepEnv) (c : Conn) : Conn × RespStatus :=
  if env.fileCtxNew = false then ({ c with fctx := none }, .errorMemory)
  else if env.mountBlockMapPolling = false then
    ({ c with fctx := some .fileCtxNew }, .errorMountBlockMapInfo)
  else
    ({ c with
        fctx := some
          { FileCtx.fileCtxNew with
            fSize := buff2long (c.field 128 8)
            fTotalSize := buff2long (c.field 136 8)
            job := .upload }
        state := .fread }, .success)

def handleCmdFiledownload (env : StepEnv) (c : Conn) : Conn × RespStatus :=
  let fileOffset := buff2long (c.field 0 8)
  let downloadSize := buff2long (c.field 8 8)
  if env.fileCtxNew = false then ({ c with fctx := none }, .errorMemory)
  else if fileOffset < 0 then
    ({ c with fctx := some .fileCtxNew }, .errorFiledownloadOffsetInvalid)
  else if downloadSize ≤ 0 then
    ({ c with fctx := some .fileCtxNew }, .errorFiledownloadSizeInvalid)
  else if fileOffset ≠ 0 ∧ fileOffset ≤ downloadSize then
    ({ c with fctx := some .fileCtxNew }, .errorFiledownloadSizeInvalid)
  else
    -- the file offset that was asked for is not used
    ({ c with
        fctx := some { FileCtx.fileCtxNew with fSize := downloadSize, job := .download } }
      |>.handleProtocolAck .mwrite .n2dio, .success)

/-- The file id in the body of an `ASYNC_COPY_FILE` request, and the size after it. -/
def asyncCopyFields (c : Conn) : List Byte × ℤ :=
  let fIdLength := (Int.bmod (buff2long (c.field 8 8)) (2 ^ 32)).toNat
  (cstr (c.field 16 fIdLength), buff2long (c.field (16 + fIdLength) 8))

def handleCmdAsynccopyfile (env : StepEnv) (c : Conn) : Conn × RespStatus :=
  if env.fileCtxNew = false then ({ c with fctx := none }, .errorMemory)
  else
    let (fId, size) := c.asyncCopyFields
    let f := { FileCtx.fileCtxNew with fSize := size }
    if (splitBlockIndexByFileId fId).isNone then ({ c with fctx := some f }, .lfsError)
    else ({ c with fctx := some { f with job := .asyncCopy }, state := .fread }, .success)

def handleCmdGetmasterbinlogmete (c : Conn) : Conn × RespStatus :=
  ({ c with wbytes := headerSize + 8, wstate := .success, state := .write }, .success)

/-- The end of the two handlers that answer with the size of a file and then send it. -/
def sendFile (size offset : ℤ) (c : Conn) : Conn :=
  { c with
    fctx := some { FileCtx.fileCtxNew with fSize := size, fOffset := offset }
    wbytes := headerSize + 8
    state := .mwrite
    nextto := .fsend }

/-- `handle_cmd_copymasterbinlog`; the type of a binlog is 0 or 1. -/
def handleCmdCopymasterbinlog (env : StepEnv) (c : Conn) : Conn × RespStatus :=
  let btype := buff2int (c.field 4 4)
  let boffset := buff2long (c.field 8 8)
  if btype ≠ 0 ∧ btype ≠ 1 then (c, .errorSyncNoBinlogtype)
  else if env.fileCtxNew = false then ({ c with fctx := none }, .errorMemory)
  else
    match env.stat with
    | none => ({ c with fctx := some .fileCtxNew }, .errorSyncStatBinlogfile)
    | some size => (c.sendFile (size - boffset) boffset, .success)

def handleCmdCopymasterdata (env : StepEnv) (c : Conn) : Conn × RespStatus :=
  if env.fileCtxNew = false then ({ c with fctx := none }, .errorMemory)
  else
    match env.stat with
    | none => ({ c with fctx := some .fileCtxNew }, .errorSyncStatDatafile)
    | some size => (c.sendFile size 0, .success)

def handleCmd (env : StepEnv) (c : Conn) : Cmd → Conn × RespStatus
  | .fileUpload => c.handleCmdFileupload env
  | .fileDownload => c.handleCmdFiledownload env
  | .asyncCopyFile => c.handleCmdAsynccopyfile env
  | .fullSyncGetMasterBinlogMete => c.handleCmdGetmasterbinlogmete
  | .fullSyncCopyMasterBinlog => c.handleCmdCopymasterbinlog env
  | .fullSyncCopyMasterData => c.handleCmdCopymasterdata env

def dispatchCmd (env : StepEnv) (c : Conn) : Conn :=
  match Cmd.ofByte c.cmd with
  | none => c
  | some cmd =>
    let (c, status) := c.handleCmd env cmd
    if status = .success then c else c.handleProtocolError status

/-- `__parse_protocol_cmd`; the result 0 makes the state `conn_waiting`. -/
def parseProtocolCmd (env : StepEnv) (c : Conn) : Conn :=
  if c.rbytes < headerSize then { c with state := .waiting }
  else if c.bodyLen ≤ c.rbytes - headerSize then
    { c with
      rbytes := c.rbytes - headerSize
      rcurr := headerSize
      dispatched := c.dispatched ++ [(c.cmd, c.bytesAt headerSize c.bodyLen)] }
    |>.dispatchCmd env
  else { c with state := .waiting }

/-! ### Reading the socket -/

/-- The values of `enum network_read_result`. -/
inductive NetworkReadResult where
  | noDataReceived
  | dataReceived
  | complete
  | incomplete
  | hardError
  | softError
deriving DecidableEq

/-- What `__state_machine` does with the result of `__network_read`. -/
def networkReadEnd (r : NetworkReadResult) (c : Conn) : Conn :=
  match r with
  | .noDataReceived => { c with loop := .none, state := .waiting }
  | .dataReceived => { c with loop := .none, state := .parseCmd }
  | _ => { c with loop := .none, state := .closed }

/-- The end of a round in the loops of `__network_read_header` and `__network_read_body`, which
stop when `total` bytes are there. -/
def networkReadTook (total : ℤ) (c : Conn) : ReadRes × List ReadEv → Conn
  | (.bytes bs, input) =>
    if ((c.rbytes + bs.length : ℕ) : ℤ) = total then
      { c.store bs with input := input }.networkReadEnd .dataReceived
    else { c.store bs with input := input }
  | (.again, input) => { c with input := input }.networkReadEnd .noDataReceived
  | (.eof, input) => { c with input := input }.networkReadEnd .hardError
  | (.error, input) => { c with input := input }.networkReadEnd .hardError

/-- One round of the loop of `__network_read_header`.  It asks for a whole header, however
many bytes of it are there already. -/
def networkReadHeader (c : Conn) : Conn :=
  c.networkReadTook headerSize (readSock (some headerSize) c.input)

/-- `body_len` as an `int64_t`. -/
def bodyLenInt (c : Conn) : ℤ := Int.bmod c.bodyLen (2 ^ 64)

/-- The variable `avail` of `__network_read_body`, an `int`, as the count of a `read`. -/
def bodyAvail (c : Conn) : Option ℕ :=
  let avail := Int.bmod (c.bodyLenInt - (c.rbytes - headerSize)) (2 ^ 32)
  if avail < 0 then none else some avail.toNat

/-- The `read` in the loop of `__network_read_body`. -/
def networkReadBodyRead (c : Conn) : Conn :=
  c.networkReadTook (c.bodyLenInt + headerSize) (readSock c.bodyAvail c.input)

/-- One round of the loop of `__network_read_body`. -/
def networkReadBody (env : StepEnv) (c : Conn) : Conn :=
  if c.rbytes < c.rsize then c.networkReadBodyRead
  else if c.allocCount = 2 then c.networkReadEnd .noDataReceived
  else if env.realloc then
    { c with allocCount := c.allocCount + 1, rcurr := 0, rsize := c.rsize * 2 }
    |>.networkReadBodyRead
  else
    { c.respHeader .errorMemory with rbytes := 0, allocCount := c.allocCount + 1 }
    |>.networkReadEnd .softError

/-- `__network_read` up to the loop. -/
def networkRead (c : Conn) : Conn :=
  if c.rbytes < headerSize then { c with loop := .header }
  else if (maxPackageDataSize : ℤ) < c.bodyLenInt then
    (c.respHeader .errorPackagesizeOverflow).networkReadEnd .softError
  else { c with loop := .body }

/-- What `__state_machine` does with the result of `__network_fread`. -/
def networkFreadEnd (r : NetworkReadResult) (c : Conn) : Conn :=
  match r with
  | .complete => { c with loop := .none, state := .n2dio }
  | .incomplete => { c with loop := .none, running := false }
  | .softError => { c with loop := .none, state := c.nextto }
  | _ => { c with loop := .none, state := .closed }

/-- `__network_fread` when there is nothing to read. -/
def networkFreadAgain (env : StepEnv) (c : Conn) : Conn :=
  match c.updateConnEvent .read env with
  | (c, true) => c.networkFreadEnd .incomplete
  | (c, false) => c.networkFreadEnd .hardError

/-- One round of the loop of `__network_fread` on the file `f` of the connection.  It asks for as
much as the buffer can take, however little of the file is still to come. -/
def networkFreadFile (env : StepEnv) (f : FileCtx) (c : Conn) : Conn :=
  let avail := fileBuffSize - f.fBuffOffset
  if f.fSize ≤ f.fRwoffset ∨ fileBuffSize ≤ f.fBuffOffset then c.networkFreadEnd .complete
  else
    match readSock (some avail) c.input with
    | (.bytes bs, input) =>
      if bs.length = avail then { c with fctx := some (f.received bs), input := input }
      else { c with fctx := some (f.received bs), input := input }.networkFreadEnd .complete
    | (.eof, input) => { c with input := input }.networkFreadEnd .hardError
    | (.again, input) => { c with input := input }.networkFreadAgain env
    -- no branch of the source is for another error: the loop goes on
    | (.error, input) => { c with input := input }

/-- One round of the loop of `__network_fread`. -/
def networkFread (env : StepEnv) (c : Conn) : Conn :=
  match c.fctx with
  | none => c
  | some f => c.networkFreadFile env f

/-! ### Writing the socket -/

/-- The values of `enum network_write_result` that are returned. -/
inductive NetworkWriteResult where
  | complete
  | incomplete
  | hardError
  | softError
deriving DecidableEq

def networkWriteEnd (env : StepEnv) (e : WriteEnd) (c : Conn) : Conn × NetworkWriteResult :=
  match e with
  | .done => (c, .complete)
  | .error => (c, .hardError)
  | .again =>
    match c.updateConnEvent .write env with
    | (c, true) => (c, .incomplete)
    | (c, false) => (c, .softError)

def networkWriteNoblock (env : StepEnv) (c : Conn) : Conn × NetworkWriteResult :=
  let w := writeLoop env.writes (c.wbytes - c.wused)
  { c with wused := c.wused + w.1 }.networkWriteEnd env w.2

def networkFwrite (env : StepEnv) (f : FileCtx) (c : Conn) : Conn × NetworkWriteResult :=
  let w := writeLoop env.writes (f.fBuffOffset - f.fRwoffset)
  { c with fctx := some (f.sent w.1) }.networkWriteEnd env w.2

/-! ### `ds_disk_io.c` -/

def dioNotifyNio (state : ConnState) (flags : EvFlags) (c : Conn) : Conn :=
  { c with state := state, eventFlags := flags, cq := c.cq + 1 }

/-- `dio_thread_pool_dispatch` of a connection that has a file, and whether it returns 0. -/
def dioThreadPoolDispatch (env : StepEnv) (c : Conn) : Conn × Bool :=
  if env.eventDel then ({ c with registered := false, dioq := c.dioq + 1 }, true) else (c, false)

/-- `file_upload_done_callback`; `done` is for the error number 0. -/
def fileUploadDoneCallback (env : StepEnv) (done : Bool) (f : FileCtx) (c : Conn) : Conn :=
  if done = false then (c.respHeader .errorDioWriteDisk).dioNotifyNio .write .write
  else if f.fTotalSize ≤ f.fTotalOffset then
    if env.rename = false then (c.respHeader .errorFilemetedataPack).dioNotifyNio .write .write
    else if env.binlogWrite = false then
      (c.respHeader .errorBinlogWrite).dioNotifyNio .write .write
    else
      { c with wbytes := headerSize + env.fileuploadRespSize, wstate := .success }
      |>.dioNotifyNio .write .write
  else if f.fSize ≤ f.fOffset then
    { c.respHeader .success with fctx := some f.reset }.dioNotifyNio .write .write
  else c

def asyncfileDoneCallback (env : StepEnv) (done : Bool) (c : Conn) : Conn :=
  if done = false then (c.respHeader .errorDioWriteDisk).dioNotifyNio .write .write
  else if env.binlogWrite = false then
    (c.respHeader .errorBinlogWrite).dioNotifyNio .write .write
  else (c.respHeader .success).dioNotifyNio .write .write

def fileDownloadDoneCallback (done : Bool) (c : Conn) : Conn :=
  if done = false then (c.respHeader .errorFileDownloadDio).dioNotifyNio .write .write else c

def dioRead (env : StepEnv) (f : FileCtx) (c : Conn) : Conn :=
  if f.fSize ≤ f.fOffset then c.fileDownloadDoneCallback true
  else if env.openFile && env.fileIo then
    { c with fctx := some { f with fBuffOffset := f.fBuffOffset + f.readBytes } }
    |>.dioNotifyNio .fwrite .write |>.fileDownloadDoneCallback true
  else c.fileDownloadDoneCallback false

/-- `f_op_func` of the two jobs that write a file. -/
def writeDoneCallback (env : StepEnv) (done : Bool) (f : FileCtx) (c : Conn) : Conn :=
  if f.job = .upload then c.fileUploadDoneCallback env done f
  else c.asyncfileDoneCallback env done

def dioWrite (env : StepEnv) (f : FileCtx) (c : Conn) : Conn :=
  if env.openFile && env.fileIo then
    if f.written.fOffset < f.written.fSize then
      { c with fctx := some f.written.buffReset }.dioNotifyNio .fread .read
    else
      { c with fctx := some f.written, stored := c.stored ++ [f.written.file] }
      |>.writeDoneCallback env true f.written
  else c.writeDoneCallback env false f

/-- `conn_queue_pop` of the connection from its dio queue. -/
def dioqPop (c : Conn) : Conn := { c with dioq := c.dioq - 1 }

/-- What a dio thread does with a connection from its queue. -/
def dioThread (env : StepEnv) (c : Conn) : Conn :=
  match c.fctx with
  | none => c
  | some f =>
    if c.dioq = 0 then c
    else
      match f.job with
      | .none => c
      | .download => c.dioqPop.dioRead env f
      | .upload => c.dioqPop.dioWrite env f
      | .asyncCopy => c.dioqPop.dioWrite env f

/-! ### `__state_machine` -/

/-- What `__state_machine` does with the result of a write; `next` is for one that has
completed. -/
def afterWrite (next : Conn → Conn) : Conn × NetworkWriteResult → Conn
  | (c, .complete) => next c
  | (c, .incomplete) => { c with running := false }
  | (c, .hardError) => { c with state := .closed }
  | (c, .softError) => { c with state := .closed }

/-- One round of the `switch` of `__state_machine`. -/
def stateMachine (env : StepEnv) (c : Conn) : Conn :=
  match c.state with
  -- a failed update makes the state `conn_closed`, which the next line overwrites
  | .waiting => { (c.updateConnEvent .read env).1 with state := .read, running := false }
  | .read => c.networkRead
  | .fread => { c with loop := .fread }
  | .parseCmd => c.parseProtocolCmd env
  | .write => afterWrite (fun c => { c.connReset with state := .waiting }) (c.networkWriteNoblock env)
  | .fwrite =>
    match c.fctx with
    | none => c
    | some f => afterWrite (fun c => { c.connReset with state := .n2dio }) (c.networkFwrite env f)
  | .fsend =>
    if env.fsend then { c.connReset with state := .waiting } else { c with state := .closed }
  | .mwrite =>
    afterWrite (fun c => { c.connWriteReset with state := c.nextto }) (c.networkWriteNoblock env)
  | .n2dio =>
    match c.fctx with
    | none => c
    | some _ =>
      match c.dioThreadPoolDispatch env with
      | (c, true) => { c with running := false }
      | (c, false) => { c with state := .closed }
  | .closed => c.connClose

/-- What the nio thread does inside `__state_machine`. -/
def nioRunning (env : StepEnv) (c : Conn) : Conn :=
  match c.loop with
  | .none => c.stateMachine env
  | .header => c.networkReadHeader
  | .body => c.networkReadBody env
  | .fread => c.networkFread env

/-- libevent calls `__event_handler_callback` when the event is registered and the socket is
ready.  While there is nothing to read, the step is that time passes. -/
def nioIdle (env : StepEnv) (c : Conn) : Conn :=
  if c.registered = false then c
  else
    match c.eventFlags, c.input with
    | .write, _ => { c with running := env.writable }
    | .read, [] => c
    | .read, .again :: input => { c with input := input }
    | .read, .data [] :: input => { c with input := input }
    | .read, _ => { c with running := true }

def step (c : Conn) (env : StepEnv) : Conn :=
  match env.actor with
  | .nio => if c.running then c.nioRunning env else c.nioIdle env
  | .dio => c.dioThread env
  | .cq => if c.cq = 0 then c else c.addConnEvent env

variable {c : Conn} {env : StepEnv}

lemma dioRead_of_sent {f : FileCtx} (hsent : f.fSize ≤ f.fOffset) : c.dioRead env f = c := by
  rw [dioRead, if_pos hsent]
  rfl

/-! ### What a call can do -/

/-- `update_conn_event` changes what the connection waits for, and may fail. -/
lemma updateConnEvent_eq (c : Conn) (flags : EvFlags) (env : StepEnv) : ∃ flags' registered ok,
    c.updateConnEvent flags env =
      ({ c with eventFlags := flags', registered := registered }, ok) := by
  unfold updateConnEvent
  split_ifs
  · exact ⟨c.eventFlags, c.registered, true, rfl⟩
  · exact ⟨flags, env.eventAdd, env.eventAdd, rfl⟩
  · exact ⟨c.eventFlags, c.registered, false, rfl⟩

lemma networkFreadAgain_eq (c : Conn) (env : StepEnv) : ∃ flags registered r,
    (r = .incomplete ∨ r = .hardError) ∧ c.networkFreadAgain env =
      networkFreadEnd r { c with eventFlags := flags, registered := registered } := by
  obtain ⟨flags, registered, _ | _, hupdate⟩ := updateConnEvent_eq c .read env
  · exact ⟨flags, registered, _, .inr rfl, by rw [networkFreadAgain, hupdate]⟩
  · exact ⟨flags, registered, _, .inl rfl, by rw [networkFreadAgain, hupdate]⟩

/-- A round of `__network_fread` goes on, ends the loop, or finds nothing to read. -/
lemma networkFread_rule {P : Conn → Prop}
    (hgo : ∀ fctx input, P { c with fctx := fctx, input := input })
    (hend : ∀ fctx input, P (networkFreadEnd .complete { c with fctx := fctx, input := input }))
    (hclosed : ∀ input, P (networkFreadEnd .hardError { c with input := input }))
    (hagain : ∀ input, P (networkFreadAgain env { c with input := input })) : P (c.networkFread env) := by
  unfold networkFread
  rcases hf : c.fctx with _ | f
  · exact hgo c.fctx c.input
  dsimp only
  unfold networkFreadFile
  dsimp only
  split_ifs
  · exact hend c.fctx c.input
  rcases readSock (some (fileBuffSize - f.fBuffOffset)) c.input with ⟨bs | _ | _ | _, input⟩
  · dsimp only
    split_ifs
    · exact hgo _ _
    · exact hend _ _
  · exact hagain input
  · exact hclosed input
  · exact hgo c.fctx input

/-- A loop of writes completes, waits for the socket, or closes the connection. -/
lemma afterWrite_eq (next : Conn → Conn) (c : Conn) (env : StepEnv) (e : WriteEnd) :
    e = .done ∧ afterWrite next (c.networkWriteEnd env e) = next c ∨ ∃ flags registered,
      afterWrite next (c.networkWriteEnd env e) =
          { c with eventFlags := flags, registered := registered, running := false } ∨
        afterWrite next (c.networkWriteEnd env e) =
          { c with eventFlags := flags, registered := registered, state := .closed } := by
  cases e with
  | done => exact .inl ⟨rfl, rfl⟩
  | error => exact .inr ⟨_, _, .inr rfl⟩
  | again =>
    obtain ⟨flags, registered, _ | _, hupdate⟩ := updateConnEvent_eq c .write env
    · exact .inr ⟨flags, registered, .inr (by rw [networkWriteEnd, hupdate]; rfl)⟩
    · exact .inr ⟨flags, registered, .inl (by rw [networkWriteEnd, hupdate]; rfl)⟩

/-! ### What the functions that read the socket leave alone -/

/-- The fields that say where a connection is: run by its nio thread, registered, in a dio
queue, in the queue `cq`, closed. -/
def places (c : Conn) : Bool × Bool × ℕ × ℕ × Bool :=
  (c.running, c.registered, c.dioq, c.cq, c.closed)

/-- The places of a connection and the files that were completed. -/
def frame (c : Conn) : (Bool × Bool × ℕ × ℕ × Bool) × List (List Byte) := (c.places, c.stored)

lemma places_of_frame {c' : Conn} (h : c'.frame = c.frame) : c'.places = c.places :=
  congrArg Prod.fst h

lemma stored_of_frame {c' : Conn} (h : c'.frame = c.frame) : c'.stored = c.stored :=
  congrArg Prod.snd h

@[simp] lemma frame_networkReadEnd (r : NetworkReadResult) :
    (c.networkReadEnd r).frame = c.frame := by
  cases r <;> rfl

/-- A handler may set the file context, the response and where `__state_machine` goes on. -/
lemma handleCmd_eq (cmd : Cmd) : ∃ fctx wbytes wstate state nextto, (c.handleCmd env cmd).1 =
      { c with
        fctx := fctx, wbytes := wbytes, wstate := wstate, state := state, nextto := nextto } := by
  cases cmd with
  | fileUpload =>
    simp only [handleCmd, handleCmdFileupload]
    split_ifs <;> exact ⟨_, _, _, _, _, rfl⟩
  | fileDownload =>
    simp only [handleCmd, handleCmdFiledownload]
    split_ifs <;> exact ⟨_, _, _, _, _, rfl⟩
  | asyncCopyFile =>
    simp only [handleCmd, handleCmdAsynccopyfile]
    split_ifs <;> exact ⟨_, _, _, _, _, rfl⟩
  | fullSyncGetMasterBinlogMete => exact ⟨_, _, _, _, _, rfl⟩
  | fullSyncCopyMasterBinlog =>
    simp only [handleCmd, handleCmdCopymasterbinlog]
    split_ifs
    · exact ⟨_, _, _, _, _, rfl⟩
    · exact ⟨_, _, _, _, _, rfl⟩
    · cases env.stat <;> exact ⟨_, _, _, _, _, rfl⟩
  | fullSyncCopyMasterData =>
    simp only [handleCmd, handleCmdCopymasterdata]
    split_ifs
    · exact ⟨_, _, _, _, _, rfl⟩
    · cases env.stat <;> exact ⟨_, _, _, _, _, rfl⟩

lemma dispatchCmd_eq : ∃ fctx wbytes wstate state nextto, c.dispatchCmd env =
      { c with
        fctx := fctx, wbytes := wbytes, wstate := wstate, state := state, nextto := nextto } := by
  unfold dispatchCmd
  cases Cmd.ofByte c.cmd with
  | none => exact ⟨_, _, _, _, _, rfl⟩
  | some cmd =>
    obtain ⟨fctx, wbytes, wstate, state, nextto, hhandle⟩ := @handleCmd_eq c env cmd
    dsimp only
    rw [hhandle]
    split_ifs
    · exact ⟨_, _, _, _, _, rfl⟩
    · exact ⟨_, _, _, _, _, rfl⟩

lemma frame_dispatchCmd : (c.dispatchCmd env).frame = c.frame := by
  obtain ⟨_, _, _, _, _, hdispatch⟩ := @dispatchCmd_eq c env
  rw [hdispatch]
  rfl

lemma frame_parseProtocolCmd : (c.parseProtocolCmd env).frame = c.frame := by
  unfold parseProtocolCmd
  split_ifs
  · rfl
  · rw [frame_dispatchCmd]
    rfl
  · rfl

lemma frame_networkReadTook (total : ℤ) (r : ReadRes × List ReadEv) :
    (c.networkReadTook total r).frame = c.frame := by
  obtain ⟨bs | _ | _ | _, input⟩ := r
  · simp only [networkReadTook]
    split_ifs <;> rfl
  all_goals rfl

lemma frame_networkReadBody : (c.networkReadBody env).frame = c.frame := by
  unfold networkReadBody
  split_ifs
  · exact frame_networkReadTook _ _
  · exact frame_networkReadEnd _
  · rw [networkReadBodyRead, frame_networkReadTook]
    rfl
  · rw [frame_networkReadEnd]
    rfl

lemma frame_networkRead : c.networkRead.frame = c.frame := by
  unfold networkRead
  split_ifs
  · rfl
  · exact frame_networkReadEnd _
  · rfl

end Conn

end Lfs.Server
