/-
A client connection of a tracker (`ts_conn.c`, `ts_thread.c`).

A worker thread runs `__state_machine` on the connection when libevent reports its socket ready, and
calls the handlers from there.  What the socket is going to deliver and how many bytes it is going to
take are fields of the connection, and all other calls succeed.  So the connection takes its steps by
itself (`TrackerConn.next`), and one step is one round of `__network_read` or one case of
`__state_machine`.
-/
import Lfs.Server.Conn
import Lfs.Tracker.Dispatch

namespace Lfs.Tracker

open Lfs.Lib
open Lfs.Server (ReadEv ReadRes readSock readAvail WriteRes EvFlags)

/-- `enum conn_states`. -/
inductive TrackerConnState where
  | waiting
  | read
  | nread
  | parseCmd
  | write
  | closed
deriving DecidableEq

def maxPackageDataSize : ℕ := 8192

/-- The local variables of `__network_read`. -/
structure ReadLoop where
  allocsCount : ℕ
  /-- `read_state` is `READ_DATA_RECEIVED`. -/
  received : Bool
deriving DecidableEq

/-- `conn`. -/
structure TrackerConn where
  state : TrackerConnState
  writeto : TrackerConnState
  /-- The thread is in `__state_machine`. -/
  running : Bool
  /-- The thread is in the loop of `__network_read`. -/
  loop : Option ReadLoop
  eventFlags : EvFlags
  /-- What is in the memory from `rbuff` on, also behind the buffer. -/
  rbuff : ℕ → Byte
  /-- The offset of `rcurr` in `rbuff`. -/
  rcurr : ℕ
  rbytes : ℕ
  rsize : ℕ
  wbuff : ℕ → Byte
  wbytes : ℕ
  wused : ℕ
  wsize : ℕ
  /-- `clusters`, as the next handler finds it. -/
  cluster : ClusterState
  /-- The time of the next handler, and the draws of its `random`. -/
  now : ℤ
  draws : ℕ
  input : List ReadEv
  /-- How the next calls of `write` end. -/
  writes : List WriteRes
  /-- A value was used that is not defined, or memory that is not there. -/
  broken : Bool
  /-- The bytes that have been written to the socket. -/
  sent : List Byte
  /-- The commands dispatched so far, with the `rbytes` bytes at `rcurr`. -/
  dispatched : List (Byte × List Byte)

/-- The stores of a handler and its reply lie in a write buffer of `wsize` bytes. -/
structure Handled.Fits (h : Handled) (wsize : ℕ) : Prop where
  stores : ∀ w ∈ h.reply.stores, w.1 + w.2.length ≤ wsize
  wbytes : h.reply.wbytes ≤ wsize

instance (h : Handled) (wsize : ℕ) : Decidable (h.Fits wsize) :=
  decidable_of_iff ((∀ w ∈ h.reply.stores, w.1 + w.2.length ≤ wsize) ∧ h.reply.wbytes ≤ wsize)
    ⟨fun ⟨h1, h2⟩ => ⟨h1, h2⟩, fun h => ⟨h.1, h.2⟩⟩

def TrackerCmd.ofByte (b : Byte) : Option TrackerCmd :=
  [TrackerCmd.register, .fullsync, .heartbeat, .syncreport, .statreport, .quited, .writeTrackerReq,
    .readTrackerReq, .test].find? fun cmd => cmd.toByte = b

lemma TrackerCmd.ofByte_toByte (cmd : TrackerCmd) : ofByte cmd.toByte = some cmd := by
  cases cmd <;> decide

namespace TrackerConn

/-- `conn_new` with buffers of `size` bytes, in memory that holds anything. -/
def connNew (size : ℕ) (rbuff wbuff : ℕ → Byte) : TrackerConn where
  state := .read
  writeto := .waiting
  running := false
  loop := none
  eventFlags := .read
  rbuff := rbuff
  rcurr := 0
  rbytes := 0
  rsize := size
  wbuff := wbuff
  wbytes := 0
  wused := 0
  wsize := size
  cluster := .start
  now := 0
  draws := 0
  input := []
  writes := []
  broken := false
  sent := []
  dispatched := []

/-- The `n` bytes from the offset `p` of the read buffer on. -/
def rbuffAt (p n : ℕ) (c : TrackerConn) : List Byte := readFront n fun a => c.rbuff (p + a)

/-- `header_s.body_len`, a `uint64_t`. -/
def bodyLen (c : TrackerConn) : ℕ := littleEndian (readFront 8 c.rbuff)

/-- `header_s.cmd`. -/
def cmdByte (c : TrackerConn) : Byte := c.rbuff 8

def connReset (c : TrackerConn) : TrackerConn :=
  { c with
    rbuff := writeAt 0 (List.replicate c.rsize 0) c.rbuff
    wbuff := writeAt 0 (List.replicate c.wsize 0) c.wbuff
    rbytes := 0
    wbytes := 0
    wused := 0
    rcurr := 0 }

def connClose (c : TrackerConn) : TrackerConn :=
  { c with running := false, rbytes := 0, wbytes := 0, wused := 0, rcurr := 0 }

/-! ### Reading -/

/-- The call of `read` in a round of `__network_read`, and what follows on its result. -/
def networkReadTake (l : ReadLoop) (c : TrackerConn) : TrackerConn :=
  let avail := c.rsize - c.rbytes
  let (res, input) := readSock (some avail) c.input
  match res with
  | .bytes bs =>
    let c := { c with
      rbuff := writeAt (c.rcurr + c.rbytes) bs c.rbuff
      rbytes := c.rbytes + bs.length
      input := input }
    if bs.length = avail then { c with loop := some { l with received := true } }
    else { c with loop := none, state := .parseCmd }
  | .again =>
    { c with input := input, loop := none, state := if l.received then .parseCmd else .waiting }
  | .eof => { c with input := input, loop := none, state := .closed }
  | .error => { c with input := input, loop := none, state := .closed }

/-- A round of `__network_read`.  The buffer is doubled when it is full, at most twice in a call. -/
def networkRead (l : ReadLoop) (c : TrackerConn) : TrackerConn :=
  if c.rsize ≤ c.rbytes then
    if 1 < l.allocsCount then { c with loop := none, state := .closed }
    else
      networkReadTake { l with allocsCount := l.allocsCount + 1 }
        { c with rcurr := 0, rsize := c.rsize * 2 }
  else c.networkReadTake l

/-! ### Parsing -/

variable (hashFunc : List Byte → UInt32) (heartBeatInterval : ℤ)

/-- `dispatch_cmd`.  For a command that is not known, `resp_status` is read without having been
set. -/
def dispatchCmd (c : TrackerConn) : TrackerConn :=
  let handled := (TrackerCmd.ofByte c.cmdByte).bind fun cmd =>
    c.cluster.dispatchCmd hashFunc heartBeatInterval c.now c.draws cmd
      (c.rbuffAt c.rcurr (c.rsize - c.rcurr))
  match handled with
  | none => { c with broken := true }
  | some h =>
    if h.Fits c.wsize then
      { c with
        cluster := h.state
        wbuff := writeAll h.reply.stores c.wbuff
        wbytes := h.reply.wbytes
        state := if h.closes then .closed else .write }
    else { c with broken := true }

/-- `__parse_protocol_cmd`, with the case of `__state_machine` that calls it.  Where the assertion fails the
process ends, and the connection stays as it is. -/
def parseProtocolCmd (c : TrackerConn) : TrackerConn :=
  if c.rbytes = 0 then c
  else if c.rbytes < sizeofHeader then { c with state := .waiting }
  else if maxPackageDataSize < c.bodyLen then
    -- `handle_protocol_error`
    { c with
      wbuff := writeAt 0 (toLittleEndian 8 0 ++
        [c.cmdByte, TrackerStatus.errorPackagesizeOverflow.toByte]) c.wbuff
      wbytes := sizeofHeader
      state := .write }
  else if c.bodyLen ≤ c.rbytes - sizeofHeader then
    let c := { c with rbytes := c.rbytes - sizeofHeader, rcurr := sizeofHeader }
    dispatchCmd hashFunc heartBeatInterval
      { c with dispatched := c.dispatched ++ [(c.cmdByte, c.rbuffAt c.rcurr c.rbytes)] }
  else { c with state := .waiting }

/-! ### Writing -/

/-- `n` bytes of the write buffer are written to the socket. -/
def wrote (n : ℕ) (c : TrackerConn) : TrackerConn :=
  { c with
    wused := c.wused + n
    sent := c.sent ++ readFront n fun a => c.wbuff (c.wused + a) }

/-- `__network_write_noblock`, with the case of `__state_machine` that calls it.  When the outcomes
are used up, the next call writes everything.  An error other than `EINTR` and `EWOULDBLOCK` is
taken for an incomplete write. -/
def networkWriteNoblock (c : TrackerConn) : TrackerConn :=
  let remain := c.wbytes - c.wused
  if 0 < remain then
    match c.writes with
    | [] => c.wrote remain
    | .wrote n :: writes => { c.wrote (min (max n 1) remain) with writes := writes }
    | .again :: writes => { c with writes := writes, eventFlags := .write, running := false }
    | .error :: writes => { c with writes := writes }
  else { c with writeto := .waiting, state := .waiting }.connReset

/-! ### The state machine -/

/-- One case of `__state_machine`. -/
def stateMachine (c : TrackerConn) : TrackerConn :=
  match c.state with
  | .waiting => { c with eventFlags := .read, state := .read, running := false }
  | .read => { c with loop := some ⟨0, false⟩ }
  | .nread => c
  | .parseCmd => c.parseProtocolCmd hashFunc heartBeatInterval
  | .write => c.networkWriteNoblock
  | .closed => c.connClose

/-- `__event_handler_callback`, when libevent reports the socket ready. -/
def event (c : TrackerConn) : TrackerConn :=
  match c.state, c.eventFlags with
  | .closed, _ => c
  | _, .write => { c with running := true }
  | _, .read => if c.input = [] then c else { c with running := true }

def next (c : TrackerConn) : TrackerConn :=
  if c.broken then c
  else if c.running then
    match c.loop with
    | some l => c.networkRead l
    | none => c.stateMachine hashFunc heartBeatInterval
  else c.event

end TrackerConn

end Lfs.Tracker
