/-
How a tracker takes requests from the socket and answers them.

A client sends a request and waits for the response before it sends the next one.  The kernel hands
out the bytes of a request in any pieces, and takes those of a response in any pieces.
`__network_read` collects the request from the front of the read buffer, which grows to the first size
that is larger than the request.  The response is whole except to a test: `handle_cmd_test` sets
`wbytes` to the size of a pointer, so that half a header is sent.
-/
import Lfs.Lib.Reach
import Lfs.Server.Socket
import Lfs.Tracker.Conn

namespace Lfs.Tracker

open Lfs.Lib List Option
open Lfs.Server (ReadEv ReadRes WriteRes EvFlags readSock payload Calm pending Advances readSock_calm)

/-! ### How the read buffer grows -/

/-- The size of the read buffer after `n` bytes have been read. -/
def grown (rsize n : ℕ) : ℕ := if n < rsize ∨ rsize = 0 then rsize else grown (rsize * 2) n
termination_by n + 1 - rsize

lemma grown_of_lt {rsize n : ℕ} (h : n < rsize) : grown rsize n = rsize := by
  rw [grown, if_pos (.inl h)]

lemma grown_of_le {rsize n : ℕ} (hpos : 0 < rsize) (h : rsize ≤ n) :
    grown rsize n = grown (rsize * 2) n := by
  rw [grown, if_neg (by omega)]

lemma grown_spec {rsize n : ℕ} (hpos : 0 < rsize) : rsize ≤ grown rsize n ∧ n < grown rsize n := by
  induction hk : n + 1 - rsize using Nat.strong_induction_on generalizing rsize with
  | _ k ih =>
    rcases lt_or_ge n rsize with hlt | hge
    · rw [grown_of_lt hlt]
      exact ⟨le_rfl, hlt⟩
    · rw [grown_of_le hpos hge]
      have hdouble := ih (n + 1 - rsize * 2) (by omega) (by omega : 0 < rsize * 2) rfl
      omega

/-! ### The requests of a client -/

/-- A request, how the socket delivers it and takes the response, and what the handler finds. -/
structure ClientReq where
  cmd : TrackerCmd
  /-- The fields of the header that are not read. -/
  state : Byte
  padding : List Byte
  body : List Byte
  input : List ReadEv
  writes : List WriteRes
  cluster : ClusterState
  now : ℤ
  draws : ℕ
  padding_length : padding.length = 6
  body_le : body.length ≤ maxPackageDataSize
  calm : Calm input
  delivered : payload input =
    toLittleEndian 8 body.length ++ (cmd.toByte :: state :: padding) ++ body

namespace ClientReq

variable (q : ClientReq)

def header : List Byte := toLittleEndian 8 q.body.length ++ (q.cmd.toByte :: q.state :: q.padding)

def bytes : List Byte := q.header ++ q.body

lemma length_header : q.header.length = sizeofHeader := by
  simp [header, length_toLittleEndian, q.padding_length, sizeofHeader]

lemma length_bytes : q.bytes.length = sizeofHeader + q.body.length := by
  rw [bytes, length_append, q.length_header]

lemma length_bytes_le : q.bytes.length ≤ 8208 := by
  have hbody := q.body_le
  rw [q.length_bytes, sizeofHeader]
  rw [maxPackageDataSize] at hbody
  omega

def entry : Byte × List Byte := (q.cmd.toByte, q.body)

end ClientReq

namespace TrackerConn

def receive (c : TrackerConn) (q : ClientReq) : TrackerConn :=
  { c with
    input := q.input
    writes := q.writes
    cluster := q.cluster
    now := q.now
    draws := q.draws }

/-- The connection waits for a request, with buffers that are large enough for the protocol. -/
structure Resting (c : TrackerConn) : Prop where
  state : c.state = .read
  running : c.running = false
  loop : c.loop = none
  eventFlags : c.eventFlags = .read
  rcurr : c.rcurr = 0
  rbytes : c.rbytes = 0
  wbytes : c.wbytes = 0
  wused : c.wused = 0
  input : c.input = []
  broken : c.broken = false
  le_rsize : 4096 ≤ c.rsize
  wsize_lt : c.wsize < 2 ^ 31

/-- What lies behind a request in the read buffer. -/
def behind (c : TrackerConn) (q : ClientReq) : List Byte :=
  readFront (grown c.rsize q.bytes.length - q.bytes.length) fun a => c.rbuff (q.bytes.length + a)

variable (hashFunc : List Byte → UInt32) (heartBeatInterval : ℤ)

/-- What the handler of a request does, if it takes no undefined value. -/
def handled (c : TrackerConn) (q : ClientReq) : Option Handled :=
  q.cluster.dispatchCmd hashFunc heartBeatInterval q.now q.draws q.cmd (q.body ++ c.behind q)

/-- A response is whole: it has as many bytes as its header announces. -/
def Whole (response : List Byte) : Prop :=
  response.length = sizeofHeader + littleEndian (response.take 8)

/-- The connection `c` has answered the request `q`, and is `c'` now: one command has been dispatched,
with `rcurr` at the body, the whole response of its handler has been sent, and the connection is in
`conn_read` with `rbytes` 0. -/
structure Answered (c : TrackerConn) (q : ClientReq) (c' : TrackerConn) : Prop where
  dispatched : c'.dispatched = c.dispatched ++ [q.entry]
  state : c'.state = .read
  rbytes : c'.rbytes = 0
  response : ∃ h, c.handled hashFunc heartBeatInterval q = some h ∧ c'.cluster = h.state ∧
    c'.sent = c.sent ++ h.reply.response c.wbuff ∧ Whole (h.reply.response c.wbuff)

/-- The requests are answered one after the other. -/
def Serves : TrackerConn → List ClientReq → Prop
  | _, [] => True
  | c, q :: qs => ∃ c', Settles (next hashFunc heartBeatInterval) (c.receive q) c' ∧
      Answered hashFunc heartBeatInterval c q c' ∧ Serves c' qs

/-- The handler of the request is not that of a test, reads no freed memory, and stores nothing behind
the write buffer. -/
def Servable (c : TrackerConn) (q : ClientReq) : Prop :=
  q.cmd ≠ .test ∧ ∃ h, c.handled hashFunc heartBeatInterval q = some h ∧ h.Fits c.wsize

/-- Each request is servable when it is received. -/
def AllServable : TrackerConn → List ClientReq → Prop
  | _, [] => True
  | c, q :: qs => c.Servable hashFunc heartBeatInterval q ∧
      ∀ c', Settles (next hashFunc heartBeatInterval) (c.receive q) c' → AllServable c' qs

/-! ### Collecting a request -/

variable {hashFunc heartBeatInterval} {b c c' w : TrackerConn} {q : ClientReq} {buf : List Byte} {hd : Handled}
  {rsize : ℕ} {input : List ReadEv} {l : ReadLoop}

/-- The connection `b` while it collects a request, of which it has `buf`. -/
def collecting (b : TrackerConn) (running : Bool) (loop : Option ReadLoop)
    (state : TrackerConnState) (buf : List Byte) (rsize : ℕ) (input : List ReadEv) : TrackerConn :=
  { b with
    state := state
    running := running
    loop := loop
    eventFlags := .read
    rbuff := writeAt 0 buf b.rbuff
    rcurr := 0
    rbytes := buf.length
    rsize := rsize
    input := input }

lemma next_of_running (hbroken : c.broken = false) (hrunning : c.running = true)
    (hloop : c.loop = none) :
    c.next hashFunc heartBeatInterval = c.stateMachine hashFunc heartBeatInterval := by
  simp [next, hbroken, hrunning, hloop]

lemma next_idle (hbroken : b.broken = false) (hinput : input ≠ []) :
    (b.collecting false none .read buf rsize input).next hashFunc heartBeatInterval =
      b.collecting true none .read buf rsize input := by
  simp [next, collecting, event, hbroken, hinput]

lemma next_idle_nil (hbroken : b.broken = false) :
    (b.collecting false none .read buf rsize []).next hashFunc heartBeatInterval =
      b.collecting false none .read buf rsize [] := by
  simp [next, collecting, event, hbroken]

lemma next_read (hbroken : b.broken = false) :
    (b.collecting true none .read buf rsize input).next hashFunc heartBeatInterval =
      b.collecting true (some ⟨0, false⟩) .read buf rsize input :=
  next_of_running hbroken rfl rfl

lemma next_waiting (hbroken : b.broken = false) :
    (b.collecting true none .waiting buf rsize input).next hashFunc heartBeatInterval =
      b.collecting false none .read buf rsize input :=
  next_of_running hbroken rfl rfl

/-- The call of `read` in a round, where the buffer is not full. -/
lemma networkReadTake_collecting {loop : Option ReadLoop} (hcalm : Calm input)
    (hlt : buf.length < rsize) :
    (∃ bs input', (b.collecting true loop .read buf rsize input).networkReadTake l =
        (if bs.length = rsize - buf.length then
          b.collecting true (some { l with received := true }) .read (buf ++ bs) rsize input'
        else b.collecting true none .parseCmd (buf ++ bs) rsize input') ∧
      bs ≠ [] ∧ bs.length ≤ rsize - buf.length ∧
      payload input = bs ++ payload input' ∧ Calm input' ∧ pending input' < pending input) ∨
    ∃ input', (b.collecting true loop .read buf rsize input).networkReadTake l =
        b.collecting true none (if l.received then .parseCmd else .waiting) buf rsize input' ∧
      payload input' = payload input ∧ Calm input' ∧ Advances input input' := by
  have havail : rsize - buf.length ≠ 0 := by omega
  rcases readSock_calm havail hcalm with ⟨bs, input', hread, hbs, hle, hpayload, hcalm', hlt'⟩ |
    ⟨input', hread, hpayload, hcalm', hlt'⟩
  · refine .inl ⟨bs, input', ?_, hbs, hle, hpayload, hcalm', hlt'⟩
    simp only [networkReadTake, collecting, hread, writeAt_writeAt, length_append]
  · refine .inr ⟨input', ?_, hpayload, hcalm', hlt'⟩
    simp only [networkReadTake, collecting, hread]

/-- A round doubles the buffer if it is full.  As it has at least 4096 bytes, it is never full after
two doublings in a call. -/
lemma next_round (hbroken : b.broken = false) (hrsize : 4096 * 2 ^ l.allocsCount ≤ rsize)
    (hle : buf.length ≤ rsize) (hmax : buf.length ≤ 8208) :
    ∃ l' rsize', (b.collecting true (some l) .read buf rsize input).next hashFunc heartBeatInterval =
        (b.collecting true (some l) .read buf rsize' input).networkReadTake l' ∧
      l'.received = l.received ∧ buf.length < rsize' ∧ 4096 * 2 ^ l'.allocsCount ≤ rsize' ∧
      ∀ n, buf.length ≤ n → grown rsize n = grown rsize' n := by
  have hnext : (b.collecting true (some l) .read buf rsize input).next hashFunc heartBeatInterval =
      (b.collecting true (some l) .read buf rsize input).networkRead l := by
    simp [next, collecting, hbroken]
  rw [hnext]
  by_cases hfull : rsize ≤ buf.length
  · have hpos : 0 < rsize := lt_of_lt_of_le (by positivity) hrsize
    have hallocs : ¬ 1 < l.allocsCount := by
      intro hlt
      have hpow : 2 ^ 2 ≤ 2 ^ l.allocsCount := Nat.pow_le_pow_right (by decide) hlt
      omega
    refine ⟨{ l with allocsCount := l.allocsCount + 1 }, rsize * 2, ?_, rfl, by omega, ?_, ?_⟩
    · exact (if_pos hfull).trans (if_neg hallocs)
    · dsimp only
      rw [pow_succ]
      omega
    · intro n hn
      exact grown_of_le hpos (hfull.trans hn)
  · exact ⟨l, rsize, if_neg hfull, rfl, by omega, hrsize, fun _ _ => rfl⟩

/-- **A call of `__network_read`** takes bytes until none are there, and leaves room in the buffer. -/
lemma networkRead_reaches (hbroken : b.broken = false) (hcalm : Calm input)
    (hreceived : l.received = true → buf ≠ []) (hrsize : 4096 * 2 ^ l.allocsCount ≤ rsize) (hle : buf.length ≤ rsize)
    (hmax : (buf ++ payload input).length ≤ 8208) :
    ∃ received buf' rsize' input',
      Reaches (next hashFunc heartBeatInterval) (b.collecting true (some l) .read buf rsize input)
        (b.collecting true none (if received then .parseCmd else .waiting) buf' rsize' input') ∧
      buf ++ payload input = buf' ++ payload input' ∧ (l.received = true → received = true) ∧
      (received = false → buf' = buf) ∧ (received = true → buf' ≠ []) ∧ Calm input' ∧ Advances input input' ∧
      buf.length ≤ buf'.length ∧ 4096 ≤ rsize' ∧ buf'.length < rsize' ∧
      ∀ n, buf'.length ≤ n → grown rsize n = grown rsize' n := by
  induction hpending : pending input using Nat.strong_induction_on generalizing buf rsize input l with
  | _ k ih =>
    have hbuf : buf.length ≤ 8208 := le_trans (by simp) hmax
    obtain ⟨l', rsize₁, hnext, hsame, hroom, hrsize₁, hgrown⟩ :=
      @next_round hashFunc heartBeatInterval b buf rsize input l hbroken hrsize hle hbuf
    have h4096 : 4096 ≤ rsize₁ := le_trans (Nat.le_mul_of_pos_right _ (by positivity)) hrsize₁
    rcases @networkReadTake_collecting b buf rsize₁ input l' (some l) hcalm hroom with
      ⟨bs, input', htake, hne, hbs, hpayload, hcalm', hlt⟩ | ⟨input', htake, hpayload, hcalm', hlt⟩
    · rw [htake] at hnext
      have hsome : buf ++ bs ≠ [] := append_ne_nil_of_right_ne_nil buf hne
      have happend : buf ++ payload input = buf ++ bs ++ payload input' := by
        rw [hpayload, append_assoc]
      have hlength : (buf ++ bs).length = buf.length + bs.length := length_append
      by_cases hfull : bs.length = rsize₁ - buf.length
      · -- the buffer is full, and the loop goes on
        rw [if_pos hfull] at hnext
        obtain ⟨received, buf', rsize', input'', hreach, happend', htrue, -, hsome', hcalm'', hprogress,
          hle', h4096', hroom', hgrown'⟩ := ih (pending input') (hpending ▸ hlt) hcalm'
            (l := ⟨l'.allocsCount, true⟩) (fun _ => hsome) hrsize₁ (by omega) (happend ▸ hmax) rfl
        obtain rfl := htrue rfl
        have hprogress' : pending input'' < pending input := lt_of_le_of_lt hprogress.1 hlt
        exact ⟨true, buf', rsize', input'', .head hnext hreach, happend.trans happend', fun _ => rfl,
          by simp, hsome', hcalm'', ⟨hprogress'.le, fun _ => hprogress'⟩, by omega, h4096', hroom',
          fun n hn => (hgrown n (by omega)).trans (hgrown' n hn)⟩
      · rw [if_neg hfull] at hnext
        exact ⟨true, buf ++ bs, rsize₁, input', .step hnext, happend, fun _ => rfl, by simp,
          fun _ => hsome, hcalm', ⟨hlt.le, fun _ => hlt⟩, by omega, h4096, by omega, fun n hn => hgrown n (by omega)⟩
    · rw [htake] at hnext
      rw [hsame] at hnext
      exact ⟨l.received, buf, rsize₁, input', .step hnext, by rw [hpayload], id, fun _ => rfl, hreceived,
        hcalm', hlt, le_rfl, h4096, hroom, hgrown⟩

/-! ### Parsing what has been collected -/

section

variable {running : Bool} {loop : Option ReadLoop} {state : TrackerConnState} {rest : List Byte}
    (hbuf : buf ++ rest = q.bytes) (hheader : sizeofHeader ≤ buf.length)
include hbuf hheader

lemma bodyLen_collecting :
    (b.collecting running loop state buf rsize input).bodyLen = q.body.length := by
  have h8 : 8 ≤ buf.length := le_trans (by decide) hheader
  have hfront : (buf ++ rest).take 8 = buf.take 8 := take_append_of_le_length h8
  have htake : buf.take 8 = toLittleEndian 8 q.body.length := by
    rw [← hfront, hbuf, ClientReq.bytes, ClientReq.header, append_assoc]
    exact take_left' (length_toLittleEndian ..)
  have hlt : q.body.length < 256 ^ 8 := lt_of_le_of_lt q.body_le (by decide)
  rw [bodyLen, collecting, readFront_writeAt h8, htake, littleEndian_toLittleEndian,
    Nat.mod_eq_of_lt hlt]

lemma cmdByte_collecting :
    (b.collecting running loop state buf rsize input).cmdByte = q.cmd.toByte := by
  have h8 : 8 < buf.length := lt_of_lt_of_le (by decide) hheader
  have hfront : (buf ++ rest)[8]? = buf[8]? := getElem?_append_left h8
  have hbyte : buf[8]? = some q.cmd.toByte := by
    rw [← hfront, hbuf, ClientReq.bytes, ClientReq.header, append_assoc,
      getElem?_append_right (length_toLittleEndian ..).le, length_toLittleEndian]
    rfl
  have hread : writeAt 0 buf b.rbuff 8 = (buf[8]?).getD (b.rbuff 8) := if_pos (Nat.zero_le _)
  exact hread.trans (by rw [hbyte, getD_some])

end

section

variable (hbroken : b.broken = false)
include hbroken

lemma next_parse :
    (b.collecting true none .parseCmd buf rsize input).next hashFunc heartBeatInterval =
      (b.collecting true none .parseCmd buf rsize input).parseProtocolCmd hashFunc heartBeatInterval :=
  next_of_running hbroken rfl rfl

lemma next_parse_incomplete {rest : List Byte} (hne : buf ≠ [])
    (hbuf : buf ++ rest = q.bytes) (hrest : rest ≠ []) :
    (b.collecting true none .parseCmd buf rsize input).next hashFunc heartBeatInterval =
      b.collecting true none .waiting buf rsize input := by
  have hlength := congrArg List.length hbuf
  rw [length_append, q.length_bytes] at hlength
  have hpos : 0 < rest.length := length_pos_iff.2 hrest
  have hsome : ¬ buf.length = 0 := mt length_eq_zero_iff.1 hne
  rw [next_parse hbroken]
  refine (if_neg hsome).trans ?_
  by_cases hheader : buf.length < sizeofHeader
  · exact if_pos hheader
  · have hbodyLen := @bodyLen_collecting b q buf rsize input true none .parseCmd rest hbuf (by omega)
    have hmax := q.body_le
    have hshort : ¬ q.body.length ≤ buf.length - sizeofHeader := by omega
    rw [hbodyLen]
    exact (if_neg hheader).trans ((if_neg (by omega)).trans (if_neg hshort))

/-- The end of a call of `__network_read` after which the connection waits for more. -/
lemma waits_reaches (received : Bool) (hparse : received = true →
      (b.collecting true none .parseCmd buf rsize input).next hashFunc heartBeatInterval =
        b.collecting true none .waiting buf rsize input) :
    Reaches (next hashFunc heartBeatInterval)
      (b.collecting true none (if received then .parseCmd else .waiting) buf rsize input)
      (b.collecting false none .read buf rsize input) := by
  cases received with
  | false => exact .step (next_waiting hbroken)
  | true => exact .head (hparse rfl) (.step (next_waiting hbroken))

/-- **Collecting a request.**  However the bytes of a request come in, the connection gets to parse the
whole request. -/
lemma collect_reaches (hcalm : Calm input) (hrsize : 4096 ≤ rsize)
    (hroom : buf.length < rsize) (hbuf : buf ++ payload input = q.bytes)
    (hincomplete : payload input ≠ []) :
    ∃ input', payload input' = [] ∧ Calm input' ∧
      Reaches (next hashFunc heartBeatInterval) (b.collecting false none .read buf rsize input)
        (b.collecting true none .parseCmd q.bytes (grown rsize q.bytes.length) input') := by
  induction hpending : pending input using Nat.strong_induction_on generalizing buf rsize input with
  | _ k ih =>
    have hne : input ≠ [] := by
      rintro rfl
      exact hincomplete rfl
    obtain ⟨received, buf', rsize', input', hreach, happend, -, hsame, hsome, hcalm', hprogress, hle,
      hrsize', hroom', hgrown⟩ := @networkRead_reaches hashFunc heartBeatInterval b buf rsize input
        ⟨0, false⟩ hbroken hcalm (by simp) (by simpa using hrsize) hroom.le (hbuf ▸ q.length_bytes_le)
    have hlt : pending input' < k := hpending ▸ hprogress.2 hne
    have hcall : Reaches (next hashFunc heartBeatInterval)
        (b.collecting false none .read buf rsize input)
        (b.collecting true none (if received then .parseCmd else .waiting) buf' rsize' input') :=
      .head (next_idle hbroken hne) (.head (next_read hbroken) hreach)
    have hbuf' : buf' ++ payload input' = q.bytes := happend.symm.trans hbuf
    by_cases hcomplete : payload input' = []
    · -- the request is complete
      have hbytes : buf' = q.bytes := by rw [← hbuf', hcomplete, append_nil]
      have hreceived : received = true := by
        by_contra hfalse
        rw [hsame (by simpa using hfalse), hcomplete, append_cancel_left_eq] at happend
        exact hincomplete happend
      have hgrown' : grown rsize q.bytes.length = rsize' := by
        rw [hbytes] at hgrown hroom'
        rw [hgrown _ le_rfl, grown_of_lt hroom']
      refine ⟨input', hcomplete, hcalm', ?_⟩
      rw [hreceived, if_pos rfl, hbytes, ← hgrown'] at hcall
      exact hcall
    · -- the connection waits for the rest
      obtain ⟨input'', hpayload, hcalm'', hrest⟩ :=
        ih _ hlt hcalm' hrsize' hroom' hbuf' hcomplete rfl
      refine ⟨input'', hpayload, hcalm'', ?_⟩
      have hgrown' : grown rsize q.bytes.length = grown rsize' q.bytes.length := by
        refine hgrown _ ?_
        rw [← hbuf', length_append]
        exact Nat.le_add_right ..
      rw [hgrown']
      exact hcall.trans
        ((waits_reaches hbroken received fun hr =>
          next_parse_incomplete hbroken (hsome hr) hbuf' hcomplete).trans hrest)

lemma drain_reaches (hcalm : Calm input) (hrsize : 4096 ≤ rsize) (hpayload : payload input = []) :
    Reaches (next hashFunc heartBeatInterval) (b.collecting false none .read [] rsize input)
      (b.collecting false none .read [] rsize []) := by
  induction hpending : pending input using Nat.strong_induction_on generalizing input with
  | _ k ih =>
    rcases eq_or_ne input [] with rfl | hne
    · exact .refl ..
    obtain ⟨received, buf, rsize', input', hreach, happend, -, -, hsome, hcalm', hprogress, -, hrsize',
      -, hgrown⟩ := @networkRead_reaches hashFunc heartBeatInterval b [] rsize input ⟨0, false⟩
        hbroken hcalm (by simp) (by simpa using hrsize) (by simp) (by simp [hpayload])
    rw [nil_append, hpayload] at happend
    obtain ⟨rfl, hpayload'⟩ := append_eq_nil_iff.1 happend.symm
    -- nothing has been read, so the buffer has not grown
    have hsame := hgrown 0 le_rfl
    rw [grown_of_lt (by omega), grown_of_lt (by omega)] at hsame
    subst hsame
    have hrest := ih _ (hpending ▸ hprogress.2 hne) hcalm' hpayload' rfl
    exact .head (next_idle hbroken hne) (.head (next_read hbroken) (hreach.trans
      ((waits_reaches hbroken received fun hr => absurd rfl (hsome hr)).trans hrest)))

end

/-! ### Dispatching a request -/

/-- The connection `b` when it dispatches the request `q`. -/
def dispatching (b : TrackerConn) (q : ClientReq) (input : List ReadEv) : TrackerConn :=
  { b.collecting true none .parseCmd q.bytes (grown b.rsize q.bytes.length) input with
    rbytes := q.body.length
    rcurr := sizeofHeader
    dispatched := b.dispatched ++ [q.entry] }

/-- At `rcurr` there is the body, and behind it what was in the buffer before. -/
lemma rbuffAt_rcurr (hrsize : 0 < b.rsize) :
    (b.collecting true none .parseCmd q.bytes (grown b.rsize q.bytes.length) input).rbuffAt
        sizeofHeader (grown b.rsize q.bytes.length - sizeofHeader) = q.body ++ b.behind q := by
  have hlength := q.length_bytes
  have hlt : q.bytes.length < grown b.rsize q.bytes.length := (grown_spec hrsize).2
  have hsplit : grown b.rsize q.bytes.length - sizeofHeader =
      q.bytes.length - sizeofHeader + (grown b.rsize q.bytes.length - q.bytes.length) := by omega
  have hdrop : q.bytes.drop sizeofHeader = q.body := drop_left' q.length_header
  rw [rbuffAt, hsplit]
  exact (readFront_writeAt_shift (by omega) _).trans (by rw [hdrop, behind])

lemma rbuffAt_body :
    (b.collecting true none .parseCmd q.bytes (grown b.rsize q.bytes.length) input).rbuffAt
        sizeofHeader q.body.length = q.body := by
  have hlength := q.length_bytes
  have hdrop : q.bytes.drop sizeofHeader = q.body := drop_left' q.length_header
  have hbody : q.body.length = q.bytes.length - sizeofHeader + 0 := by omega
  rw [rbuffAt, hbody]
  exact (readFront_writeAt_shift (by omega) 0).trans (by rw [hdrop]; simp [readFront])

lemma next_parse_complete (hbroken : b.broken = false) :
    (b.collecting true none .parseCmd q.bytes (grown b.rsize q.bytes.length) input).next hashFunc
        heartBeatInterval = (b.dispatching q input).dispatchCmd hashFunc heartBeatInterval := by
  set c := b.collecting true none .parseCmd q.bytes (grown b.rsize q.bytes.length) input with hc
  have hlength := q.length_bytes
  have hmax := q.body_le
  have hbytes : q.bytes ++ [] = q.bytes := append_nil _
  have hbodyLen : c.bodyLen = q.body.length := bodyLen_collecting hbytes (by omega)
  have hcmd : c.cmdByte = q.cmd.toByte := cmdByte_collecting hbytes (by omega)
  have hrbytes : c.rbytes - sizeofHeader = q.body.length := by
    have hrbytes : c.rbytes = q.bytes.length := rfl
    omega
  have hheader : ¬ c.rbytes < sizeofHeader := by
    have hrbytes : c.rbytes = q.bytes.length := rfl
    omega
  have hsome : ¬ c.rbytes = 0 := fun h => hheader (h ▸ by decide)
  rw [next_parse hbroken, parseProtocolCmd, if_neg hsome, if_neg hheader, hbodyLen, if_neg (by omega),
    hrbytes, if_pos le_rfl]
  have hentry : (c.cmdByte, c.rbuffAt sizeofHeader q.body.length) = q.entry := by
    rw [hcmd, hc, rbuffAt_body, ClientReq.entry]
  have hdispatched : c.dispatched ++ [(c.cmdByte, c.rbuffAt sizeofHeader q.body.length)] =
      b.dispatched ++ [q.entry] := by
    rw [hentry]
    rfl
  exact congrArg (dispatchCmd hashFunc heartBeatInterval) (by
    rw [dispatching, ← hdispatched]
    rfl)

/-! ### Sending the response -/

/-- The connection `w` after the rest of its response has been sent. -/
def finished (w : TrackerConn) (writes : List WriteRes) : TrackerConn :=
  { w.connReset with
    state := .read
    writeto := .waiting
    running := false
    eventFlags := .read
    writes := writes
    sent := w.sent ++ readFront (w.wbytes - w.wused) fun a => w.wbuff (w.wused + a) }

lemma finished_wrote {n : ℕ} (hn : w.wused + n ≤ w.wbytes) (writes writes' : List WriteRes) :
    finished { w.wrote n with writes := writes } writes' = w.finished writes' := by
  have hsplit : w.wbytes - w.wused = n + (w.wbytes - (w.wused + n)) := by omega
  have hsent : w.sent ++ readFront n (fun a => w.wbuff (w.wused + a)) ++
      readFront (w.wbytes - (w.wused + n)) (fun a => w.wbuff (w.wused + n + a)) =
        w.sent ++ readFront (w.wbytes - w.wused) fun a => w.wbuff (w.wused + a) := by
    rw [hsplit, readFront_add, append_assoc]
    simp only [add_assoc]
  simp only [finished, wrote, connReset, hsent]

structure Sending (w : TrackerConn) : Prop where
  state : w.state = .write
  running : w.running = true
  loop : w.loop = none
  broken : w.broken = false
  wused_le : w.wused ≤ w.wbytes

lemma Sending.next_eq (h : w.Sending) :
    w.next hashFunc heartBeatInterval = w.networkWriteNoblock := by
  rw [next_of_running h.broken h.running h.loop, stateMachine, h.state]

lemma Sending.reaches_of_done (h : w.Sending) (hdone : w.wused = w.wbytes) :
    Reaches (next hashFunc heartBeatInterval) w (w.finished w.writes) := by
  have hstep : w.next hashFunc heartBeatInterval =
      { w with writeto := .waiting, state := .waiting }.connReset := by
    rw [h.next_eq, networkWriteNoblock]
    exact if_neg (by omega)
  have hwaiting : ({ w with writeto := .waiting, state := .waiting }.connReset).next hashFunc
      heartBeatInterval = w.finished w.writes := by
    rw [next_of_running (by exact h.broken) (by exact h.running) (by exact h.loop)]
    simp [stateMachine, connReset, finished, hdone, readFront]
  exact .head hstep (.step hwaiting)

lemma Sending.next_write (h : w.Sending) (hlt : w.wused < w.wbytes)
    {r : WriteRes} {writes : List WriteRes} (hwrites : w.writes = r :: writes) :
    w.next hashFunc heartBeatInterval = match r with
      | .wrote n => { w.wrote (min (max n 1) (w.wbytes - w.wused)) with writes := writes }
      | .again => { w with writes := writes, eventFlags := .write, running := false }
      | .error => { w with writes := writes } := by
  rw [h.next_eq, networkWriteNoblock]
  simp only [hwrites]
  rw [if_pos (by omega)]
  cases r <;> rfl

/-- **Sending a response.**  However much the calls of `write` take, the whole response is sent. -/
lemma Sending.reaches (h : w.Sending) :
    ∃ writes, Reaches (next hashFunc heartBeatInterval) w (w.finished writes) := by
  induction hwrites : w.writes generalizing w with
  | nil =>
    rcases h.wused_le.eq_or_lt with hdone | hlt
    · exact ⟨_, h.reaches_of_done hdone⟩
    -- the next call takes everything
    set k := w.wbytes - w.wused with hk
    have hstep : w.next hashFunc heartBeatInterval = w.wrote k := by
      rw [h.next_eq, networkWriteNoblock]
      simp only [hwrites]
      exact if_pos (by omega)
    have hused : (w.wrote k).wused = (w.wrote k).wbytes := by
      simp only [wrote]
      omega
    have hsending : (w.wrote k).Sending := ⟨h.state, h.running, h.loop, h.broken, hused.le⟩
    have hfinished : (w.wrote k).finished w.writes = w.finished w.writes :=
      finished_wrote (by omega) w.writes w.writes
    have hrest : Reaches (next hashFunc heartBeatInterval) (w.wrote k) (w.finished w.writes) :=
      hfinished ▸ hsending.reaches_of_done hused
    exact ⟨w.writes, .head hstep hrest⟩
  | cons r writes ih =>
    rcases h.wused_le.eq_or_lt with hdone | hlt
    · exact ⟨_, h.reaches_of_done hdone⟩
    have hnext := @next_write hashFunc heartBeatInterval w h hlt r writes hwrites
    cases r with
    | wrote n =>
      set k := min (max n 1) (w.wbytes - w.wused) with hk
      have hsending : Sending { w.wrote k with writes := writes } :=
        ⟨h.state, h.running, h.loop, h.broken, by simp only [wrote]; omega⟩
      obtain ⟨writes', hreach⟩ := ih hsending rfl
      rw [finished_wrote (by omega)] at hreach
      exact ⟨writes', .head hnext hreach⟩
    | again =>
      -- the connection waits until the socket is writable
      have hsending : Sending { w with writes := writes, eventFlags := .write } :=
        ⟨h.state, h.running, h.loop, h.broken, h.wused_le⟩
      have hevent : TrackerConn.next hashFunc heartBeatInterval
          { w with writes := writes, eventFlags := .write, running := false } =
            { w with writes := writes, eventFlags := .write } := by
        simp [next, event, h.broken, h.state, h.running]
      obtain ⟨writes', hreach⟩ := ih hsending rfl
      exact ⟨writes', .head hnext (.head hevent hreach)⟩
    | error =>
      have hsending : Sending { w with writes := writes } :=
        ⟨h.state, h.running, h.loop, h.broken, h.wused_le⟩
      obtain ⟨writes', hreach⟩ := ih hsending rfl
      exact ⟨writes', .head hnext hreach⟩

/-! ### One request -/

lemma eq_collecting (hstate : c.state = .read) (hrunning : c.running = false) (hloop : c.loop = none)
    (hflags : c.eventFlags = .read) (hrcurr : c.rcurr = 0) (hrbytes : c.rbytes = 0) :
    c = c.collecting false none .read [] c.rsize c.input := by
  have hrbuff : writeAt 0 [] c.rbuff = c.rbuff := by
    funext a
    simp [writeAt]
  cases c
  simp_all [collecting]

lemma Resting.reaches_dispatch (h : c.Resting) (q : ClientReq) :
    ∃ input, payload input = [] ∧ Calm input ∧ Reaches (next hashFunc heartBeatInterval) (c.receive q)
      (((c.receive q).dispatching q input).dispatchCmd hashFunc heartBeatInterval) := by
  have hne : payload q.input ≠ [] := by
    rw [q.delivered]
    simp
  have hroom : ([] : List Byte).length < c.rsize := lt_of_lt_of_le (by decide) h.le_rsize
  obtain ⟨input, hpayload, hcalm, hreach⟩ := @collect_reaches hashFunc heartBeatInterval (c.receive q)
    q [] c.rsize q.input h.broken q.calm h.le_rsize hroom q.delivered hne
  have hidle : c.receive q = (c.receive q).collecting false none .read [] c.rsize q.input :=
    eq_collecting h.state h.running h.loop h.eventFlags h.rcurr h.rbytes
  rw [← hidle] at hreach
  exact ⟨input, hpayload, hcalm, hreach.trans (.step (next_parse_complete h.broken))⟩

lemma handled_dispatching (hrsize : 0 < c.rsize) :
    ((TrackerCmd.ofByte ((c.receive q).dispatching q input).cmdByte).bind fun cmd =>
        q.cluster.dispatchCmd hashFunc heartBeatInterval q.now q.draws cmd
          (((c.receive q).dispatching q input).rbuffAt sizeofHeader
            (grown c.rsize q.bytes.length - sizeofHeader))) =
      c.handled hashFunc heartBeatInterval q := by
  have hlength := q.length_bytes
  have hcmd : ((c.receive q).dispatching q input).cmdByte = q.cmd.toByte :=
    @cmdByte_collecting (c.receive q) q q.bytes (grown c.rsize q.bytes.length) input true none
      .parseCmd [] (append_nil _) (by omega)
  have hreq : ((c.receive q).dispatching q input).rbuffAt sizeofHeader
      (grown c.rsize q.bytes.length - sizeofHeader) = q.body ++ c.behind q :=
    @rbuffAt_rcurr (c.receive q) q input hrsize
  rw [hcmd, TrackerCmd.ofByte_toByte, hreq]
  rfl

lemma dispatchCmd_dispatching (hrsize : 0 < c.rsize) :
    ((c.receive q).dispatching q input).dispatchCmd hashFunc heartBeatInterval =
      match c.handled hashFunc heartBeatInterval q with
      | none => { (c.receive q).dispatching q input with broken := true }
      | some h =>
        if h.Fits c.wsize then
          { (c.receive q).dispatching q input with
            cluster := h.state
            wbuff := writeAll h.reply.stores c.wbuff
            wbytes := h.reply.wbytes
            state := if h.closes then .closed else .write }
        else { (c.receive q).dispatching q input with broken := true } := by
  rw [← @handled_dispatching hashFunc heartBeatInterval c q input hrsize]
  rfl

lemma Resting.answers (h : c.Resting)
    (hh : c.handled hashFunc heartBeatInterval q = some hd) (hfits : hd.Fits c.wsize)
    (hcloses : hd.closes = false) :
    ∃ c', Settles (next hashFunc heartBeatInterval) (c.receive q) c' ∧ c'.Resting ∧
      c'.wsize = c.wsize ∧ c'.dispatched = c.dispatched ++ [q.entry] ∧ c'.cluster = hd.state ∧
      c'.sent = c.sent ++ hd.reply.response c.wbuff := by
  obtain ⟨input, hpayload, hcalm, hreach⟩ := @reaches_dispatch hashFunc heartBeatInterval c h q
  have hpos : 0 < c.rsize := lt_of_lt_of_le (by decide) h.le_rsize
  set w : TrackerConn :=
    { (c.receive q).dispatching q input with
      cluster := hd.state
      wbuff := writeAll hd.reply.stores c.wbuff
      wbytes := hd.reply.wbytes
      state := .write } with hw
  have hdispatch : ((c.receive q).dispatching q input).dispatchCmd hashFunc heartBeatInterval = w := by
    rw [dispatchCmd_dispatching hpos, hh]
    simp only [if_pos hfits, hcloses, hw]
    rfl
  have hsending : w.Sending := ⟨rfl, rfl, rfl, h.broken, h.wused.le.trans (Nat.zero_le _)⟩
  obtain ⟨writes, hsent⟩ := @Sending.reaches hashFunc heartBeatInterval w hsending
  set f := w.finished writes with hf
  have hrsize : 4096 ≤ f.rsize := h.le_rsize.trans (grown_spec hpos).1
  have hidle : f = f.collecting false none .read [] f.rsize input :=
    eq_collecting rfl rfl rfl rfl rfl rfl
  have hdrain : Reaches (next hashFunc heartBeatInterval)
      (f.collecting false none .read [] f.rsize input)
      (f.collecting false none .read [] f.rsize []) := drain_reaches h.broken hcalm hrsize hpayload
  rw [← hidle] at hdrain
  refine ⟨f.collecting false none .read [] f.rsize [], ⟨?_, next_idle_nil h.broken⟩, ?_, rfl, rfl, rfl,
    ?_⟩
  · rw [hdispatch] at hreach
    exact (hreach.trans hsent).trans hdrain
  · exact ⟨rfl, rfl, rfl, rfl, rfl, rfl, rfl, rfl, rfl, h.broken, hrsize, h.wsize_lt⟩
  · have hused : w.wused = 0 := h.wused
    have hfsent : (f.collecting false none .read [] f.rsize []).sent =
        w.sent ++ readFront (w.wbytes - w.wused) fun a => w.wbuff (w.wused + a) := rfl
    rw [hfsent, hused]
    simp only [zero_add]
    rfl

lemma Resting.breaks (h : c.Resting) (hset : Settles (next hashFunc heartBeatInterval) (c.receive q) c')
    (hundefined : ∀ hd, c.handled hashFunc heartBeatInterval q = some hd → ¬ hd.Fits c.wsize) :
    c'.state = .parseCmd := by
  obtain ⟨input, -, -, hreach⟩ := @reaches_dispatch hashFunc heartBeatInterval c h q
  have hpos : 0 < c.rsize := lt_of_lt_of_le (by decide) h.le_rsize
  have hbroken : ((c.receive q).dispatching q input).dispatchCmd hashFunc heartBeatInterval =
      { (c.receive q).dispatching q input with broken := true } := by
    rw [dispatchCmd_dispatching hpos]
    cases hh : c.handled hashFunc heartBeatInterval q with
    | none => rfl
    | some hd => exact if_neg (hundefined hd hh)
  rw [hbroken] at hreach
  have hstuck : Settles (next hashFunc heartBeatInterval) (c.receive q)
      { (c.receive q).dispatching q input with broken := true } := ⟨hreach, if_pos rfl⟩
  rw [hset.unique hstuck]
  rfl

lemma whole_response (hh : c.handled hashFunc heartBeatInterval q = some hd)
    (htest : q.cmd ≠ .test) (hquit : q.cmd ≠ .quited) (hwbytes : hd.reply.wbytes < 2 ^ 31)
    (wbuff : ℕ → Byte) : Whole (hd.reply.response wbuff) := by
  obtain ⟨n, hn⟩ :=
    ClusterState.announces_dispatchCmd hh htest (ClusterState.closes_dispatchCmd hh hquit)
  have hlt : n < 256 ^ 8 := by
    have hle := hn.wbytes
    omega
  rw [Whole, hn.take_response, littleEndian_toLittleEndian, Nat.mod_eq_of_lt hlt, ← hn.wbytes]
  exact length_readFront

lemma not_whole_test (hh : c.handled hashFunc heartBeatInterval q = some hd)
    (htest : q.cmd = .test) (wbuff : ℕ → Byte) : ¬ Whole (hd.reply.response wbuff) := by
  rw [handled, htest] at hh
  obtain rfl := some.inj hh
  intro hwhole
  have hlength : 8 = sizeofHeader + _ := hwhole
  rw [sizeofHeader] at hlength
  omega

/-! ### A session -/

/-- What a request needs to be answered, and what the connection is then. -/
lemma Resting.answered_iff (h : c.Resting) (hquit : q.cmd ≠ .quited) :
    (∃ c', Settles (next hashFunc heartBeatInterval) (c.receive q) c' ∧
        Answered hashFunc heartBeatInterval c q c') ↔ c.Servable hashFunc heartBeatInterval q := by
  constructor
  · rintro ⟨c', hset, hanswered⟩
    obtain ⟨hd, hh, -, -, hwhole⟩ := hanswered.response
    refine ⟨fun htest => not_whole_test hh htest _ hwhole, hd, hh, ?_⟩
    by_contra hfits
    have hstate : c'.state = .parseCmd := by
      refine h.breaks hset fun hd' hh' => ?_
      rwa [← some.inj (hh.symm.trans hh')]
    exact absurd (hanswered.state.symm.trans hstate) (by decide)
  · rintro ⟨htest, hd, hh, hfits⟩
    obtain ⟨c', hset, hresting, -, hdispatched, hcluster, hsent⟩ :=
      h.answers hh hfits (ClusterState.closes_dispatchCmd hh hquit)
    have hwhole := whole_response hh htest hquit (lt_of_le_of_lt hfits.wbytes h.wsize_lt) c.wbuff
    exact ⟨c', hset, hdispatched, hresting.state, hresting.rbytes, hd, hh, hcluster, hsent, hwhole⟩

lemma Resting.settled (h : c.Resting) (hquit : q.cmd ≠ .quited)
    (hserv : c.Servable hashFunc heartBeatInterval q)
    (hset : Settles (next hashFunc heartBeatInterval) (c.receive q) c') : c'.Resting := by
  obtain ⟨-, hd, hh, hfits⟩ := hserv
  obtain ⟨c'', hset', hresting, -⟩ := h.answers hh hfits (ClusterState.closes_dispatchCmd hh hquit)
  rwa [hset.unique hset']

/-- **A session.**  From a connection at rest, the requests are answered one after the other exactly if
each of them is servable when it is received. -/
lemma Resting.serves_iff {qs : List ClientReq} (hquit : ∀ q ∈ qs, q.cmd ≠ .quited) (h : c.Resting) :
    Serves hashFunc heartBeatInterval c qs ↔ AllServable hashFunc heartBeatInterval c qs := by
  induction qs generalizing c with
  | nil => exact Iff.rfl
  | cons q qs ih =>
    have hq := hquit q mem_cons_self
    have hqs : ∀ q ∈ qs, q.cmd ≠ .quited := fun q' hq' => hquit q' (mem_cons_of_mem q hq')
    constructor
    · rintro ⟨c', hset, hanswered, hserves⟩
      have hserv := (h.answered_iff hq).1 ⟨c', hset, hanswered⟩
      refine ⟨hserv, fun c'' hset' => ?_⟩
      rw [hset'.unique hset]
      exact (ih hqs (h.settled hq hserv hset)).1 hserves
    · rintro ⟨hserv, hall⟩
      obtain ⟨c', hset, hanswered⟩ := (h.answered_iff hq).2 hserv
      exact ⟨c', hset, hanswered, (ih hqs (h.settled hq hserv hset)).2 (hall c' hset)⟩

lemma resting_connNew {size : ℕ} (hle : 4096 ≤ size) (hlt : size < 2 ^ 31) (rbuff wbuff : ℕ → Byte) :
    (connNew size rbuff wbuff).Resting where
  state := rfl
  running := rfl
  loop := rfl
  eventFlags := rfl
  rcurr := rfl
  rbytes := rfl
  wbytes := rfl
  wused := rfl
  input := rfl
  broken := rfl
  le_rsize := hle
  wsize_lt := hlt

/-- **The framing of a tracker.**  A new connection answers the requests of a client that waits for
each response, with one command dispatched at the body of each request and `conn_read` with nothing in
the read buffer after the whole response, exactly if none of them is a test and the handler of each
reads no freed memory and stores nothing behind the write buffer. -/
theorem serves_iff_allServable {size : ℕ} (hle : 4096 ≤ size) (hlt : size < 2 ^ 31)
    (rbuff wbuff : ℕ → Byte) (hashFunc : List Byte → UInt32) (heartBeatInterval : ℤ)
    (qs : List ClientReq) (hquit : ∀ q ∈ qs, q.cmd ≠ .quited) :
    Serves hashFunc heartBeatInterval (connNew size rbuff wbuff) qs ↔
      AllServable hashFunc heartBeatInterval (connNew size rbuff wbuff) qs :=
  (resting_connNew hle hlt rbuff wbuff).serves_iff hquit

/-- A request without a body to a tracker that knows no data server, which arrives in one piece. -/
def bareReq (cmd : TrackerCmd) : ClientReq where
  cmd := cmd
  state := 0
  padding := List.replicate 6 0
  body := []
  input := [.data (toLittleEndian 8 0 ++ (cmd.toByte :: 0 :: List.replicate 6 0))]
  writes := []
  cluster := .start
  now := 0
  draws := 0
  padding_length := rfl
  body_le := Nat.zero_le _
  calm := by simp [Calm]
  delivered := rfl

/-- The request of a client that asks for a server to write to, in two pieces. -/
def cutReq : ClientReq :=
  { bareReq .writeTrackerReq with
    input := [.data (toLittleEndian 8 0), .again,
      .data (TrackerCmd.writeTrackerReq.toByte :: 0 :: List.replicate 6 0)]
    calm := by simp [Calm]
    delivered := rfl }

/-- A tracker without data servers answers the request, and the next one. -/
theorem serves_writeTracker_twice : Serves (fun _ => 0) 30 (connNew 4096 (fun _ => 0) fun _ => 0)
      [cutReq, bareReq .writeTrackerReq] := by
  refine (serves_iff_allServable le_rfl (by decide) _ _ _ 30 _ (by decide)).2
    ⟨⟨by decide, _, rfl, by decide⟩, fun c' hset => ⟨⟨by decide, _, rfl, ?_⟩, fun _ _ => trivial⟩⟩
  have hresting : Resting (connNew 4096 (fun _ => 0) fun _ => 0) :=
    resting_connNew le_rfl (by decide) _ _
  obtain ⟨c'', hset', -, hwsize, -⟩ := hresting.answers (q := cutReq) rfl (by decide) rfl
  rw [hset.unique hset', hwsize]
  decide

/-- Eight bytes are sent to a client that has sent a test, and it waits for sixteen. -/
theorem not_serves_test :
    ¬ Serves (fun _ => 0) 30 (connNew 4096 (fun _ => 0) fun _ => 0) [bareReq .test] := by
  rintro ⟨c', -, hanswered, -⟩
  obtain ⟨hd, hh, -, -, hwhole⟩ := hanswered.response
  exact not_whole_test hh rfl _ hwhole

end TrackerConn

end Lfs.Tracker
