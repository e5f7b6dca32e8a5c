/-
How a dataserver takes its requests from the socket.

The kernel hands out the stream of a client in segments: a `read` takes at most what is left of
the current segment, and after the end of a segment comes `EAGAIN`.  Here all the other calls
succeed, so the connection machinery runs by itself (`Conn.next`).  `__network_read_header`
asks for 16 bytes also when a part of the header is there; what it reads past the header counts
as body, and if this is the whole body or more, the request is never dispatched.
-/
import Lfs.Server.Machine
import Lfs.Lib.Reach
import Lfs.Lib.Segments

namespace Lfs.Server

open Lfs.Lib List

/-- The input of a socket to which the kernel delivers `segs`. -/
def delivered (segs : List (List Byte)) : List ReadEv := segs.flatMap fun s => [.data s, .again]

lemma readSock_delivered {n : ℕ} (hn : n ≠ 0) {s : List Byte} (hs : s ≠ [])
    (segs : List (List Byte)) :
    readSock (some n) (delivered (s :: segs)) =
      (.bytes (s.take n), delivered (s.drop n :: segs)) := by
  rw [readSock, if_neg (by simpa using hn)]
  cases s with
  | nil => exact absurd rfl hs
  | cons b s => rfl

namespace Conn

def actor (c : Conn) : Actor :=
  if c.dioq ≠ 0 then .dio else if c.cq ≠ 0 then .cq else .nio

/-- The next step of a connection when every call succeeds. -/
def next (c : Conn) : Conn := c.step (.ok c.actor)

/-- The connection `b` before a request has been dispatched, with `buf` in its read buffer. -/
def reading (b : Conn) (running : Bool) (loop : Loop) (state : ConnState) (buf : List Byte)
    (segs : List (List Byte)) : Conn :=
  { b with
    state := state
    running := running
    loop := loop
    registered := true
    eventFlags := .read
    dioq := 0
    cq := 0
    rbuff := buf
    rcurr := 0
    rbytes := buf.length
    allocCount := 0
    wbytes := 0
    wused := 0
    input := delivered segs }

/-- The connection waits for its socket. -/
def idle (b : Conn) (buf : List Byte) (segs : List (List Byte)) : Conn :=
  b.reading false .none .read buf segs

/-- The connection looks for a request in its read buffer. -/
def parsing (b : Conn) (buf : List Byte) (segs : List (List Byte)) : Conn :=
  b.reading true .none .parseCmd buf segs

variable {b c : Conn} {buf s : List Byte} {segs : List (List Byte)}

/-! ### Single steps -/

lemma next_of_nio (hdio : c.dioq = 0) (hcq : c.cq = 0) :
    c.next = if c.running then c.nioRunning (.ok .nio) else c.nioIdle (.ok .nio) := by
  have hactor : c.actor = .nio := by simp [actor, hdio, hcq]
  rw [next, hactor]
  rfl

lemma next_of_running (hdio : c.dioq = 0) (hcq : c.cq = 0) (hrun : c.running = true) :
    c.next = c.nioRunning (.ok .nio) := (next_of_nio hdio hcq).trans (if_pos hrun)

lemma stateMachine_of_read {env : StepEnv} (hloop : c.loop = .none) (hstate : c.state = .read) :
    c.nioRunning env = c.networkRead := by
  rw [nioRunning, hloop]
  dsimp only
  rw [stateMachine, hstate]

lemma next_waiting : (b.reading true .none .waiting buf segs).next = b.idle buf segs := rfl

lemma next_idle_nil : (b.idle buf []).next = b.idle buf [] := rfl

lemma idle_skip : Reaches next (b.idle buf ([] :: segs)) (b.idle buf segs) := ⟨2, rfl⟩

lemma next_idle (hs : s ≠ []) :
    (b.idle buf (s :: segs)).next = b.reading true .none .read buf (s :: segs) := by
  cases s with
  | nil => exact absurd rfl hs
  | cons x s => rfl

lemma networkRead_of_lt (h : c.rbytes < headerSize) : c.networkRead = { c with loop := .header } :=
  if_pos h

lemma networkRead_of_le (h : headerSize ≤ c.rbytes) (hlen : c.bodyLenInt ≤ maxPackageDataSize) :
    c.networkRead = { c with loop := .body } := by
  rw [networkRead, if_neg (not_lt.2 h), if_neg (not_lt.2 hlen)]

lemma networkRead_of_overflow (h : headerSize ≤ c.rbytes)
    (hlen : (maxPackageDataSize : ℤ) < c.bodyLenInt) :
    c.networkRead = (c.respHeader .errorPackagesizeOverflow).networkReadEnd .softError := by
  rw [networkRead, if_neg (not_lt.2 h), if_pos hlen]

lemma next_read : (b.reading true .none .read buf segs).next =
    (b.reading true .none .read buf segs).networkRead :=
  (next_of_running rfl rfl rfl).trans (stateMachine_of_read rfl rfl)

lemma next_read_header (h : buf.length < headerSize) :
    (b.reading true .none .read buf segs).next = b.reading true .header .read buf segs := by
  rw [next_read, networkRead_of_lt h]
  rfl

lemma next_header_nil :
    (b.reading true .header .read buf ([] :: segs)).next = b.reading true .none .waiting buf segs :=
  rfl

/-- A round of one of the two loops that takes `n` bytes, if so many are there. -/
lemma networkReadTook_reading {loop : Loop} {n : ℕ} {total : ℕ} (hn : n ≠ 0) (hs : s ≠ []) :
    (b.reading true loop .read buf (s :: segs)).networkReadTook total
        (readSock (some n) (delivered (s :: segs))) =
      if buf.length + min n s.length = total then
        b.parsing (buf ++ s.take n) (s.drop n :: segs)
      else b.reading true loop .read (buf ++ s.take n) (s.drop n :: segs) := by
  have hstore : { (b.reading true loop .read buf (s :: segs)).store (s.take n) with
      input := delivered (s.drop n :: segs) } =
        b.reading true loop .read (buf ++ s.take n) (s.drop n :: segs) := by
    simp [reading, store]
  rw [readSock_delivered hn hs]
  simp only [networkReadTook, length_take, Nat.cast_inj, hstore]
  rfl

lemma next_header (b : Conn) (buf : List Byte) (segs : List (List Byte)) (hs : s ≠ []) :
    (b.reading true .header .read buf (s :: segs)).next =
      if buf.length + min headerSize s.length = headerSize then
        b.parsing (buf ++ s.take headerSize) (s.drop headerSize :: segs)
      else b.reading true .header .read (buf ++ s.take headerSize) (s.drop headerSize :: segs) :=
  networkReadTook_reading (by decide) hs

/-! ### The length of the body -/

/-- The length that the header at the front of the read buffer announces. -/
def announced (buf : List Byte) : ℕ := littleEndian ((buf ++ List.replicate 8 0).take 8)

lemma announced_append {x : List Byte} (h : headerSize ≤ buf.length) :
    announced (buf ++ x) = announced buf := by
  have h8 : 8 ≤ buf.length := le_trans (by decide) h
  rw [announced, announced, append_assoc, take_append_of_le_length h8, take_append_of_le_length h8]

lemma bodyLen_eq (c : Conn) : c.bodyLen = announced c.rbuff := by
  rw [bodyLen, bytesAt, drop_zero, announced]

/-- Bytes that are stored behind the header leave its length alone. -/
lemma bodyLen_store (hheader : headerSize ≤ c.rcurr + c.rbytes)
    (hrbuff : c.rcurr + c.rbytes ≤ c.rbuff.length) (bs : List Byte) : (c.store bs).bodyLen = c.bodyLen := by
  have hlen : headerSize ≤ (c.rbuff.take (c.rcurr + c.rbytes)).length := by
    rw [length_take]
    omega
  rw [bodyLen_eq, bodyLen_eq, store, announced_append hlen]
  conv_rhs => rw [← take_append_drop (c.rcurr + c.rbytes) c.rbuff, announced_append hlen]

lemma bodyLen_reading {running : Bool} {loop : Loop} {state : ConnState} :
    (b.reading running loop state buf segs).bodyLen = announced buf := bodyLen_eq _

lemma bodyLenInt_eq (h : c.bodyLen < 2 ^ 31) : c.bodyLenInt = c.bodyLen := by
  unfold bodyLenInt
  exact Int.bmod_eq_of_le (by omega) (by omega)

lemma bodyAvail_eq (h : c.bodyLen < 2 ^ 31) (hlo : headerSize ≤ c.rbytes)
    (hhi : c.rbytes ≤ headerSize + c.bodyLen) :
    c.bodyAvail = some (headerSize + c.bodyLen - c.rbytes) := by
  have havail : Int.bmod (c.bodyLenInt - (c.rbytes - headerSize)) (2 ^ 32) =
      ((headerSize + c.bodyLen - c.rbytes : ℕ) : ℤ) := by
    rw [bodyLenInt_eq h, Int.bmod_eq_of_le] <;> omega
  unfold bodyAvail
  rw [havail]
  simp

/-! ### Reading the header -/

/-- A loop that has read past the header takes the rest of the segment too. -/
lemma header_drain (hbuf : headerSize < buf.length) :
    Reaches next (b.reading true .header .read buf (s :: segs)) (b.idle (buf ++ s) segs) := by
  induction hlen : s.length using Nat.strong_induction_on generalizing buf s with
  | _ n ih =>
    rcases eq_or_ne s [] with rfl | hs
    · rw [append_nil]
      exact .head next_header_nil (.step next_waiting)
    · have hpos : 0 < s.length := length_pos_iff.2 hs
      have hrest : (s.drop headerSize).length < n := by
        rw [length_drop, headerSize]
        omega
      have hbuf' : headerSize < (buf ++ s.take headerSize).length := by
        rw [length_append]
        omega
      have hstep := next_header b buf segs hs
      rw [if_neg (by omega)] at hstep
      have hdrain : Reaches next _ (b.idle (buf ++ s.take headerSize ++ s.drop headerSize) segs) :=
        ih _ hrest hbuf' rfl
      rw [append_assoc, take_append_drop] at hdrain
      exact .head hstep hdrain

lemma idle_header (hbuf : buf.length < headerSize) (hs : s ≠ []) :
    Reaches next (b.idle buf (s :: segs)) (b.reading true .header .read buf (s :: segs)) :=
  .head (next_idle hs) (.step (next_read_header hbuf))

lemma header_short (h : buf.length + s.length < headerSize) :
    Reaches next (b.idle buf (s :: segs)) (b.idle (buf ++ s) segs) := by
  rcases eq_or_ne s [] with rfl | hs
  · rw [append_nil]
    exact idle_skip
  · have hstep := next_header b buf segs hs
    rw [if_neg (by omega), take_of_length_le (by omega), drop_eq_nil_of_le (by omega)]
      at hstep
    have hend : Reaches next (b.reading true .header .read (buf ++ s) ([] :: segs))
        (b.idle (buf ++ s) segs) := .head next_header_nil (.step next_waiting)
    exact (idle_header (by omega) hs).trans (.head hstep hend)

lemma header_exact (hbuf : buf.length < headerSize) (h : buf.length + s.length = headerSize) :
    Reaches next (b.idle buf (s :: segs)) (b.parsing (buf ++ s) ([] :: segs)) := by
  have hs : s ≠ [] := by
    rintro rfl
    simp only [length_nil] at h
    omega
  have hstep := next_header b buf segs hs
  rw [if_pos (by omega), take_of_length_le (by omega), drop_eq_nil_of_le (by omega)]
    at hstep
  exact (idle_header hbuf hs).trans (.step hstep)

lemma header_over (h0 : 0 < buf.length) (hbuf : buf.length < headerSize)
    (h : headerSize < buf.length + s.length) :
    Reaches next (b.idle buf (s :: segs)) (b.idle (buf ++ s) segs) := by
  have hs : s ≠ [] := by
    rintro rfl
    simp only [length_nil] at h
    omega
  have hstep := next_header b buf segs hs
  rw [if_neg (by omega)] at hstep
  have hpast : headerSize < (buf ++ s.take headerSize).length := by
    rw [length_append, length_take]
    omega
  have hdrain : Reaches next _ (b.idle (buf ++ s.take headerSize ++ s.drop headerSize) segs) :=
    header_drain hpast
  rw [append_assoc, take_append_drop] at hdrain
  exact (idle_header hbuf hs).trans (.head hstep hdrain)

/-- With `buf` in the read buffer and `k` bytes of the header missing: a header that ends with a
segment is parsed, and another one is kept with what comes after it in its last segment. -/
def HeaderEnds (b : Conn) (buf : List Byte) (k : ℕ) (segs : List (List Byte)) : Prop :=
  (ahead k segs = 0 → Reaches next (b.idle buf segs)
    (b.parsing (buf ++ segs.flatten.take k) (advance k segs))) ∧
  (0 < ahead k segs → ∃ later, advance (k + ahead k segs) segs = [] :: later ∧
    Reaches next (b.idle buf segs) (b.idle (buf ++ segs.flatten.take (k + ahead k segs)) later))

lemma HeaderEnds.cons {k : ℕ} (hlt : s.length < k)
    (hshort : Reaches next (b.idle buf (s :: segs)) (b.idle (buf ++ s) segs))
    (h : HeaderEnds b (buf ++ s) (k - s.length) segs) : HeaderEnds b buf k (s :: segs) := by
  obtain ⟨hexact, hover⟩ := h
  have htake (a : ℕ) : buf ++ (s ++ segs.flatten).take (k + a) =
      buf ++ s ++ segs.flatten.take (k - s.length + a) := by
    rw [take_append, take_of_length_le (by omega), append_assoc,
      show k + a - s.length = k - s.length + a by omega]
  rw [HeaderEnds, flatten_cons, ahead_of_lt hlt, advance_of_lt hlt]
  constructor
  · intro h
    rw [← add_zero k, htake 0]
    exact hshort.trans (hexact h)
  · intro h
    obtain ⟨later, hlater, hreach⟩ := hover h
    refine ⟨later, ?_, ?_⟩
    · rw [advance_of_lt (by omega), ← hlater]
      congr 1
      omega
    · rw [htake]
      exact hshort.trans hreach

lemma header_split (h0 : 0 < buf.length) {k : ℕ} (hk : buf.length + k = headerSize) (hk0 : 0 < k)
    (hlen : k ≤ segs.flatten.length) : HeaderEnds b buf k segs := by
  induction segs generalizing buf k with
  | nil =>
    simp only [flatten_nil, length_nil] at hlen
    omega
  | cons s segs ih =>
    rw [flatten_cons, length_append] at hlen
    rcases Nat.lt_trichotomy s.length k with hlt | heq | hgt
    · have hlength : (buf ++ s).length = buf.length + s.length := length_append
      exact .cons hlt (header_short (by omega))
        (ih (by omega) (by omega) (by omega) (by omega))
    · rw [HeaderEnds, flatten_cons, ahead_of_le (by omega), advance_of_le (by omega)]
      refine ⟨fun _ => ?_, fun h => absurd h (by omega)⟩
      rw [← heq, take_left, drop_length]
      exact header_exact (by omega) (by omega)
    · rw [HeaderEnds, flatten_cons, ahead_of_le (by omega)]
      refine ⟨fun h => absurd h (by omega), fun _ => ⟨segs, ?_, ?_⟩⟩
      · rw [advance_of_le (by omega), drop_eq_nil_of_le (by omega)]
      · rw [show k + (s.length - k) = s.length by omega, take_left]
        exact header_over h0 (by omega) (by omega)

/-- The header lies in one segment, or it ends where a segment ends. -/
def HeaderExact (segs : List (List Byte)) : Prop :=
  headerSize ≤ 1 + ahead 1 segs ∨ ahead headerSize segs = 0

instance : Decidable (HeaderExact segs) := inferInstanceAs (Decidable (_ ∨ _))

lemma headerExact_nil_cons : HeaderExact ([] :: segs) ↔ HeaderExact segs := by
  rw [HeaderExact, HeaderExact, ahead_nil_cons Nat.one_pos, ahead_nil_cons (by decide)]

lemma header_read (hlen : headerSize ≤ segs.flatten.length) :
    (HeaderExact segs → Reaches next (b.idle [] segs)
      (b.parsing (segs.flatten.take headerSize) (advance headerSize segs))) ∧
    (¬ HeaderExact segs → ∃ later, advance (headerSize + ahead headerSize segs) segs = [] :: later ∧
      Reaches next (b.idle [] segs)
        (b.idle (segs.flatten.take (headerSize + ahead headerSize segs)) later)) := by
  induction segs with
  | nil =>
    simp only [flatten_nil, length_nil] at hlen
    exact absurd hlen (by decide)
  | cons s segs ih =>
    rw [flatten_cons, length_append] at hlen
    rcases eq_or_ne s [] with rfl | hs
    · obtain ⟨hexact, hover⟩ := ih (by simpa using hlen)
      have h16 : 0 < headerSize := by decide
      rw [headerExact_nil_cons, ahead_nil_cons h16, advance_nil_cons h16, advance_nil_cons (by omega)]
      refine ⟨fun h => idle_skip.trans (hexact h), fun h => ?_⟩
      obtain ⟨later, hlater, hreach⟩ := hover h
      exact ⟨later, hlater, idle_skip.trans hreach⟩
    · have hpos : 0 < s.length := length_pos_iff.2 hs
      rcases lt_or_ge s.length headerSize with hlt | hge
      · -- an earlier segment has begun the header
        have hiff : HeaderExact (s :: segs) ↔ ahead (headerSize - s.length) segs = 0 := by
          rw [HeaderExact, ahead_of_le (by omega), ahead_of_lt hlt, or_iff_right (by omega)]
        have hends : HeaderEnds b [] headerSize (s :: segs) :=
          .cons hlt (header_short (by simpa using hlt))
            (header_split hpos (Nat.add_sub_cancel' hlt.le) (by omega) (by omega))
        rw [HeaderEnds, ahead_of_lt hlt] at hends
        rw [hiff, ahead_of_lt hlt]
        exact ⟨hends.1, fun h => hends.2 (pos_of_ne_zero h)⟩
      · -- the whole header is there
        have hexact : HeaderExact (s :: segs) := by
          left
          rw [ahead_of_le (by omega)]
          omega
        have hstep := next_header b [] segs hs
        rw [if_pos (by simp only [length_nil]; omega), nil_append] at hstep
        refine ⟨fun _ => ?_, fun h => absurd hexact h⟩
        rw [flatten_cons, take_append_of_le_length hge, advance_of_le hge]
        exact (idle_header (by decide) hs).trans (.step hstep)

/-! ### Reading the body -/

lemma networkReadBody_of_lt {env : StepEnv} (h : c.rbytes < c.rsize) :
    c.networkReadBody env = c.networkReadBodyRead := if_pos h

lemma next_body (hsize : buf.length < b.rsize) : (b.reading true .body .read buf segs).next =
      (b.reading true .body .read buf segs).networkReadBodyRead := by
  rw [next_of_running rfl rfl rfl, nioRunning]
  exact networkReadBody_of_lt hsize

/-- The header is in the read buffer, and `m` bytes of the body are missing. -/
structure BodyMissing (b : Conn) (buf : List Byte) (m : ℕ) : Prop where
  le_max : announced buf ≤ maxPackageDataSize
  le_rsize : headerSize + announced buf ≤ b.rsize
  header : headerSize ≤ buf.length
  missing : buf.length + m = headerSize + announced buf
  pos : 0 < m

namespace BodyMissing

variable {m : ℕ}

variable (h : BodyMissing b buf m)
include h

lemma lt_rsize : buf.length < b.rsize := by
  have hsize := h.le_rsize
  have hmissing := h.missing
  have hpos := h.pos
  omega

lemma bodyLen_lt : announced buf < 2 ^ 31 :=
  lt_of_le_of_lt h.le_max (by decide)

lemma append (hlt : s.length < m) : BodyMissing b (buf ++ s) (m - s.length) := by
  have hmissing := h.missing
  have hheader := h.header
  have hannounced : announced (buf ++ s) = announced buf := announced_append h.header
  refine ⟨?_, ?_, ?_, ?_, by omega⟩
  · rw [hannounced]
    exact h.le_max
  · rw [hannounced]
    exact h.le_rsize
  · rw [length_append]
    omega
  · rw [length_append, hannounced]
    omega

lemma networkReadBodyRead_eq : (b.reading true .body .read buf segs).networkReadBodyRead =
      (b.reading true .body .read buf segs).networkReadTook (headerSize + announced buf : ℕ)
        (readSock (some m) (delivered segs)) := by
  have hlen : (b.reading true .body .read buf segs).bodyLen = announced buf := bodyLen_reading
  have hrbytes : (b.reading true .body .read buf segs).rbytes = buf.length := rfl
  have hlt := h.bodyLen_lt
  have hheader := h.header
  have hmissing := h.missing
  have havail : (b.reading true .body .read buf segs).bodyAvail = some m := by
    rw [bodyAvail_eq (by omega) (by omega) (by omega), hlen, hrbytes, ← hmissing,
      Nat.add_sub_cancel_left]
  unfold networkReadBodyRead
  rw [havail, bodyLenInt_eq (by omega), hlen, Nat.cast_add, add_comm]
  rfl

lemma next_nil : (b.reading true .body .read buf ([] :: segs)).next =
      b.reading true .none .waiting buf segs := by
  have hread : readSock (some m) (delivered ([] :: segs)) = (.again, delivered segs) := by
    rw [readSock, if_neg (by simpa using h.pos.ne')]
    rfl
  rw [next_body h.lt_rsize, h.networkReadBodyRead_eq, hread]
  rfl

lemma next_cons (segs : List (List Byte)) (hs : s ≠ []) :
    (b.reading true .body .read buf (s :: segs)).next =
      if m ≤ s.length then b.parsing (buf ++ s.take m) (s.drop m :: segs)
      else b.reading true .body .read (buf ++ s) ([] :: segs) := by
  have hmissing := h.missing
  rw [next_body h.lt_rsize, h.networkReadBodyRead_eq, networkReadTook_reading h.pos.ne' hs]
  by_cases hle : m ≤ s.length
  · rw [if_pos (by omega), if_pos hle]
  · rw [if_neg (by omega), if_neg hle, take_of_length_le (by omega), drop_eq_nil_of_le (by omega)]

lemma idle_body (hs : s ≠ []) :
    Reaches next (b.idle buf (s :: segs)) (b.reading true .body .read buf (s :: segs)) := by
  refine .head (next_idle hs) (.step ?_)
  rw [next_read, networkRead_of_le h.header]
  · rfl
  · rw [bodyLenInt_eq (by rw [bodyLen_reading]; exact h.bodyLen_lt), bodyLen_reading]
    exact_mod_cast h.le_max

end BodyMissing

lemma body_read {m : ℕ} (h : BodyMissing b buf m) (hlen : m ≤ segs.flatten.length) :
    Reaches next (b.idle buf segs) (b.parsing (buf ++ segs.flatten.take m) (advance m segs)) := by
  induction segs generalizing buf m with
  | nil =>
    have hpos := h.pos
    simp only [flatten_nil, length_nil] at hlen
    omega
  | cons s segs ih =>
    rw [flatten_cons]
    rw [flatten_cons, length_append] at hlen
    rcases eq_or_ne s [] with rfl | hs
    · rw [advance_nil_cons h.pos, nil_append]
      exact idle_skip.trans (ih h (by simpa using hlen))
    · have hstep := h.next_cons segs hs
      by_cases hle : m ≤ s.length
      · rw [if_pos hle] at hstep
        rw [take_append_of_le_length hle, advance_of_le hle]
        exact (h.idle_body hs).trans (.step hstep)
      · have hlt : s.length < m := not_le.1 hle
        have h' := h.append hlt
        rw [if_neg hle] at hstep
        rw [take_append, take_of_length_le hlt.le, ← append_assoc, advance_of_lt hlt]
        have hwait : Reaches next (b.reading true .body .read (buf ++ s) ([] :: segs))
            (b.idle (buf ++ s) segs) := .head h'.next_nil (.step next_waiting)
        exact (h.idle_body hs).trans (.head hstep (hwait.trans (ih h' (by omega))))

/-! ### A header read past its body -/

/-- The read buffer holds a header, its whole body and, if the body is empty, something more, and
the request has not been dispatched. -/
structure Overread (c : Conn) : Prop where
  dioq : c.dioq = 0
  cq : c.cq = 0
  rcurr : c.rcurr = 0
  header : headerSize < c.rbytes
  body : headerSize + c.bodyLen ≤ c.rbytes
  rbuff : c.rbytes ≤ c.rbuff.length
  bodyLen_lt : c.bodyLen < 2 ^ 31
  control : c.loop = .none ∧ (c.state = .read ∨ c.state = .waiting ∨ c.state = .closed) ∨
    c.loop = .body ∧ c.state = .read

/-- A connection to which nothing will happen any more. -/
def Dead (c : Conn) : Prop :=
  c.running = false ∧ c.registered = false ∧ c.dioq = 0 ∧ c.cq = 0

lemma Dead.next (h : c.Dead) : c.next = c := by
  obtain ⟨hrun, hreg, hdio, hcq⟩ := h
  rw [next_of_nio hdio hcq, if_neg (by simp [hrun]), nioIdle, if_pos hreg]

section

variable (h : c.Overread)
include h

lemma Overread.store (bs : List Byte) (input : List ReadEv) :
    { c.store bs with input := input }.Overread := by
  have hheader := h.header
  have hbody := h.body
  have hrbuff := h.rbuff
  have hlen : (c.store bs).bodyLen = c.bodyLen := by
    apply bodyLen_store <;> rw [h.rcurr] <;> omega
  have hrbytes : (c.store bs).rbytes = c.rbytes + bs.length := rfl
  have hlength : (c.store bs).rbuff.length = c.rbytes + bs.length := by
    simp only [Conn.store, h.rcurr, length_append, length_take]
    omega
  refine ⟨h.dioq, h.cq, h.rcurr, ?_, ?_, ?_, ?_, h.control⟩
  · show headerSize < (c.store bs).rbytes
    omega
  · show headerSize + (c.store bs).bodyLen ≤ (c.store bs).rbytes
    omega
  · show (c.store bs).rbytes ≤ (c.store bs).rbuff.length
    omega
  · show (c.store bs).bodyLen < 2 ^ 31
    rw [hlen]
    exact h.bodyLen_lt

lemma Overread.congr {c' : Conn} (hdio : c'.dioq = c.dioq) (hcq : c'.cq = c.cq)
    (hcurr : c'.rcurr = 0) (hrbytes : c'.rbytes = c.rbytes) (hrbuff : c'.rbuff = c.rbuff)
    (hcontrol : c'.loop = .none ∧ (c'.state = .read ∨ c'.state = .waiting ∨ c'.state = .closed) ∨
      c'.loop = .body ∧ c'.state = .read) : c'.Overread := by
  have hlen : c'.bodyLen = c.bodyLen := by rw [bodyLen_eq, bodyLen_eq, hrbuff]
  refine ⟨hdio.trans h.dioq, hcq.trans h.cq, hcurr, ?_, ?_, ?_, ?_, hcontrol⟩
  · rw [hrbytes]
    exact h.header
  · rw [hrbytes, hlen]
    exact h.body
  · rw [hrbytes, hrbuff]
    exact h.rbuff
  · rw [hlen]
    exact h.bodyLen_lt

lemma Overread.networkReadEnd {r : NetworkReadResult} (hr : r ≠ .dataReceived)
    (input : List ReadEv) : ({ c with input := input }.networkReadEnd r).Overread := by
  cases r with
  | dataReceived => exact absurd rfl hr
  | noDataReceived => exact h.congr rfl rfl h.rcurr rfl rfl (.inl ⟨rfl, .inr (.inl rfl)⟩)
  | complete | incomplete | hardError | softError =>
    exact h.congr rfl rfl h.rcurr rfl rfl (.inl ⟨rfl, .inr (.inr rfl)⟩)

/-- `__network_read_body` never finds the length that it waits for. -/
lemma Overread.networkReadBodyRead :
    c.networkReadBodyRead.Overread ∧ c.networkReadBodyRead.dispatched = c.dispatched := by
  have hint := bodyLenInt_eq h.bodyLen_lt
  have hbody := h.body
  unfold Conn.networkReadBodyRead
  rcases hread : readSock c.bodyAvail c.input with ⟨bs | _ | _ | _, input⟩
  · have hgt : headerSize + c.bodyLen ≠ c.rbytes := by
      intro heq
      have havail := bodyAvail_eq h.bodyLen_lt h.header.le heq.ge
      rw [heq, Nat.sub_self] at havail
      -- the loop would have asked for nothing, and taken the answer for the end of the stream
      rw [havail, readSock, if_pos rfl] at hread
      exact absurd (congrArg Prod.fst hread) (by simp)
    have hne : ¬ ((c.rbytes + bs.length : ℕ) : ℤ) = c.bodyLenInt + headerSize := by omega
    simp only [networkReadTook, if_neg hne]
    exact ⟨h.store bs input, rfl⟩
  · exact ⟨h.networkReadEnd (r := .noDataReceived) (by simp) input, rfl⟩
  · exact ⟨h.networkReadEnd (r := .hardError) (by simp) input, rfl⟩
  · exact ⟨h.networkReadEnd (r := .hardError) (by simp) input, rfl⟩

lemma Overread.networkReadBody (hloop : c.loop = .body) (hstate : c.state = .read) :
    (c.networkReadBody (.ok .nio)).Overread ∧
      (c.networkReadBody (.ok .nio)).dispatched = c.dispatched := by
  unfold Conn.networkReadBody
  split_ifs with hroom hcount hrealloc
  · exact h.networkReadBodyRead
  · exact ⟨h.networkReadEnd (r := .noDataReceived) (by simp) c.input, rfl⟩
  · have hgrown : { c with allocCount := c.allocCount + 1, rcurr := 0, rsize := c.rsize * 2 }.Overread :=
      h.congr rfl rfl rfl rfl rfl (.inr ⟨hloop, hstate⟩)
    exact hgrown.networkReadBodyRead
  · exact absurd rfl hrealloc

lemma Overread.networkRead (hstate : c.state = .read) :
    c.networkRead.Overread ∧ c.networkRead.dispatched = c.dispatched := by
  rcases lt_or_ge (maxPackageDataSize : ℤ) c.bodyLenInt with hlt | hge
  · rw [networkRead_of_overflow h.header.le hlt]
    exact ⟨h.congr rfl rfl h.rcurr rfl rfl (.inl ⟨rfl, .inr (.inr rfl)⟩), rfl⟩
  · rw [networkRead_of_le h.header.le hge]
    exact ⟨h.congr rfl rfl h.rcurr rfl rfl (.inr ⟨rfl, hstate⟩), rfl⟩

lemma Overread.nioRunning : ((c.nioRunning (.ok .nio)).Overread ∨ (c.nioRunning (.ok .nio)).Dead) ∧
      (c.nioRunning (.ok .nio)).dispatched = c.dispatched := by
  unfold Conn.nioRunning
  rcases h.control with ⟨hloop, hstate | hstate | hstate⟩ | ⟨hloop, hstate⟩
  · have hread := h.networkRead hstate
    simp only [hloop, stateMachine, hstate]
    exact ⟨.inl hread.1, hread.2⟩
  · simp only [hloop, stateMachine, hstate]
    unfold updateConnEvent
    split_ifs <;> exact ⟨.inl (h.congr rfl rfl h.rcurr rfl rfl (.inl ⟨hloop, .inl rfl⟩)), rfl⟩
  · simp only [hloop, stateMachine, hstate]
    exact ⟨.inr ⟨rfl, rfl, h.dioq, h.cq⟩, rfl⟩
  · have hread := h.networkReadBody hloop hstate
    simp only [hloop]
    exact ⟨.inl hread.1, hread.2⟩

lemma Overread.nioIdle :
    (c.nioIdle (.ok .nio)).Overread ∧ (c.nioIdle (.ok .nio)).dispatched = c.dispatched := by
  unfold Conn.nioIdle
  split_ifs
  · exact ⟨h, rfl⟩
  · split <;> exact ⟨h.congr rfl rfl h.rcurr rfl rfl h.control, rfl⟩

lemma Overread.dispatched_eq {u : Conn} (hu : Reaches next c u) : u.dispatched = c.dispatched := by
  have hstep (d : Conn) : (d.Overread ∨ d.Dead) ∧ d.dispatched = c.dispatched →
      (d.next.Overread ∨ d.next.Dead) ∧ d.next.dispatched = c.dispatched := by
    rintro ⟨hd | hd, hdispatched⟩
    · rw [next_of_nio hd.dioq hd.cq, ← hdispatched]
      split_ifs
      · exact hd.nioRunning
      · exact ⟨.inl hd.nioIdle.1, hd.nioIdle.2⟩
    · rw [hd.next]
      exact ⟨.inr hd, hdispatched⟩
  exact (hu.inv hstep ⟨.inl h, rfl⟩).2

end

end Conn

end Lfs.Server
