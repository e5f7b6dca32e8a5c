/-
What `__parse_protocol_cmd` of a dataserver finds in the read buffer.

The parser takes the header off `rbytes` before it knows the command, and relies on the handler to leave
`conn_parse_cmd`.  The handlers of the six known commands do so, and on every way back to `conn_waiting`
the read buffer is reset.  For any other command the state stays.  With an empty body the parser is then
called again with nothing in the buffer; otherwise the header stays in front of what comes next and is
dispatched once more.
-/
import Lfs.Server.ReadBound
import Lfs.Server.Socket
import Lfs.Server.Sound

namespace Lfs.Server

open Lfs.Lib List

namespace Conn

/-! ### The steps of the parser -/

/-- The step calls `__parse_protocol_cmd`. -/
def Parses (c : Conn) (env : StepEnv) : Prop :=
  env.actor = .nio ∧ c.running = true ∧ c.loop = .none ∧ c.state = .parseCmd

instance (c : Conn) (env : StepEnv) : Decidable (c.Parses env) :=
  inferInstanceAs (Decidable (_ ∧ _))

/-- The step calls `dispatch_cmd`. -/
def Dispatches (c : Conn) (env : StepEnv) : Prop :=
  c.Parses env ∧ headerSize ≤ c.rbytes ∧ c.bodyLen ≤ c.rbytes - headerSize

instance (c : Conn) (env : StepEnv) : Decidable (c.Dispatches env) :=
  inferInstanceAs (Decidable (_ ∧ _))

/-- The bytes that the step reads into the read buffer. -/
def taken (c : Conn) (env : StepEnv) : List Byte :=
  match c.socketRead env with
  | none => []
  | some (count, _) => (readSock count c.input).1.taken

/-- The request that is dispatched: the header and the body. -/
def request (c : Conn) : List Byte := c.bytesAt 0 headerSize ++ c.bytesAt headerSize c.bodyLen

end Conn

/-- A connection with the bytes that have been read into its read buffer since the last request was
dispatched. -/
structure TracedConn where
  conn : Conn
  since : List Byte
deriving DecidableEq

namespace TracedConn

def step (t : TracedConn) (env : StepEnv) : TracedConn where
  conn := t.conn.step env
  since := if t.conn.Dispatches env then [] else t.since ++ t.conn.taken env

def start (rsize : ℕ) (input : List ReadEv) : TracedConn := ⟨.connNew rsize input, []⟩

/-- The assertion of the parser holds, and a request that is dispatched is made of bytes that have been read
since the last one was. -/
def ParsesOnce (t : TracedConn) (env : StepEnv) : Prop :=
  (t.conn.Parses env → 0 < t.conn.rbytes) ∧
    (t.conn.Dispatches env → ∃ before after, t.since = before ++ t.conn.request ++ after)

/-- A request that is dispatched has a known command. -/
def Known (t : TracedConn) (env : StepEnv) : Prop :=
  t.conn.Dispatches env → Cmd.ofByte t.conn.cmd ≠ none

instance (t : TracedConn) (env : StepEnv) : Decidable (t.Known env) :=
  inferInstanceAs (Decidable (_ → _))

end TracedConn

namespace Conn

variable {c c' : Conn} {env : StepEnv} {since : List Byte}

/-! ### The read buffer -/

/-- The read buffer has the last of the bytes `since`, and nothing else. -/
structure Fresh (c : Conn) (since : List Byte) : Prop where
  rcurr : c.rcurr = 0
  length : c.rbuff.length = c.rbytes
  suffix : c.rbuff <:+ since

/-- While a request is collected, the read buffer is fresh, and there is something in it when it comes to
parsing. -/
structure Clean (c : Conn) (since : List Byte) : Prop where
  fresh : c.Collecting → c.Fresh since
  parse : c.loop = .none → c.state = .parseCmd → 0 < c.rbytes

lemma Fresh.congr (h : c.Fresh since) (hreader : c'.reader = c.reader) : c'.Fresh since := by
  simp only [reader, Prod.mk.injEq] at hreader
  obtain ⟨hrbuff, hrcurr, hrbytes, -⟩ := hreader
  exact ⟨hrcurr.trans h.rcurr, by rw [hrbuff, hrbytes, h.length], hrbuff ▸ h.suffix⟩

lemma clean_of_not_collecting (h : ¬ c.Collecting) : c.Clean since :=
  ⟨fun hc => absurd hc h, fun hloop hstate => absurd (.inr (.inr ⟨hloop, .inr (.inr hstate)⟩)) h⟩

lemma Fresh.clean (h : c.Fresh since) (hparse : c.state ≠ .parseCmd) : c.Clean since :=
  ⟨fun _ => h, fun _ hstate => absurd hstate hparse⟩

/-! ### Steps that read a request -/

lemma Fresh.networkReadEnd (h : c.Fresh since) (r : NetworkReadResult)
    (hr : r = .dataReceived → 0 < c.rbytes) : (c.networkReadEnd r).Clean since := by
  cases r with
  | noDataReceived => exact Fresh.clean (h.congr rfl) (by simp [Conn.networkReadEnd])
  | dataReceived => exact ⟨fun _ => h.congr rfl, fun _ _ => hr rfl⟩
  | complete | incomplete | hardError
  | softError => exact Fresh.clean (h.congr rfl) (by simp [Conn.networkReadEnd])

lemma Fresh.store (h : c.Fresh since) (bs : List Byte) : (c.store bs).Fresh (since ++ bs) := by
  have hrbuff : (c.store bs).rbuff = c.rbuff ++ bs := by
    rw [Conn.store, h.rcurr, zero_add, ← h.length, take_length]
  refine ⟨h.rcurr, ?_, ?_⟩
  · rw [hrbuff, length_append, h.length]
    rfl
  · rw [hrbuff]
    obtain ⟨before, hbefore⟩ := h.suffix
    exact ⟨before, by rw [← hbefore, append_assoc]⟩

lemma Fresh.networkReadTook (h : c.Fresh since) (hloop : c.loop ≠ .none) (total : ℤ)
    (count : Option ℕ) (input : List ReadEv) :
    (c.networkReadTook total (readSock count input)).Clean
      (since ++ (readSock count input).1.taken) := by
  have hinput (input' : List ReadEv) : { c with input := input' }.Fresh since := h.congr rfl
  rcases hres : readSock count input with ⟨bs | _ | _ | _, input'⟩
  · have hne := ne_nil_of_readSock hres
    have hstore : { c.store bs with input := input' }.Fresh (since ++ bs) := (h.store bs).congr rfl
    simp only [Conn.networkReadTook, ReadRes.taken]
    split_ifs
    · refine hstore.networkReadEnd _ fun _ => ?_
      have hpos := length_pos_iff.2 hne
      show 0 < c.rbytes + bs.length
      omega
    · exact ⟨fun _ => hstore, fun hnone => absurd hnone hloop⟩
  · simp only [Conn.networkReadTook, ReadRes.taken, append_nil]
    exact (hinput input').networkReadEnd .noDataReceived (by simp)
  · simp only [Conn.networkReadTook, ReadRes.taken, append_nil]
    exact (hinput input').networkReadEnd .hardError (by simp)
  · simp only [Conn.networkReadTook, ReadRes.taken, append_nil]
    exact (hinput input').networkReadEnd .hardError (by simp)

lemma taken_of_loop (hloop : c.loop = .none ∨ c.loop = .fread) : c.taken env = [] := by
  rw [taken, socketRead]
  rcases hloop with hloop | hloop <;> rw [hloop] <;> split_ifs <;> rfl

section Running

variable (hactor : env.actor = .nio) (hrunning : c.running = true)
include hactor hrunning

lemma Fresh.step_header (h : c.Fresh since) (hloop : c.loop = .header) :
    (c.step env).Clean (since ++ c.taken env) := by
  have hstep : c.step env = c.networkReadHeader := by
    rw [step_running hactor hrunning, nioRunning, hloop]
  have htaken : c.taken env = (readSock (some headerSize) c.input).1.taken := by
    rw [taken, socketRead, if_pos ⟨hactor, hrunning⟩, hloop]
  rw [hstep, htaken]
  exact h.networkReadTook (by simp [hloop]) _ _ _

lemma Fresh.step_body (h : c.Fresh since) (hloop : c.loop = .body) :
    (c.step env).Clean (since ++ c.taken env) := by
  have hstep : c.step env = c.networkReadBody env := by
    rw [step_running hactor hrunning, nioRunning, hloop]
  rw [hstep, taken, socketRead, if_pos ⟨hactor, hrunning⟩, hloop, networkReadBody]
  dsimp only
  split_ifs with hfull hcount hrealloc
  · exact h.networkReadTook (by simp [hloop]) _ _ _
  · rw [append_nil]
    exact h.networkReadEnd _ (by simp)
  · -- the buffer is grown, which leaves its contents
    have hgrown : { c with allocCount := c.allocCount + 1, rcurr := 0, rsize := c.rsize * 2 }.Fresh
        since := ⟨rfl, h.length, h.suffix⟩
    exact hgrown.networkReadTook (by simp [hloop]) _ _ _
  · exact clean_of_not_collecting (not_collecting (.inl rfl) (show ¬ RequestState .closed by decide))

end Running

/-! ### The other steps -/

/-- **A request with a known command** leaves `conn_parse_cmd`, and everything else waits for more. -/
lemma Fresh.parseProtocolCmd (h : c.Fresh since) (hloop : c.loop = .none)
    (hknown : headerSize ≤ c.rbytes → c.bodyLen ≤ c.rbytes - headerSize → Cmd.ofByte c.cmd ≠ none) :
    (headerSize ≤ c.rbytes ∧ c.bodyLen ≤ c.rbytes - headerSize → ∀ s, (c.parseProtocolCmd env).Clean s) ∧
      (¬ (headerSize ≤ c.rbytes ∧ c.bodyLen ≤ c.rbytes - headerSize) →
        (c.parseProtocolCmd env).Clean since) := by
  have hwaits : { c with state := .waiting }.Clean since := Fresh.clean (h.congr rfl) (by simp)
  unfold Conn.parseProtocolCmd
  split_ifs with hshort hwhole
  · exact ⟨fun hd => absurd hd.1 (by omega), fun _ => hwaits⟩
  · refine ⟨fun hd s => ?_, fun hd => absurd ⟨Nat.le_of_not_lt hshort, hwhole⟩ hd⟩
    set d : Conn := { c with
      rbytes := c.rbytes - headerSize
      rcurr := headerSize
      dispatched := c.dispatched ++ [(c.cmd, c.bytesAt headerSize c.bodyLen)] }
    rcases dispatchCmd_cases d env with ⟨hnone, -⟩ | ⟨-, hanswers⟩
    · exact absurd hnone (hknown hd.1 hd.2)
    · obtain ⟨_, _, _, _, _, hdispatch⟩ := @dispatchCmd_eq d env
      refine clean_of_not_collecting (not_collecting (.inl (by rw [hdispatch]; exact hloop)) ?_)
      rcases hanswers with hstate | hstate | ⟨hstate, -⟩ <;> rw [hstate] <;> decide
  · exact ⟨fun hd => absurd hd.2 hwhole, fun _ => hwaits⟩

lemma taken_of_not_running (h : ¬ (env.actor = .nio ∧ c.running = true)) : c.taken env = [] := by
  rw [taken, socketRead, if_neg h]

/-- A step that neither reads nor parses keeps the read buffer, or a new request begins with an empty one. -/
lemma Clean.continues (h : c.Clean since) (hstep : Continues c c') : c'.Clean since := by
  cases hstep with
  | away haway => exact clean_of_not_collecting haway
  | reset hreader hloop hstate =>
    simp only [reader, Prod.mk.injEq] at hreader
    obtain ⟨hrbuff, hrcurr, hrbytes, -⟩ := hreader
    refine Fresh.clean ⟨hrcurr, ?_, ?_⟩ (by simp [hstate])
    · rw [hrbuff, hrbytes]
      rfl
    · rw [hrbuff]
      exact nil_suffix
  | same hcollecting hreader hloop hstate =>
    refine ⟨fun _ => (h.fresh hcollecting).congr hreader, fun hl hs => ?_⟩
    have hrbytes : c'.rbytes = c.rbytes := congrArg (fun r => r.2.2.1) hreader
    rw [hrbytes]
    exact h.parse (hloop ▸ hl) ((hstate.resolve_right fun hne => hne hl) ▸ hs)
  | reads hloop hstate hreader hstate' =>
    refine Fresh.clean ((h.fresh (.inr (.inr ⟨hloop, ?_⟩))).congr hreader) (by simp [hstate'])
    exact hstate.imp_right .inl

/-! ### Requests -/

lemma bytesAt_eq_take {offset n : ℕ} (h : offset + n ≤ c.rbuff.length) :
    c.bytesAt offset n = (c.rbuff.drop offset).take n := by
  rw [bytesAt, take_append_of_le_length]
  rw [length_drop]
  omega

lemma exists_rbuff_eq (h : headerSize + c.bodyLen ≤ c.rbuff.length) :
    ∃ after, c.rbuff = c.request ++ after := by
  have hheader : c.bytesAt 0 headerSize = c.rbuff.take headerSize := bytesAt_eq_take (by omega)
  refine ⟨c.rbuff.drop (headerSize + c.bodyLen), ?_⟩
  rw [request, hheader, bytesAt_eq_take h, ← drop_drop, append_assoc, take_append_drop,
    take_append_drop]

end Conn

namespace TracedConn

open Conn

variable {t : TracedConn} {env : StepEnv}

/-- What holds of a connection as long as all commands are known. -/
structure Inv (t : TracedConn) : Prop where
  sound : t.conn.Sound
  clean : t.conn.Clean t.since

/-- **One step.**  The promise holds, wherever the step leads. -/
lemma Inv.parsesOnce (h : t.Inv) (env : StepEnv) : t.ParsesOnce env := by
  constructor
  · rintro ⟨-, -, hloop, hstate⟩
    exact h.clean.parse hloop hstate
  · rintro ⟨⟨-, -, hloop, hstate⟩, hheader, hbody⟩
    have hfresh := h.clean.fresh (.inr (.inr ⟨hloop, .inr (.inr hstate)⟩))
    have hwhole : headerSize + t.conn.bodyLen ≤ t.conn.rbuff.length := by
      rw [hfresh.length]
      omega
    obtain ⟨after, hafter⟩ := exists_rbuff_eq hwhole
    obtain ⟨before, hbefore⟩ := hfresh.suffix
    exact ⟨before, after, by rw [← hbefore, hafter, ← append_assoc]⟩

lemma step_since_of_not (hnot : ¬ t.conn.Dispatches env) :
    (t.step env).since = t.since ++ t.conn.taken env := if_neg hnot

lemma Inv.step (h : t.Inv) (hknown : t.Known env) : (t.step env).Inv := by
  refine ⟨h.sound.step env, ?_⟩
  show (t.conn.step env).Clean (t.step env).since
  have helse (hrun : env.actor = .nio → t.conn.running = true →
      t.conn.loop = .fread ∨ t.conn.loop = .none ∧ t.conn.state ≠ .parseCmd)
      (htaken : t.conn.taken env = []) : (t.conn.step env).Clean (t.step env).since := by
    have hnot : ¬ t.conn.Dispatches env := by
      rintro ⟨⟨hactor, hrunning, hloop, hstate⟩, -⟩
      rcases hrun hactor hrunning with hfread | ⟨-, hne⟩
      · exact absurd (hloop.symm.trans hfread) (by decide)
      · exact hne hstate
    rw [step_since_of_not hnot, htaken, append_nil]
    exact h.clean.continues (h.sound.continues_step hrun)
  by_cases hrun : env.actor = .nio ∧ t.conn.running = true
  · obtain ⟨hactor, hrunning⟩ := hrun
    cases hloop : t.conn.loop with
    | none =>
      have htaken : t.conn.taken env = [] := taken_of_loop (.inl hloop)
      by_cases hstate : t.conn.state = .parseCmd
      · have hfresh := h.clean.fresh (.inr (.inr ⟨hloop, .inr (.inr hstate)⟩))
        have hparses : t.conn.Parses env := ⟨hactor, hrunning, hloop, hstate⟩
        obtain ⟨hdispatched, hwaits⟩ := @Fresh.parseProtocolCmd t.conn env t.since hfresh hloop
          fun hheader hbody => hknown ⟨hparses, hheader, hbody⟩
        have hparse : t.conn.step env = t.conn.parseProtocolCmd env := by
          rw [step_running hactor hrunning, nioRunning, hloop, Conn.stateMachine, hstate]
        rw [hparse]
        by_cases hdispatch : t.conn.Dispatches env
        · exact hdispatched hdispatch.2 _
        · rw [step_since_of_not hdispatch, htaken, append_nil]
          exact hwaits fun hd => hdispatch ⟨hparses, hd⟩
      · exact helse (fun _ _ => .inr ⟨hloop, hstate⟩) htaken
    | header =>
      rw [step_since_of_not fun hd => absurd (hloop.symm.trans hd.1.2.2.1) (by decide)]
      exact (h.clean.fresh (.inl hloop)).step_header hactor hrunning hloop
    | body =>
      rw [step_since_of_not fun hd => absurd (hloop.symm.trans hd.1.2.2.1) (by decide)]
      exact (h.clean.fresh (.inr (.inl hloop))).step_body hactor hrunning hloop
    | fread => exact helse (fun _ _ => .inl hloop) (taken_of_loop (.inr hloop))
  · exact helse (fun hactor hrunning => absurd ⟨hactor, hrunning⟩ hrun) (taken_of_not_running hrun)

lemma inv_start (rsize : ℕ) (input : List ReadEv) : (start rsize input).Inv := by
  refine ⟨sound_connNew rsize input, fun _ => ⟨rfl, rfl, suffix_refl _⟩, fun _ hstate => ?_⟩
  exact absurd hstate (by simp [start, connNew])

/-- **No request is parsed twice.**  In every run of a connection, with whatever the client sends and
however the threads take turns, in which every request that is dispatched has a known command: the
assertion of `__parse_protocol_cmd` holds whenever it is called, and every request that is dispatched, with
its header and its body, is made of bytes that were read after the last dispatch. -/
theorem parses_once (rsize : ℕ) (input : List ReadEv) (envs : List StepEnv)
    (hknown : Along step (fun t env _ => t.Known env) (start rsize input) envs) :
    Along step (fun t env _ => t.ParsesOnce env) (start rsize input) envs :=
  Along.of_inv (inv_start rsize input) hknown fun _ env h hk => ⟨h.step hk, h.parsesOnce env⟩

/-- A header with this command for a body of `n` bytes. -/
def header (cmd : Byte) (n : Byte) : List Byte := n :: replicate 7 0 ++ cmd :: replicate 7 0

/-- A client that asks for the number of binlogs. -/
theorem parses_once_mete :
    Along step (fun t env _ => t.ParsesOnce env) (start 1024 [.data (header 0x36 0)])
      (replicate 7 (.ok .nio)) :=
  parses_once 1024 [.data (header 0x36 0)] _ (by decide +kernel)

/-- The command 1 is not known.  Without a body, the parser is called with an empty buffer.  With a body of
16 bytes that is followed by 16 more, the request is dispatched twice. -/
theorem parser_misled :
    ¬ Along step (fun t env _ => t.ParsesOnce env) (start 1024 [.data (header 1 0)])
        (replicate 5 (.ok .nio)) ∧
      (run Conn.step (.connNew 1024 [.data (header 1 16), .data (replicate 16 7),
        .data (replicate 16 9)]) (replicate 17 (.ok .nio))).dispatched =
          [(1, replicate 16 7), (1, replicate 16 7)] := by
  refine ⟨fun h => ?_, by decide +kernel⟩
  have hassert := h.mono (S := fun t env _ => t.conn.Parses env → 0 < t.conn.rbytes) fun _ _ _ h => h.1
  revert hassert
  decide +kernel

end TracedConn

end Lfs.Server
