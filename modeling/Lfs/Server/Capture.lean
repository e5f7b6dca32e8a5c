/-
Whether a call of `__state_machine` of a dataserver comes back (`ds_network_io.c`).

Every call of `read` and `write` may take any positive number of bytes, return 0 or fail with any
`errno`: the outcomes are a stream, and each step of the call, one call of `write` a step, takes the next
one.  The states come in an order from which nothing goes back, and in every state something gets
smaller, with three exceptions.  `__network_fread` calls a `read` that fails for good again,
`__network_read_header` asks for a whole header after a part of one, and the process ends where an
assertion fails or a file is used that is not there.
-/
import Lfs.Lib.Stream
import Lfs.Server.Socket
import Lfs.Server.Sound

namespace Lfs.Server

open Lfs.Lib Option

/-! ### Single calls -/

namespace CallRes

def Takes : CallRes → Prop
  | bytes _ _ => True
  | _ => False

/-- The call has failed, and not because nothing is there for now. -/
def Fails : CallRes → Prop
  | fail errno => errno ≠ eagain ∧ errno ≠ ewouldblock
  | _ => False

variable {o : CallRes} {count : Option ℕ} {bs : List Byte} {input : List ReadEv}

lemma takes_of_readSock (h : readSock count [o.toReadEv] = (.bytes bs, input)) : o.Takes := by
  unfold readSock at h
  split_ifs at h with hcount
  · cases h
  cases o with
  | bytes b bs => trivial
  | zero => cases h
  | fail errno =>
    rw [toReadEv] at h
    split_ifs at h
    · cases h
    · cases h

lemma fails_of_readSock (h : readSock count [o.toReadEv] = (.error, input)) : o.Fails := by
  unfold readSock at h
  split_ifs at h with hcount
  · cases h
  cases o with
  | bytes b bs => cases count <;> cases h
  | zero => cases h
  | fail errno =>
    rw [toReadEv] at h
    split_ifs at h with herrno
    · cases h
    · exact not_or.1 herrno

lemma Takes.exists_readSock {n : ℕ} (hn : n ≠ 0) (h : o.Takes) :
    ∃ bs input, readSock (some n) [o.toReadEv] = (.bytes bs, input) := by
  cases o with
  | bytes b bs => exact ⟨_, _, if_neg (by simpa using hn)⟩
  | zero | fail errno => exact absurd h id

lemma Fails.exists_readSock {n : ℕ} (hn : n ≠ 0) (h : o.Fails) :
    ∃ input, readSock (some n) [o.toReadEv] = (.error, input) := by
  cases o with
  | bytes b bs | zero => exact absurd h id
  | fail errno =>
    rw [toReadEv, if_neg (not_or.2 h)]
    exact ⟨_, if_neg (by simpa using hn)⟩

end CallRes

/-- What is left to the environment in a step of a call of `__state_machine`. -/
structure CallEnv where
  /-- How the call of `read` or `write` ends, if there is one. -/
  call : CallRes
  env : StepEnv

namespace Conn

/-- A call of `__state_machine` begins. -/
def enter (c : Conn) : Conn := { c with running := true, loop := .none }

/-- The process ends here: the assertion of `__parse_protocol_cmd` fails, or the file of the connection
is used and there is none. -/
def Aborts (c : Conn) : Prop :=
  c.running = true ∧ (c.loop = .none ∧ c.state = .parseCmd ∧ c.rbytes = 0 ∨
      c.fctx = none ∧ (c.loop = .fread ∨
        c.loop = .none ∧ (c.state = .fwrite ∨ c.state = .fsend ∨ c.state = .n2dio)))

instance (c : Conn) : Decidable c.Aborts := inferInstanceAs (Decidable (_ ∧ _))

/-- One round of the loops of `__network_write_noblock` and `__network_fwrite`, with `remain` bytes left to
write; `took n` is the connection when `n` of them were written. -/
def writeCall (remain : ℕ) (took : ℕ → Conn) (next : Conn → Conn) (e : CallEnv) (c : Conn) : Conn :=
  if 0 < remain then
    match e.call.toWriteRes with
    | .wrote n => took (min (max n 1) remain)
    | .again => afterWrite next (c.networkWriteEnd e.env .again)
    | .error => afterWrite next (c.networkWriteEnd e.env .error)
  else afterWrite next (c.networkWriteEnd e.env .done)

/-- One case of `__state_machine`, or one round of its loop where it writes. -/
def callState (e : CallEnv) (c : Conn) : Conn :=
  match c.state with
  | .write =>
    c.writeCall (c.wbytes - c.wused) (fun n => { c with wused := c.wused + n })
      (fun c => { c.connReset with state := .waiting }) e
  | .mwrite =>
    c.writeCall (c.wbytes - c.wused) (fun n => { c with wused := c.wused + n })
      (fun c => { c.connWriteReset with state := c.nextto }) e
  | .fwrite =>
    match c.fctx with
    | none => c
    | some f =>
      c.writeCall (f.fBuffOffset - f.fRwoffset) (fun n => { c with fctx := some (f.sent n) })
        (fun c => { c.connReset with state := .n2dio }) e
  | _ => c.stateMachine e.env

/-- The connection when the next call of `read` ends like this. -/
def facing (o : CallRes) (c : Conn) : Conn := { c with input := [o.toReadEv] }

/-- One step of a call of `__state_machine`.  A call that has come back takes no more steps, and neither
does a process that has ended. -/
def callStep (c : Conn) (e : CallEnv) : Conn :=
  if c.running = false ∨ c.Aborts then c
  else
    match c.loop with
    | .none => c.callState e
    | _ => (c.facing e.call).nioRunning e.env

/-! ### Traps -/

/-- The loop of `__network_read_header` is past the end of a header. -/
structure Overrun (c : Conn) : Prop where
  running : c.running = true
  loop : c.loop = .header
  past : headerSize ≤ c.rbytes

/-- The loop of `__network_fread` waits for bytes of a file. -/
structure Receiving (c : Conn) : Prop where
  running : c.running = true
  loop : c.loop = .fread
  missing : ∃ f, c.fctx = some f ∧ f.fRwoffset < f.fSize ∧ f.fBuffOffset < fileBuffSize

/-- The places in which a call can stay for ever. -/
inductive Trap where
  | abort
  | header
  | fread

def Trapped : Trap → Conn → Prop
  | .abort, c => c.Aborts
  | .header, c => c.Overrun
  | .fread, c => c.Receiving

/-- The outcome of a call keeps `__state_machine` where it is. -/
def Holds : Trap → CallEnv → Prop
  | .abort, _ => True
  | .header, e => e.call.Takes
  | .fread, e => e.call.Fails

/-- The place of a state in the order of the states. -/
def statePhase : ConnState → ℕ
  | .read => 9
  | .parseCmd => 7
  | .fread => 6
  | .mwrite => 4
  | .fwrite => 4
  | .write => 3
  | .n2dio => 2
  | .fsend => 2
  | .waiting => 1
  | .closed => 1

def phase (c : Conn) : ℕ :=
  match c.loop with
  | .none => statePhase c.state
  | .header => 8
  | .body => 8
  | .fread => 5

def todo (c : Conn) : ℕ :=
  match c.loop with
  | .none =>
    match c.state with
    | .parseCmd => c.rbytes
    | .write => c.wbytes - c.wused
    | .mwrite => c.wbytes - c.wused
    | .fwrite => (c.fctx.map fun f => f.fBuffOffset - f.fRwoffset).getD 0
    | _ => 0
  | .header => headerSize - c.rbytes
  -- the buffer grows at most twice
  | .body => c.rsize * 2 ^ (2 - c.allocCount) - c.rbytes + (2 - c.allocCount)
  | .fread => (c.fctx.map fun f => fileBuffSize - f.fBuffOffset).getD 0

/-! ### Steps that go on -/

variable {c c' : Conn} {e : CallEnv} {env : StepEnv}

/-- The call has come back, or it is further on than before. -/
def Closer (c c' : Conn) : Prop := Later phase todo c c' ∨ c'.running = false

lemma closer_of_phase_lt (h : c'.phase < c.phase) : Closer c c' := .inl (.inl h)

lemma closer_of_todo_lt (h : c'.phase = c.phase) (hlt : c'.todo < c.todo) : Closer c c' :=
  .inl (.inr ⟨h, hlt⟩)

lemma phase_of_loop (h : c.loop = .none) : c.phase = statePhase c.state := by rw [phase, h]

lemma phase_eq_of_state {s : ConnState} (hloop : c.loop = .none) (hstate : c.state = s) :
    c.phase = statePhase s := by
  rw [phase_of_loop hloop, hstate]

lemma closer_of_state {s t : ConnState} (hloop : c.loop = .none) (hstate : c.state = s)
    (hloop' : c'.loop = .none) (hstate' : c'.state = t) (hlt : statePhase t < statePhase s) :
    Closer c c' := by
  refine closer_of_phase_lt ?_
  rwa [phase_eq_of_state hloop hstate, phase_eq_of_state hloop' hstate']

lemma phase_networkReadEnd_lt (r : NetworkReadResult) : (c.networkReadEnd r).phase < 8 := by
  cases r <;> simp [networkReadEnd, phase, statePhase]

lemma networkReadTook_cases {total : ℤ} {r : ReadRes × List ReadEv} {m : ℕ} (hphase : c.phase = 8)
    (htakes : ∀ bs input, r = (.bytes bs, input) → { c.store bs with input := input }.todo < m) :
    (c.networkReadTook total r).phase < 8 ∨
      (c.networkReadTook total r).phase = 8 ∧ (c.networkReadTook total r).todo < m := by
  obtain ⟨bs | _ | _ | _, input⟩ := r
  · simp only [networkReadTook]
    split_ifs
    · exact .inl (phase_networkReadEnd_lt _)
    · exact .inr ⟨hphase, htakes bs input rfl⟩
  · exact .inl (phase_networkReadEnd_lt (c := { c with input := input }) .noDataReceived)
  · exact .inl (phase_networkReadEnd_lt (c := { c with input := input }) .hardError)
  · exact .inl (phase_networkReadEnd_lt (c := { c with input := input }) .hardError)

/-- A round of `__network_read_header` that is not past the end of a header. -/
lemma closer_networkReadHeader (hloop : c.loop = .header)
    (hshort : ∀ bs input, readSock (some headerSize) c.input = (.bytes bs, input) → c.rbytes < headerSize) :
    Closer c c.networkReadHeader := by
  have hphase : c.phase = 8 := by rw [phase, hloop]
  have htakes (bs : List Byte) (input : List ReadEv)
      (hread : readSock (some headerSize) c.input = (.bytes bs, input)) :
      { c.store bs with input := input }.todo < c.todo := by
    have hpos := List.length_pos_of_ne_nil (ne_nil_of_readSock hread)
    have hlt := hshort bs input hread
    simp only [todo, store, hloop]
    omega
  rcases @networkReadTook_cases c headerSize _ c.todo hphase htakes with hlt | ⟨heq, hlt⟩
  · exact closer_of_phase_lt (hphase ▸ hlt)
  · exact closer_of_todo_lt (heq.trans hphase.symm) hlt

/-- The `read` in a round of `__network_read_body`, with room in the buffer or with less of it to come. -/
lemma networkReadBodyRead_cases {m : ℕ} (hloop : c.loop = .body)
    (hroom : c.rbytes < c.rsize ∧ c.todo ≤ m ∨ c.todo < m) :
    c.networkReadBodyRead.phase < 8 ∨ c.networkReadBodyRead.phase = 8 ∧ c.networkReadBodyRead.todo < m := by
  refine networkReadTook_cases (by rw [phase, hloop]) fun bs input hread => ?_
  have hpos := List.length_pos_of_ne_nil (ne_nil_of_readSock hread)
  have hgrown : c.rsize ≤ c.rsize * 2 ^ (2 - c.allocCount) := Nat.le_mul_of_pos_right _ (by positivity)
  simp only [todo, store, hloop] at hroom ⊢
  omega

lemma closer_networkReadBody (hsound : c.Sound) (hloop : c.loop = .body) :
    Closer c (c.networkReadBody env) := by
  have hphase : c.phase = 8 := by rw [phase, hloop]
  have halloc := hsound.alloc
  have hround {d : Conn} (h : d.phase < 8 ∨ d.phase = 8 ∧ d.todo < c.todo) : Closer c d := by
    rcases h with hlt | ⟨heq, hlt⟩
    · exact closer_of_phase_lt (hphase ▸ hlt)
    · exact closer_of_todo_lt (heq.trans hphase.symm) hlt
  rw [networkReadBody]
  split_ifs with hroom hfull hrealloc
  · exact hround (networkReadBodyRead_cases hloop (.inl ⟨hroom, le_refl _⟩))
  · exact closer_of_phase_lt (hphase ▸ phase_networkReadEnd_lt _)
  · refine hround (networkReadBodyRead_cases hloop (.inr ?_))
    -- the buffer has its new size, which counted already
    obtain ⟨a, ha⟩ : ∃ a, 2 - c.allocCount = a + 1 := ⟨1 - c.allocCount, by omega⟩
    have ha' : 2 - (c.allocCount + 1) = a := by omega
    have hgrow : c.rsize * 2 * 2 ^ a = c.rsize * 2 ^ (a + 1) := by ring
    simp only [todo, hloop, ha, ha', hgrow]
    omega
  · exact closer_of_phase_lt (hphase ▸ phase_networkReadEnd_lt _)

lemma closer_networkFreadAgain (hphase : 1 < c.phase) : Closer c (c.networkFreadAgain env) := by
  unfold networkFreadAgain
  obtain ⟨d, ok⟩ := c.updateConnEvent .read env
  cases ok with
  | true => exact .inr rfl
  | false => exact closer_of_phase_lt hphase

/-- A round of `__network_fread`, unless the `read` fails for good. -/
lemma closer_networkFread {f : FileCtx} (hloop : c.loop = .fread) (hfctx : c.fctx = some f)
    (hlive : f.fRwoffset < f.fSize → f.fBuffOffset < fileBuffSize →
      ∀ input, readSock (some (fileBuffSize - f.fBuffOffset)) c.input ≠ (.error, input)) :
    Closer c (c.networkFread env) := by
  have hphase : c.phase = 5 := by rw [phase, hloop]
  have hleft {d : Conn} (h : d.phase ≤ 2) : Closer c d := closer_of_phase_lt (by omega)
  rw [networkFread, hfctx]
  dsimp only
  rw [networkFreadFile]
  split_ifs with hdone
  · exact hleft (le_refl 2)
  have hlive := hlive (by omega) (by omega)
  revert hlive
  rcases hread : readSock (some (fileBuffSize - f.fBuffOffset)) c.input with ⟨bs | _ | _ | _, input⟩
  · intro _
    dsimp only
    split_ifs with hall
    · refine closer_of_todo_lt (by simp only [phase, hloop]) ?_
      simp only [todo, hloop, hfctx, FileCtx.received, map_some, getD_some]
      omega
    · exact hleft (le_refl 2)
  · intro _
    have hlt : 1 < c.phase := by omega
    exact closer_networkFreadAgain (c := { c with input := input }) hlt
  · intro _
    exact hleft (Nat.le_succ 1)
  · intro hlive
    exact absurd rfl (hlive input)

lemma closer_afterWrite {next : Conn → Conn} (hloop : c.loop = .none) (hphase : 1 < c.phase) {w : WriteEnd}
    (hw : w ≠ .done) : Closer c (afterWrite next (c.networkWriteEnd env w)) := by
  rcases afterWrite_eq next c env w with ⟨hdone, -⟩ | ⟨flags, registered, heq | heq⟩
  · exact absurd hdone hw
  · rw [heq]
    exact .inr rfl
  · rw [heq]
    exact closer_of_phase_lt (by rw [phase_of_loop (by exact hloop)]; exact hphase)

/-- A round of a loop of writes, which leads to the state `t` when everything is written. -/
lemma closer_writeCall {s t : ConnState} {remain : ℕ} {took : ℕ → Conn} {next : Conn → Conn}
    (hloop : c.loop = .none) (hstate : c.state = s) (hs : 1 < statePhase s)
    (hnext : (next c).loop = .none ∧ (next c).state = t) (hlt : statePhase t < statePhase s)
    (htook : ∀ n, 0 < n → n ≤ remain →
      (took n).loop = .none ∧ (took n).state = s ∧ (took n).todo < c.todo) :
    Closer c (c.writeCall remain took next e) := by
  have hphase : c.phase = statePhase s := phase_eq_of_state hloop hstate
  unfold writeCall
  split_ifs with hleft
  · cases e.call.toWriteRes with
    | wrote n =>
      obtain ⟨hloop', hstate', hless⟩ := htook (min (max n 1) remain) (by omega) (by omega)
      exact closer_of_todo_lt ((phase_eq_of_state hloop' hstate').trans hphase.symm) hless
    | again | error => exact closer_afterWrite hloop (hphase ▸ hs) (by decide)
  · exact closer_of_state hloop hstate hnext.1 hnext.2 hlt

lemma closer_networkRead (hloop : c.loop = .none) (hstate : c.state = .read) : Closer c c.networkRead := by
  have hphase : c.phase = 9 := phase_eq_of_state hloop hstate
  rw [networkRead]
  split_ifs
  · exact closer_of_phase_lt (hphase ▸ Nat.lt_succ_self 8)
  · exact closer_of_phase_lt (hphase ▸ (phase_networkReadEnd_lt _).trans (Nat.lt_succ_self 8))
  · exact closer_of_phase_lt (hphase ▸ Nat.lt_succ_self 8)

/-- A call of `__parse_protocol_cmd`.  A command that is not known takes a header off the bytes that are
there. -/
lemma closer_parseProtocolCmd (hloop : c.loop = .none) (hstate : c.state = .parseCmd) :
    Closer c (c.parseProtocolCmd env) := by
  have hwaits : Closer c { c with state := .waiting } :=
    closer_of_state (t := .waiting) hloop hstate hloop rfl (by decide)
  unfold parseProtocolCmd
  split_ifs with hshort hbody
  · exact hwaits
  · set d : Conn := { c with
      rbytes := c.rbytes - headerSize
      rcurr := headerSize
      dispatched := c.dispatched ++ [(c.cmd, c.bytesAt headerSize c.bodyLen)] }
    rcases dispatchCmd_cases d env with ⟨-, heq⟩ | ⟨-, hanswers⟩
    · rw [heq]
      refine closer_of_todo_lt rfl ?_
      have hpos : 0 < headerSize := by decide
      simp only [todo, d, hloop, hstate]
      omega
    · obtain ⟨_, _, _, _, _, hdispatch⟩ := @dispatchCmd_eq d env
      have hloop' : (d.dispatchCmd env).loop = .none := by rw [hdispatch]; exact hloop
      rcases hanswers with h | h | ⟨h, -⟩
      · exact closer_of_state hloop hstate hloop' h (by decide)
      · exact closer_of_state hloop hstate hloop' h (by decide)
      · exact closer_of_state hloop hstate hloop' h (by decide)
  · exact hwaits

lemma closer_callState (hsound : c.Sound) (hrunning : c.running = true) (hloop : c.loop = .none)
    (hlive : ¬ c.Aborts) : Closer c (c.callState e) := by
  unfold callState
  cases hstate : c.state with
  | waiting =>
    simp only [stateMachine, hstate]
    exact .inr rfl
  | read =>
    simp only [stateMachine, hstate]
    exact closer_networkRead hloop hstate
  | fread =>
    have hphase : c.phase = 6 := phase_eq_of_state hloop hstate
    simp only [stateMachine, hstate]
    exact closer_of_phase_lt (hphase ▸ Nat.lt_succ_self 5)
  | parseCmd =>
    simp only [stateMachine, hstate]
    exact closer_parseProtocolCmd hloop hstate
  | write =>
    refine closer_writeCall (t := .waiting) hloop hstate (by decide) ⟨hloop, rfl⟩ (by decide) ?_
    intro n hn hle
    refine ⟨hloop, rfl, ?_⟩
    simp only [todo, hloop, hstate]
    omega
  | fwrite =>
    cases hfctx : c.fctx with
    | none => exact absurd ⟨hrunning, .inr ⟨hfctx, .inr ⟨hloop, .inl hstate⟩⟩⟩ hlive
    | some f =>
      refine closer_writeCall (t := .n2dio) hloop hstate (by decide) ⟨hloop, rfl⟩ (by decide) ?_
      intro n hn hle
      refine ⟨hloop, rfl, ?_⟩
      simp only [todo, hloop, hstate, hfctx, FileCtx.sent, map_some, getD_some]
      omega
  | fsend =>
    simp only [stateMachine, hstate]
    split_ifs
    · exact closer_of_state (t := .waiting) hloop hstate hloop rfl (by decide)
    · exact closer_of_state (t := .closed) hloop hstate hloop rfl (by decide)
  | mwrite =>
    have hlt : statePhase c.nextto < statePhase .mwrite := by
      rcases hsound.mwrite hstate with hnext | hnext
      · rw [hnext]
        decide
      · rw [hnext]
        decide
    refine closer_writeCall hloop hstate (by decide) ⟨hloop, rfl⟩ hlt ?_
    intro n hn hle
    refine ⟨hloop, rfl, ?_⟩
    simp only [todo, hloop, hstate]
    omega
  | n2dio =>
    cases hfctx : c.fctx with
    | none => exact absurd ⟨hrunning, .inr ⟨hfctx, .inr ⟨hloop, .inr (.inr hstate)⟩⟩⟩ hlive
    | some f =>
      simp only [stateMachine, hstate, hfctx, dioThreadPoolDispatch]
      cases e.env.eventDel with
      | true => exact .inr rfl
      | false => exact closer_of_state (t := .closed) hloop hstate hloop rfl (by decide)
  | closed =>
    simp only [stateMachine, hstate]
    exact .inr rfl

/-! ### The steps of a call -/

/-- Call by call, a loop of writes comes to its end; `took m` is the connection when `m` bytes were
written. -/
lemma exists_calls_eq_afterWrite (env : StepEnv) (took : ℕ → Conn) (remain : ℕ) (next : Conn → Conn) {r m : ℕ}
    (hstep : ∀ m o, (took m).callState ⟨o, env⟩ =
      (took m).writeCall (remain - m) (fun n => took (m + n)) next ⟨o, env⟩)
    (writes : List WriteRes) (hr : remain - m = r) :
    ∃ os : List CallRes, run (fun c o => c.callState ⟨o, env⟩) (took m) os =
      afterWrite next ((took ((writeLoop writes r).1 + m)).networkWriteEnd env (writeLoop writes r).2) := by
  have hwrote (n k : ℕ) (hk : remain - k ≠ 0) :
      (took k).callState ⟨.bytes 0 (List.replicate (n - 1) 0), env⟩ = took (min (max n 1) (remain - k) + k) := by
    rw [hstep, writeCall, if_pos (Nat.pos_of_ne_zero hk), Nat.add_comm _ k]
    simp only [CallRes.toWriteRes, List.length_replicate]
    congr 3
    omega
  fun_induction writeLoop writes r generalizing m with
  | case1 => exact ⟨[.zero], by simp [hstep, writeCall, hr]⟩
  | case2 r hne =>
    -- the rest is taken at once
    refine ⟨[.bytes 0 (List.replicate (r - 1) 0), .zero], ?_⟩
    have hall : min (max r 1) (remain - m) = r := by omega
    have hdone : ¬ 0 < remain - (r + m) := by omega
    simp [hwrote r m (hr ▸ hne), hstep, writeCall, hall, hdone]
  | case3 n writes r hne w ws e hloop =>
    rename_i ih
    obtain ⟨os, hos⟩ := ih (m := w + m) (by omega)
    refine ⟨.bytes 0 (List.replicate (n - 1) 0) :: os, ?_⟩
    rw [run_cons, hwrote n m (hr ▸ hne), hr, hos, hloop, Nat.add_left_comm, ← Nat.add_assoc]
  | case4 _ r hne =>
    exact ⟨[.fail eintr], by simp [hstep, writeCall, hr, CallRes.toWriteRes, Nat.pos_of_ne_zero hne]⟩
  | case5 _ r hne =>
    exact ⟨[.zero], by simp [hstep, writeCall, hr, CallRes.toWriteRes, Nat.pos_of_ne_zero hne]⟩

/-- **The calls of a round** come from state to state as `__state_machine` does. -/
lemma exists_calls_eq_stateMachine (c : Conn) (env : StepEnv) :
    ∃ os : List CallRes, run (fun c o => c.callState ⟨o, env⟩) c os = c.stateMachine env := by
  cases hstate : c.state with
  | waiting | read | fread | parseCmd | fsend | n2dio | closed =>
    exact ⟨[.zero], by simp [callState, hstate]⟩
  | write | mwrite =>
    rw [stateMachine, hstate]
    refine exists_calls_eq_afterWrite env (fun m => { c with wused := c.wused + m }) (c.wbytes - c.wused) _
      (m := 0) (fun m o => ?_) env.writes rfl
    simp only [callState, hstate, Nat.sub_sub, Nat.add_assoc]
  | fwrite =>
    cases hfctx : c.fctx with
    | none => exact ⟨[], by simp [stateMachine, hstate, hfctx]⟩
    | some f =>
      have hsent : { c with fctx := some (f.sent 0) } = c := by simp [FileCtx.sent, ← hfctx]
      have hcalls := exists_calls_eq_afterWrite env (fun m => { c with fctx := some (f.sent m) })
        (f.fBuffOffset - f.fRwoffset) (fun c => { c.connReset with state := .n2dio }) (m := 0)
        (fun m o => by simp [callState, hstate, Nat.sub_sub, FileCtx.sent, add_assoc]) env.writes rfl
      simp only [hsent] at hcalls
      simp only [stateMachine, hstate, hfctx]
      exact hcalls

lemma callStep_of_stopped (h : c.running = false ∨ c.Aborts) : c.callStep e = c := if_pos h

section

variable (hrunning : c.running = true)
include hrunning

lemma callStep_of_none (hlive : ¬ c.Aborts) (hloop : c.loop = .none) :
    c.callStep e = c.callState e := by
  rw [callStep, if_neg (not_or.2 ⟨by simp [hrunning], hlive⟩), hloop]

lemma callStep_of_loop (hlive : ¬ c.Aborts) (hloop : c.loop ≠ .none) :
    c.callStep e = (c.facing e.call).nioRunning e.env := by
  rw [callStep, if_neg (not_or.2 ⟨by simp [hrunning], hlive⟩)]
  split
  · next h => exact absurd h hloop
  · rfl

lemma callStep_of_header (hloop : c.loop = .header) :
    c.callStep e = (c.facing e.call).networkReadHeader := by
  have hloop' : (c.facing e.call).loop = .header := hloop
  rw [callStep_of_loop hrunning (by simp [Aborts, hloop]) (by simp [hloop]), nioRunning, hloop']

lemma callStep_of_body (hloop : c.loop = .body) :
    c.callStep e = (c.facing e.call).networkReadBody e.env := by
  have hloop' : (c.facing e.call).loop = .body := hloop
  rw [callStep_of_loop hrunning (by simp [Aborts, hloop]) (by simp [hloop]), nioRunning, hloop']

lemma callStep_of_fread {f : FileCtx} (hloop : c.loop = .fread)
    (hfctx : c.fctx = some f) : c.callStep e = (c.facing e.call).networkFread e.env := by
  have hloop' : (c.facing e.call).loop = .fread := hloop
  rw [callStep_of_loop hrunning (by simp [Aborts, hloop, hfctx]) (by simp [hloop]), nioRunning, hloop']

end

lemma Sound.writeCall {remain : ℕ} {took : ℕ → Conn} {next : Conn → Conn} (h : c.Sound)
    (hloop : c.loop = .none) (hnext : (next c).Sound) (htook : ∀ n, (took n).Sound) :
    (c.writeCall remain took next e).Sound := by
  unfold Conn.writeCall
  split_ifs
  · cases e.call.toWriteRes with
    | wrote n => exact htook _
    | again | error => exact h.afterWrite hloop hnext _
  · exact h.afterWrite hloop hnext _

lemma Sound.callState (h : c.Sound) (hloop : c.loop = .none) : (c.callState e).Sound := by
  have hnone {d : Conn} (hd : d.loop = c.loop) : d.loop ≠ .fread := by simp [hd, hloop]
  unfold Conn.callState
  split
  · next hstate =>
    refine h.writeCall hloop ?_ fun n => h.congr rfl rfl rfl rfl
    exact .of (Nat.zero_le 2) (by simp) (hnone rfl)
  · next hstate =>
    refine h.writeCall hloop ?_ fun n => h.congr rfl rfl rfl rfl
    refine .of h.alloc ?_ (hnone rfl)
    rcases h.mwrite hstate with hnext | hnext
    · simp [hnext]
    · simp [hnext]
  · next hstate =>
    cases c.fctx with
    | none => exact h
    | some f =>
      refine h.writeCall hloop ?_ fun n => h.congr rfl rfl rfl rfl
      exact .of (Nat.zero_le 2) (by simp) (hnone rfl)
  · exact h.stateMachine hloop

lemma Sound.callStep (h : c.Sound) (e : CallEnv) : (c.callStep e).Sound := by
  have hfacing : (c.facing e.call).Sound := h.congr rfl rfl rfl rfl
  unfold Conn.callStep
  split_ifs
  · exact h
  · cases hloop : c.loop with
    | none => exact h.callState hloop
    | header | body | fread => exact hfacing.nioRunning

/-- **A step that is not held in a trap** goes on, or the call comes back. -/
lemma closer_callStep (hsound : c.Sound) (hfree : ∀ i, Trapped i c → ¬ Holds i e) :
    Closer c (c.callStep e) := by
  have hlive : ¬ c.Aborts := fun h => hfree .abort h trivial
  -- the outcome in place changes nothing that the measure sees
  have hfacing {d : Conn} (h : Closer (c.facing e.call) d) : Closer c d := h
  by_cases hstopped : c.running = false
  · rw [callStep_of_stopped (.inl hstopped)]
    exact .inr hstopped
  have hrunning : c.running = true := by simpa using hstopped
  cases hloop : c.loop with
  | none =>
    rw [callStep_of_none hrunning hlive hloop]
    exact closer_callState hsound hrunning hloop hlive
  | header =>
    rw [callStep_of_header hrunning hloop]
    refine hfacing (closer_networkReadHeader hloop fun bs input hread => ?_)
    have htakes := CallRes.takes_of_readSock hread
    by_contra hpast
    exact hfree .header ⟨hrunning, hloop, Nat.le_of_not_lt hpast⟩ htakes
  | body =>
    rw [callStep_of_body hrunning hloop]
    exact hfacing (closer_networkReadBody (hsound.congr rfl rfl rfl rfl) hloop)
  | fread =>
    cases hfctx : c.fctx with
    | none => exact absurd ⟨hrunning, .inr ⟨hfctx, .inl hloop⟩⟩ hlive
    | some f =>
      rw [callStep_of_fread hrunning hloop hfctx]
      refine hfacing (closer_networkFread hloop hfctx fun hsize hbuff input hread => ?_)
      exact hfree .fread ⟨hrunning, hloop, f, hfctx, hsize, hbuff⟩ (CallRes.fails_of_readSock hread)

lemma Overrun.callStep_eq (h : c.Overrun) (htakes : e.call.Takes) :
    ∃ bs input, c.callStep e = { c.store bs with input := input } := by
  obtain ⟨bs, input, hread⟩ := htakes.exists_readSock (n := headerSize) (by decide)
  have hread' : readSock (some headerSize) (c.facing e.call).input = (.bytes bs, input) := hread
  have hpos := List.length_pos_of_ne_nil (ne_nil_of_readSock hread)
  have hpast : ¬ ((((c.facing e.call).rbytes + bs.length : ℕ) : ℤ) = (headerSize : ℕ)) := by
    have hpast := h.past
    show ¬ (((c.rbytes + bs.length : ℕ) : ℤ) = (headerSize : ℕ))
    omega
  refine ⟨bs, input, ?_⟩
  rw [callStep_of_header h.running h.loop, networkReadHeader, hread', networkReadTook, if_neg hpast]
  rfl

/-- The step that a call which waits for bytes of a file takes when the `read` fails. -/
lemma Receiving.callStep_eq (h : c.Receiving) (hfails : e.call.Fails) :
    ∃ input, c.callStep e = { c with input := input } := by
  obtain ⟨f, hfctx, hsize, hbuff⟩ := h.missing
  obtain ⟨input, hread⟩ := hfails.exists_readSock (n := fileBuffSize - f.fBuffOffset) (by omega)
  have hread' : readSock (some (fileBuffSize - f.fBuffOffset)) (c.facing e.call).input = (.error, input) :=
    hread
  have hfctx' : (c.facing e.call).fctx = some f := hfctx
  refine ⟨input, ?_⟩
  rw [callStep_of_fread h.running h.loop hfctx, networkFread, hfctx']
  dsimp only
  rw [networkFreadFile, if_neg (by omega), hread']
  rfl

lemma trapped_callStep {i : Trap} (h : Trapped i c) (hheld : Holds i e) :
    Trapped i (c.callStep e) ∧ (c.callStep e).phase = c.phase ∧ (c.callStep e).todo = c.todo := by
  cases i with
  | abort =>
    rw [callStep_of_stopped (.inr h)]
    exact ⟨h, rfl, rfl⟩
  | header =>
    obtain ⟨bs, input, heq⟩ := Overrun.callStep_eq h hheld
    obtain ⟨hrunning, hloop, hpast⟩ : c.Overrun := h
    rw [heq]
    refine ⟨⟨hrunning, hloop, ?_⟩, rfl, ?_⟩
    · show headerSize ≤ c.rbytes + bs.length
      omega
    · simp only [todo, store, hloop]
      omega
  | fread =>
    obtain ⟨input, heq⟩ := Receiving.callStep_eq h hheld
    obtain ⟨hrunning, hloop, hmissing⟩ : c.Receiving := h
    rw [heq]
    exact ⟨⟨hrunning, hloop, hmissing⟩, rfl, rfl⟩

lemma Overrun.not_aborts (h : c.Overrun) : ¬ c.Aborts := by
  simp [Aborts, h.loop]

lemma Receiving.not_aborts (h : c.Receiving) : ¬ c.Aborts := by
  obtain ⟨f, hfctx, -⟩ := h.missing
  simp [Aborts, h.loop, hfctx]

lemma Overrun.not_receiving (h : c.Overrun) : ¬ c.Receiving := fun h' =>
  absurd (h.loop.symm.trans h'.loop) (by decide)

lemma trapped_unique {i j : Trap} (hi : Trapped i c) (hj : Trapped j c) : i = j := by
  cases i with
  | abort =>
    cases j with
    | abort => rfl
    | header => exact absurd hi (Overrun.not_aborts hj)
    | fread => exact absurd hi (Receiving.not_aborts hj)
  | header =>
    cases j with
    | abort => exact absurd hj (Overrun.not_aborts hi)
    | header => rfl
    | fread => exact absurd hj (Overrun.not_receiving hi)
  | fread =>
    cases j with
    | abort => exact absurd hj (Receiving.not_aborts hi)
    | header => exact absurd hi (Overrun.not_receiving hj)
    | fread => rfl

lemma running_of_trapped {i : Trap} (h : Trapped i c) : c.running = true := by
  cases i with
  | abort => exact h.1
  | header => exact Overrun.running h
  | fread => exact Receiving.running h

/-! ### Calls -/

/-- The connection after `n` steps of a call of `__state_machine`. -/
def inCall (c : Conn) (envs : ℕ → CallEnv) (n : ℕ) : Conn := feed callStep c.enter envs n

variable {envs : ℕ → CallEnv}

lemma Sound.enter (h : c.Sound) : c.enter.Sound :=
  ⟨h.alloc, h.mwrite, fun hloop => absurd hloop (by simp [Conn.enter])⟩

lemma inCall_returns_iff (hsound : c.Sound) : (∃ n, (c.inCall envs n).running = false) ↔
      ∀ i k, Trapped i (c.inCall envs k) → ∃ n, k ≤ n ∧ ¬ Holds i (envs n) := by
  refine exists_feed_iff_of_traps (D := fun c => c.running = false) phase todo
    (fun _ e h => h.callStep e) ?_ ?_ ?_ ?_ ?_ hsound.enter
  · intro c e hreturned
    rw [callStep_of_stopped (.inl hreturned)]
    exact hreturned
  · intro c i hreturned htrapped
    exact absurd (running_of_trapped htrapped) (by simp [hreturned])
  · exact fun c i j hi hj => trapped_unique hi hj
  · exact fun c e i _ htrapped hheld => trapped_callStep htrapped hheld
  · exact fun c e hsound hfree => closer_callStep hsound hfree

/-- **A call of `__state_machine`** on any connection that a server gets to, with any outcomes of its calls
of `read` and `write`, comes back exactly if the process does not end in it and

* from no step on that finds the loop of `__network_read_header` past the end of a header does every
  `read` take bytes,
* from no step on that finds the loop of `__network_fread` waiting for bytes does every `read` fail with an
  `errno` other than `EAGAIN` and `EWOULDBLOCK`. -/
theorem stateMachine_returns_iff (c : Conn) (hsound : c.Sound) (envs : ℕ → CallEnv) :
    (∃ n, (c.inCall envs n).running = false) ↔ ∀ k, ¬ (c.inCall envs k).Aborts ∧
        ((c.inCall envs k).Overrun → ∃ n, k ≤ n ∧ ¬ (envs n).call.Takes) ∧
        ((c.inCall envs k).Receiving → ∃ n, k ≤ n ∧ ¬ (envs n).call.Fails) := by
  rw [inCall_returns_iff hsound]
  constructor
  · intro hout k
    refine ⟨fun haborts => ?_, hout .header k, hout .fread k⟩
    obtain ⟨n, -, hn⟩ := hout .abort k haborts
    exact hn trivial
  · intro hout i k htrapped
    obtain ⟨habort, hheader, hfread⟩ := hout k
    cases i with
    | abort => exact absurd htrapped habort
    | header => exact hheader htrapped
    | fread => exact hfread htrapped

/-- The outcome of a call of `read` that takes a header, with this command and for a body of `n` bytes. -/
def takesHeader (cmd n : Byte) : CallEnv :=
  ⟨.bytes n (List.replicate 7 0 ++ cmd :: List.replicate 7 0), .ok .nio⟩

/-- A call that comes back: a client asks for the number of binlogs, and the header is read in one piece. -/
theorem stateMachine_returns_mete :
    (connNew 1024 []).Sound ∧ ∀ k, ¬ ((connNew 1024 []).inCall (fun _ => takesHeader 0x36 0) k).Overrun := by
  refine ⟨sound_connNew 1024 [], fun k hoverrun => ?_⟩
  have hout := (stateMachine_returns_iff (connNew 1024 []) (sound_connNew 1024 [])
    fun _ => takesHeader 0x36 0).1 ⟨7, by decide +kernel⟩
  obtain ⟨n, -, hends⟩ := (hout k).2.1 hoverrun
  exact hends trivial

/-- A connection that has read the header of an upload. -/
def uploading : Conn := (connNew 1024 []).inCall (fun _ => takesHeader 0x12 144) 4

/-- The body of the upload, for a file of 10 bytes; then `read` fails with `ECONNRESET`. -/
def reset : ℕ → CallEnv
  | 1 => ⟨.bytes 0 (List.replicate 134 0 ++ 10 :: List.replicate 7 0 ++ [10]), .ok .nio⟩
  | _ => ⟨.fail 104, .ok .nio⟩

/-- The first half of a header, and then one header after the other. -/
def pipelined : ℕ → CallEnv
  | 1 => ⟨.bytes 0 (List.replicate 7 0), .ok .nio⟩
  | _ => takesHeader 0x36 0

/-- The call that reads the body of an upload does not come back when the client is gone, and neither does
one that reads a header in two pieces from a client that goes on sending. -/
theorem stateMachine_captured :
    uploading.running = false ∧ (¬ ∃ n, (uploading.inCall reset n).running = false) ∧
      ¬ ∃ n, ((connNew 1024 []).inCall pipelined n).running = false := by
  refine ⟨by decide +kernel, ?_, ?_⟩
  · have hsound : uploading.Sound := ⟨by decide +kernel, by decide +kernel, by decide +kernel⟩
    have hreceiving : (uploading.inCall reset 4).Receiving := by
      refine ⟨by decide +kernel, by decide +kernel, ?_⟩
      exact ⟨{ FileCtx.fileCtxNew with fSize := 10, fTotalSize := 10, job := .upload }, by decide +kernel⟩
    rw [inCall_returns_iff hsound]
    intro hout
    obtain ⟨n, hn, hlive⟩ := hout .fread 4 hreceiving
    match n, hn with
    | n + 4, _ => exact hlive ⟨by decide, by decide⟩
  · have hoverrun : ((connNew 1024 []).inCall pipelined 3).Overrun :=
      ⟨by decide +kernel, by decide +kernel, by decide +kernel⟩
    rw [inCall_returns_iff (sound_connNew 1024 [])]
    intro hout
    obtain ⟨n, hn, hends⟩ := hout .header 3 hoverrun
    match n, hn with
    | n + 3, _ => exact hends trivial

end Conn

end Lfs.Server
