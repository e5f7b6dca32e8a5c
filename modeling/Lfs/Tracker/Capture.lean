/-
Whether a call of `__state_machine` of a tracker comes back (`ts_thread.c`).

The outcomes of the calls are a stream, as for a dataserver.  The states come in an order from which
nothing goes back, and in each of them something gets smaller, except in three places: `conn_nread`
does nothing, `__network_write_noblock` takes a `write` that returns 0 or fails for good for one that
is not complete, and is called again, and the process ends where the assertion of `__parse_protocol_cmd`
fails.
-/
import Lfs.Lib.Stream
import Lfs.Server.Socket
import Lfs.Tracker.Conn

namespace Lfs.Tracker

open Lfs.Lib
open Lfs.Server (CallRes eintr ewouldblock)

/-- A call of `write` with this outcome makes no progress, and the connection does not wait for the
socket. -/
def Dead : CallRes → Prop
  | .bytes _ _ => False
  | .zero => True
  | .fail errno => errno ≠ eintr ∧ errno ≠ ewouldblock

lemma dead_iff (o : CallRes) : Dead o ↔ o.toWriteRes = .error := by
  cases o with
  | bytes b bs | zero => simp [Dead, CallRes.toWriteRes]
  | fail errno =>
    rw [Dead, CallRes.toWriteRes, ← not_or]
    split_ifs with h
    · simp [h]
    · simp [h]

/-- What is left to the environment in a step. -/
structure LoopEnv where
  /-- How the call of `read` or `write` ends, if there is one. -/
  call : CallRes
  /-- What is in `resp_status` when a command is not known. -/
  respStatus : Byte
  /-- The length of the reply of a handler that uses memory that is not there. -/
  wbytes : ℕ

namespace TrackerConn

/-- A call of `__state_machine` begins. -/
def enter (c : TrackerConn) : TrackerConn := { c with running := true, loop := none }

/-- How the loop goes on from where a value was used that is not defined.  For a command that is not known,
`resp_status` is what happens to be in it; any other handler is taken to come back with a reply. -/
def resume (e : LoopEnv) (c : TrackerConn) : TrackerConn :=
  if c.broken then
    match TrackerCmd.ofByte c.cmdByte with
    | none =>
      if e.respStatus = 0 then c
      else
        -- `handle_protocol_error`
        { c with
          wbuff := writeAt 0 (toLittleEndian 8 0 ++ [c.cmdByte, e.respStatus]) c.wbuff
          wbytes := sizeofHeader
          state := .write }
    | some _ => { c with wbytes := e.wbytes, state := .write }
  else c

variable (hashFunc : List Byte → UInt32) (heartBeatInterval : ℤ)

/-- One step of the call: a round of `__network_read` or one case of `__state_machine`.  A call that
has come back takes no more steps. -/
def loopStep (c : TrackerConn) (e : LoopEnv) : TrackerConn :=
  if c.running then
    { c with broken := false, input := [e.call.toReadEv], writes := [e.call.toWriteRes] }
    |>.next hashFunc heartBeatInterval |>.resume e
  else c

/-- The connection is in `conn_write`, with bytes left to write. -/
structure Writing (c : TrackerConn) : Prop where
  running : c.running = true
  loop : c.loop = none
  state : c.state = .write
  left : c.wused < c.wbytes

/-- The connection is in `conn_nread`. -/
structure Spinning (c : TrackerConn) : Prop where
  running : c.running = true
  loop : c.loop = none
  state : c.state = .nread

/-- The process ends here: the assertion of `__parse_protocol_cmd` fails. -/
structure Aborts (c : TrackerConn) : Prop where
  running : c.running = true
  loop : c.loop = none
  state : c.state = .parseCmd
  rbytes : c.rbytes = 0

/-- The states in which a call can stay for ever. -/
inductive Trap where
  | nread
  | abort
  | write

def Trap.state : Trap → TrackerConnState
  | .nread => .nread
  | .abort => .parseCmd
  | .write => .write

def Trapped : Trap → TrackerConn → Prop
  | .nread, c => c.Spinning
  | .abort, c => c.Aborts
  | .write, c => c.Writing

/-- The outcome of a call keeps `__state_machine` where it is. -/
def Holds : Trap → LoopEnv → Prop
  | .nread, _ => True
  | .abort, _ => True
  | .write, e => Dead e.call

/-- The place of a connection in the order of the states. -/
def phase (c : TrackerConn) : ℕ :=
  match c.loop with
  | some _ => 4
  | none =>
    match c.state with
    | .read => 5
    | .parseCmd => 3
    | .write => 2
    | .waiting => 1
    | .closed => 1
    | .nread => 0

def todo (c : TrackerConn) : ℕ :=
  match c.loop with
  | some l => 2 * (2 - l.allocsCount) + if c.rsize ≤ c.rbytes then 0 else 1
  | none =>
    match c.state with
    | .parseCmd => c.rbytes
    | .write => c.wbytes - c.wused
    | _ => 0

/-! ### Steps that go on -/

variable {hashFunc heartBeatInterval} {c c' : TrackerConn} {e : LoopEnv}

/-- The connection is further on than before, and not in `conn_nread`. -/
def GoesOn (c c' : TrackerConn) : Prop := Later phase todo c c' ∧ 0 < c'.phase

lemma goesOn_of_phase_lt (h : c'.phase < c.phase) (hpos : 0 < c'.phase) : GoesOn c c' :=
  ⟨.inl h, hpos⟩

lemma goesOn_of_todo_lt (h : c'.phase = c.phase) (hlt : c'.todo < c.todo) (hpos : 0 < c'.phase) :
    GoesOn c c' :=
  ⟨.inr ⟨h, hlt⟩, hpos⟩

/-- The step of a connection that is not broken, with its outcome in place. -/
def armed (c : TrackerConn) (e : LoopEnv) : TrackerConn :=
  { c with broken := false, input := [e.call.toReadEv], writes := [e.call.toWriteRes] }

lemma loopStep_of_loop {l : ReadLoop} (hrunning : c.running = true) (hloop : c.loop = some l) :
    c.loopStep hashFunc heartBeatInterval e = ((c.armed e).networkRead l).resume e := by
  simp only [loopStep, next, armed, hrunning, hloop, if_true, Bool.false_eq_true, if_false]

lemma loopStep_of_state (hrunning : c.running = true) (hloop : c.loop = none) :
    c.loopStep hashFunc heartBeatInterval e =
      ((c.armed e).stateMachine hashFunc heartBeatInterval).resume e := by
  simp only [loopStep, next, armed, hrunning, hloop, if_true, Bool.false_eq_true, if_false]

lemma resume_of_not_broken (h : c.broken = false) : c.resume e = c := if_neg (by simp [h])

/-- A call of `read` fills the buffer, or the loop of `__network_read` is left. -/
lemma networkReadTake_cases (l : ReadLoop) (c : TrackerConn) :
    (c.networkReadTake l).broken = c.broken ∧
      ((c.networkReadTake l).loop = some { l with received := true } ∧
          (c.networkReadTake l).rsize ≤ (c.networkReadTake l).rbytes ∨
        (c.networkReadTake l).loop = none ∧ ((c.networkReadTake l).state = .parseCmd ∨
          (c.networkReadTake l).state = .waiting ∨ (c.networkReadTake l).state = .closed)) := by
  rw [networkReadTake]
  rcases Server.readSock (some (c.rsize - c.rbytes)) c.input with ⟨res, input⟩
  cases res with
  | bytes bs =>
    dsimp only
    split_ifs with hfull
    · refine ⟨rfl, .inl ⟨rfl, ?_⟩⟩
      dsimp only
      omega
    · exact ⟨rfl, .inr ⟨rfl, .inl rfl⟩⟩
  | again =>
    refine ⟨rfl, .inr ⟨rfl, ?_⟩⟩
    dsimp only
    split_ifs
    · exact .inl rfl
    · exact .inr (.inl rfl)
  | eof | error => exact ⟨rfl, .inr ⟨rfl, .inr (.inr rfl)⟩⟩

lemma phase_of_left (hloop : c.loop = none)
    (hstate : c.state = .parseCmd ∨ c.state = .waiting ∨ c.state = .closed) :
    0 < c.phase ∧ c.phase < 4 := by
  rw [phase, hloop]
  rcases hstate with hstate | hstate | hstate <;> rw [hstate] <;> decide

lemma phase_of_loop {l : ReadLoop} (hloop : c.loop = some l) : c.phase = 4 := by rw [phase, hloop]

lemma goesOn_networkRead {l : ReadLoop} (hloop : c.loop = some l) :
    (c.networkRead l).broken = c.broken ∧ GoesOn c (c.networkRead l) := by
  have hphase := phase_of_loop hloop
  have hleft {c' : TrackerConn} (hloop' : c'.loop = none)
      (hstate : c'.state = .parseCmd ∨ c'.state = .waiting ∨ c'.state = .closed) : GoesOn c c' := by
    obtain ⟨hpos, hlt⟩ := phase_of_left hloop' hstate
    exact goesOn_of_phase_lt (hphase ▸ hlt) hpos
  have hround {c' : TrackerConn} {l' : ReadLoop} (hloop' : c'.loop = some l')
      (hlt : c'.todo < c.todo) : GoesOn c c' := by
    have hphase' := phase_of_loop hloop'
    exact goesOn_of_todo_lt (hphase'.trans hphase.symm) hlt (by omega)
  rw [networkRead]
  split_ifs with hfull halloc
  · exact ⟨rfl, hleft rfl (.inr (.inr rfl))⟩
  · have hcases := networkReadTake_cases { l with allocsCount := l.allocsCount + 1 }
      { c with rcurr := 0, rsize := c.rsize * 2 }
    generalize networkReadTake { l with allocsCount := l.allocsCount + 1 }
      { c with rcurr := 0, rsize := c.rsize * 2 } = c' at hcases ⊢
    obtain ⟨hbroken, ⟨hloop', hrsize⟩ | ⟨hloop', hstate⟩⟩ := hcases
    · refine ⟨hbroken, hround hloop' ?_⟩
      simp only [todo, hloop, hloop', if_pos hfull, if_pos hrsize]
      omega
    · exact ⟨hbroken, hleft hloop' hstate⟩
  · obtain ⟨hbroken, ⟨hloop', hrsize⟩ | ⟨hloop', hstate⟩⟩ := networkReadTake_cases l c
    · refine ⟨hbroken, hround hloop' ?_⟩
      simp only [todo, hloop, hloop', if_neg hfull, if_pos hrsize]
      omega
    · exact ⟨hbroken, hleft hloop' hstate⟩

/-- A command is answered, or the connection is closed, or nothing has happened because the command is
not known. -/
def Dispatched (c c' : TrackerConn) : Prop :=
  c'.loop = none ∧
    (c'.state = .write ∨ c'.state = .closed ∨ c'.state = c.state ∧ c'.rbytes = c.rbytes)

section

variable (hloop : c.loop = none)
include hloop

lemma dispatched_resume : Dispatched c ({ c with broken := true }.resume e) := by
  rw [resume, if_pos rfl]
  split
  · split_ifs
    · exact ⟨hloop, .inr (.inr ⟨rfl, rfl⟩)⟩
    · exact ⟨hloop, .inl rfl⟩
  · exact ⟨hloop, .inl rfl⟩

lemma dispatched_dispatchCmd (hbroken : c.broken = false) :
    Dispatched c ((c.dispatchCmd hashFunc heartBeatInterval).resume e) := by
  rw [dispatchCmd]
  split
  · exact dispatched_resume hloop
  · next h _ =>
    by_cases hfits : h.Fits c.wsize
    · rw [if_pos hfits, resume_of_not_broken (by exact hbroken)]
      cases hcloses : h.closes with
      | true => exact ⟨hloop, .inr (.inl rfl)⟩
      | false => exact ⟨hloop, .inl rfl⟩
    · rw [if_neg hfits]
      exact dispatched_resume hloop

lemma phase_parseCmd (hstate : c.state = .parseCmd) : c.phase = 3 := by
  rw [phase, hloop, hstate]

lemma todo_parseCmd (hstate : c.state = .parseCmd) : c.todo = c.rbytes := by
  rw [todo, hloop, hstate]

/-- A call of `__parse_protocol_cmd`.  A command that is not known takes a header off the bytes that are
there. -/
lemma goesOn_parseProtocolCmd (hstate : c.state = .parseCmd)
    (hbroken : c.broken = false) (hrbytes : c.rbytes ≠ 0) :
    GoesOn c ((c.parseProtocolCmd hashFunc heartBeatInterval).resume e) := by
  have hphase := phase_parseCmd hloop hstate
  have hlater {c' : TrackerConn} (hloop' : c'.loop = none)
      (hstate' : c'.state = .write ∨ c'.state = .waiting ∨ c'.state = .closed) : GoesOn c c' := by
    have hphase' : 0 < c'.phase ∧ c'.phase < 3 := by
      rw [phase, hloop']
      rcases hstate' with hstate' | hstate' | hstate' <;> rw [hstate'] <;> decide
    exact goesOn_of_phase_lt (by omega) hphase'.1
  rw [parseProtocolCmd, if_neg hrbytes]
  split_ifs with hshort hlarge hwhole
  · rw [resume_of_not_broken (by exact hbroken)]
    exact hlater hloop (.inr (.inl rfl))
  · rw [resume_of_not_broken (by exact hbroken)]
    exact hlater hloop (.inl rfl)
  · dsimp only
    set c₁ : TrackerConn := { c with
      rbytes := c.rbytes - sizeofHeader
      rcurr := sizeofHeader
      dispatched := c.dispatched ++ [(cmdByte _, rbuffAt sizeofHeader (c.rbytes - sizeofHeader) _)] }
    obtain ⟨hloop', hwrite | hclosed | ⟨hstate', hrbytes⟩⟩ :=
      @dispatched_dispatchCmd hashFunc heartBeatInterval c₁ e hloop hbroken
    · exact hlater hloop' (.inl hwrite)
    · exact hlater hloop' (.inr (.inr hclosed))
    · have hparse := hstate'.trans hstate
      have hphase' := phase_parseCmd hloop' hparse
      refine goesOn_of_todo_lt (hphase'.trans hphase.symm) ?_ (by omega)
      have hheader : 0 < sizeofHeader := by decide
      have hrbytes : _ = c.rbytes - sizeofHeader := hrbytes
      rw [todo_parseCmd hloop' hparse, todo_parseCmd hloop hstate, hrbytes]
      omega
  · rw [resume_of_not_broken (by exact hbroken)]
    exact hlater hloop (.inr (.inl rfl))

/-- A call of `__network_write_noblock` that writes something, waits for the socket or finds nothing left
to write. -/
lemma goesOn_networkWriteNoblock (hstate : c.state = .write)
    {o : CallRes} (hwrites : c.writes = [o.toWriteRes]) (hgo : c.wused < c.wbytes → ¬ Dead o) :
    c.networkWriteNoblock.broken = c.broken ∧
      (c.networkWriteNoblock.running = false ∨ GoesOn c c.networkWriteNoblock) := by
  have hphase : c.phase = 2 := by rw [phase, hloop, hstate]
  rw [networkWriteNoblock]
  dsimp only
  split_ifs with hleft
  · rw [hwrites]
    cases ho : o.toWriteRes with
    | wrote n =>
      refine ⟨rfl, .inr (goesOn_of_todo_lt ?_ ?_ ?_)⟩
      · simp only [phase, wrote, hloop, hstate]
      · simp only [todo, wrote, hloop, hstate]
        omega
      · simp only [phase, wrote, hloop, hstate]
        omega
    | again => exact ⟨rfl, .inl rfl⟩
    | error => exact absurd ((dead_iff o).2 ho) (hgo (by omega))
  · refine ⟨rfl, .inr (goesOn_of_phase_lt ?_ ?_)⟩
    · rw [hphase]
      simp only [phase, connReset, hloop]
      decide
    · simp only [phase, connReset, hloop]
      decide

end

variable (hashFunc heartBeatInterval) in
/-- **A step that is not held in a trap** goes on, or the call comes back. -/
lemma loopStep_goesOn (hrunning : c.running = true) (hfree : ∀ i, Trapped i c → ¬ Holds i e) :
    (c.loopStep hashFunc heartBeatInterval e).running = false ∨
      GoesOn c (c.loopStep hashFunc heartBeatInterval e) := by
  -- the outcome in place changes nothing that the measure sees
  have harmed {c' : TrackerConn} (h : GoesOn (c.armed e) c') : GoesOn c c' := h
  cases hloop : c.loop with
  | some l =>
    rw [loopStep_of_loop hrunning hloop]
    obtain ⟨hbroken, hround⟩ := @goesOn_networkRead (c.armed e) l hloop
    rw [resume_of_not_broken (hbroken.trans rfl)]
    exact .inr (harmed hround)
  | none =>
    have hloop' : (c.armed e).loop = none := hloop
    rw [loopStep_of_state hrunning hloop, stateMachine]
    cases hstate : c.state with
    | waiting =>
      have hstate' : (c.armed e).state = .waiting := hstate
      rw [hstate']
      exact .inl rfl
    | read =>
      have hstate' : (c.armed e).state = .read := hstate
      rw [hstate']
      rw [resume_of_not_broken rfl]
      have hphase : c.phase = 5 := by rw [phase, hloop, hstate]
      exact .inr (goesOn_of_phase_lt (hphase ▸ Nat.lt_succ_self 4) (Nat.succ_pos 3))
    | nread => exact absurd trivial (hfree .nread ⟨hrunning, hloop, hstate⟩)
    | parseCmd =>
      have hstate' : (c.armed e).state = .parseCmd := hstate
      rw [hstate']
      have hrbytes : c.rbytes ≠ 0 := fun h => hfree .abort ⟨hrunning, hloop, hstate, h⟩ trivial
      exact .inr (harmed (goesOn_parseProtocolCmd hloop' hstate' rfl hrbytes))
    | write =>
      have hstate' : (c.armed e).state = .write := hstate
      have halive (hleft : (c.armed e).wused < (c.armed e).wbytes) : ¬ Dead e.call :=
        hfree .write ⟨hrunning, hloop, hstate, hleft⟩
      rw [hstate']
      dsimp only
      obtain ⟨hbroken, hwrite⟩ := goesOn_networkWriteNoblock hloop' hstate' rfl halive
      rw [resume_of_not_broken (hbroken.trans rfl)]
      exact hwrite.imp_right harmed
    | closed =>
      have hstate' : (c.armed e).state = .closed := hstate
      rw [hstate']
      exact .inl rfl

variable (hashFunc heartBeatInterval) in
lemma Spinning.loopStep_eq (h : c.Spinning) (e : LoopEnv) :
    c.loopStep hashFunc heartBeatInterval e = c.armed e := by
  have hstate : (c.armed e).state = .nread := h.state
  rw [loopStep_of_state h.running h.loop, stateMachine, hstate]
  rfl

variable (hashFunc heartBeatInterval) in
lemma Aborts.loopStep_eq (h : c.Aborts) (e : LoopEnv) :
    c.loopStep hashFunc heartBeatInterval e = c.armed e := by
  have hstate : (c.armed e).state = .parseCmd := h.state
  rw [loopStep_of_state h.running h.loop, stateMachine, hstate]
  dsimp only
  rw [parseProtocolCmd, if_pos (show (c.armed e).rbytes = 0 from h.rbytes)]
  rfl

variable (hashFunc heartBeatInterval) in
lemma Writing.loopStep_eq (h : c.Writing) (hdead : Dead e.call) :
    c.loopStep hashFunc heartBeatInterval e = { c.armed e with writes := [] } := by
  have hstate : (c.armed e).state = .write := h.state
  have hleft : 0 < (c.armed e).wbytes - (c.armed e).wused := Nat.sub_pos_of_lt h.left
  have hwrites : (c.armed e).writes = [.error] := congrArg (fun w => [w]) ((dead_iff _).1 hdead)
  rw [loopStep_of_state h.running h.loop, stateMachine, hstate]
  dsimp only
  rw [networkWriteNoblock]
  dsimp only
  rw [if_pos hleft, hwrites]
  rfl

variable (hashFunc heartBeatInterval) in
lemma trapped_loopStep {i : Trap} (h : Trapped i c) (hheld : Holds i e) :
    Trapped i (c.loopStep hashFunc heartBeatInterval e) ∧
      (c.loopStep hashFunc heartBeatInterval e).phase = c.phase ∧
      (c.loopStep hashFunc heartBeatInterval e).todo = c.todo := by
  cases i with
  | nread =>
    rw [Spinning.loopStep_eq hashFunc heartBeatInterval h e]
    obtain ⟨hrunning, hloop, hstate⟩ : c.Spinning := h
    exact ⟨⟨hrunning, hloop, hstate⟩, rfl, rfl⟩
  | abort =>
    rw [Aborts.loopStep_eq hashFunc heartBeatInterval h e]
    obtain ⟨hrunning, hloop, hstate, hrbytes⟩ : c.Aborts := h
    exact ⟨⟨hrunning, hloop, hstate, hrbytes⟩, rfl, rfl⟩
  | write =>
    rw [Writing.loopStep_eq hashFunc heartBeatInterval h hheld]
    obtain ⟨hrunning, hloop, hstate, hleft⟩ : c.Writing := h
    exact ⟨⟨hrunning, hloop, hstate, hleft⟩, rfl, rfl⟩

lemma state_of_trapped {i : Trap} (h : Trapped i c) : c.running = true ∧ c.state = i.state := by
  cases i with
  | nread => exact ⟨Spinning.running h, Spinning.state h⟩
  | abort => exact ⟨Aborts.running h, Aborts.state h⟩
  | write => exact ⟨Writing.running h, Writing.state h⟩

lemma trapped_unique {i j : Trap} (hi : Trapped i c) (hj : Trapped j c) : i = j := by
  have hstate : i.state = j.state := (state_of_trapped hi).2.symm.trans (state_of_trapped hj).2
  revert hstate
  cases i <;> cases j <;> simp [Trap.state]

lemma Spinning.of_step (h : (c.loopStep hashFunc heartBeatInterval e).Spinning) : c.Spinning := by
  by_cases hrunning : c.running = true
  · by_cases hheld : ∃ i, Trapped i c ∧ Holds i e
    · obtain ⟨i, hi, hheld⟩ := hheld
      have htrapped := (trapped_loopStep hashFunc heartBeatInterval hi hheld).1
      obtain rfl : i = .nread := trapped_unique htrapped h
      exact hi
    · rcases loopStep_goesOn hashFunc heartBeatInterval hrunning fun i hi hh => hheld ⟨i, hi, hh⟩ with
        hreturned | ⟨-, hpos⟩
      · exact absurd h.running (by simp [hreturned])
      · rw [phase, h.loop, h.state] at hpos
        exact absurd hpos (by decide)
  · have hsame : c.loopStep hashFunc heartBeatInterval e = c := if_neg hrunning
    rwa [hsame] at h

/-! ### Calls -/

/-- The connection after `n` steps of a call. -/
def inCall (hashFunc : List Byte → UInt32) (heartBeatInterval : ℤ) (c : TrackerConn)
    (env : ℕ → LoopEnv) (n : ℕ) : TrackerConn :=
  feed (loopStep hashFunc heartBeatInterval) c.enter env n

variable {env : ℕ → LoopEnv}

lemma inCall_returns_iff : (∃ n, (c.inCall hashFunc heartBeatInterval env n).running = false) ↔
      ∀ i k, Trapped i (c.inCall hashFunc heartBeatInterval env k) → ∃ n, k ≤ n ∧ ¬ Holds i (env n) := by
  refine exists_feed_iff_of_traps (I := fun _ => True) (D := fun c => c.running = false) phase todo
    (fun _ _ _ => trivial) ?_ ?_ ?_ ?_ ?_ trivial
  · intro c e hreturned
    rw [loopStep, if_neg (by simp [hreturned])]
    exact hreturned
  · intro c i hreturned htrapped
    exact absurd (state_of_trapped htrapped).1 (by simp [hreturned])
  · exact fun c i j hi hj => trapped_unique hi hj
  · exact fun c e i _ htrapped hheld => trapped_loopStep hashFunc heartBeatInterval htrapped hheld
  · intro c e _ hfree
    by_cases hrunning : c.running = true
    · exact (loopStep_goesOn hashFunc heartBeatInterval hrunning hfree).symm.imp_left And.left
    · right
      rw [loopStep, if_neg hrunning]
      exact Bool.eq_false_iff.2 hrunning

lemma state_of_spinning_inCall {n : ℕ} (h : (c.inCall hashFunc heartBeatInterval env n).Spinning) :
    c.state = .nread := by
  induction n with
  | zero => exact h.state
  | succ n ih => exact ih h.of_step

/-- **A call of `__state_machine`** on any connection, with any outcomes of its calls of `read` and
`write`, comes back exactly if the connection is not in `conn_nread`, the assertion of
`__parse_protocol_cmd` does not fail, and the call does not get to write to a socket that is dead from then
on: one on which every further call returns 0 or fails with an `errno` other than `EINTR` and
`EWOULDBLOCK`. -/
theorem call_returns_iff (hashFunc : List Byte → UInt32) (heartBeatInterval : ℤ) (c : TrackerConn)
    (env : ℕ → LoopEnv) :
    (∃ n, (c.inCall hashFunc heartBeatInterval env n).running = false) ↔
      c.state ≠ .nread ∧ ∀ k, ¬ (c.inCall hashFunc heartBeatInterval env k).Aborts ∧
        ((c.inCall hashFunc heartBeatInterval env k).Writing → ∃ n, k ≤ n ∧ ¬ Dead (env n).call) := by
  rw [inCall_returns_iff]
  constructor
  · intro hout
    refine ⟨fun hnread => ?_, fun k => ⟨fun habort => ?_, hout .write k⟩⟩
    · obtain ⟨n, -, hn⟩ := hout .nread 0 ⟨rfl, rfl, hnread⟩
      exact hn trivial
    · obtain ⟨n, -, hn⟩ := hout .abort k habort
      exact hn trivial
  · rintro ⟨hnread, halive⟩ i k htrapped
    cases i with
    | nread => exact absurd (state_of_spinning_inCall htrapped) hnread
    | abort => exact absurd htrapped (halive k).1
    | write => exact (halive k).2 htrapped

/-- A client that sends a header with a length of `2 ^ 64 - 1` and is gone: `write` fails with `EPIPE`. -/
def goneClient : ℕ → LoopEnv
  | 1 => ⟨.bytes 255 (List.replicate 15 255), 0, 0⟩
  | _ => ⟨.fail 32, 0, 0⟩

/-- The call that reads the header never comes back. -/
theorem call_captured : ¬ ∃ n,
    ((connNew 4096 (fun _ => 0) fun _ => 0).inCall (fun _ => 0) 30 goneClient n).running = false := by
  have hdead (n : ℕ) (hn : 3 ≤ n) : Dead (goneClient n).call := by
    match n, hn with
    | n + 3, _ => exact ⟨by decide, by decide⟩
  have hwriting : ((connNew 4096 (fun _ => 0) fun _ => 0).inCall (fun _ => 0) 30 goneClient 3).Writing :=
    ⟨by decide +kernel, by decide +kernel, by decide +kernel, by decide +kernel⟩
  rw [inCall_returns_iff]
  intro hout
  obtain ⟨n, hn, halive⟩ := hout .write 3 hwriting
  exact halive (hdead n hn)

end TrackerConn

end Lfs.Tracker
