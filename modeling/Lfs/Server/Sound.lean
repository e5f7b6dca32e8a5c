/-
What holds of a connection of a dataserver after every step.

The read buffer has grown at most twice for a request.  From `conn_mwrite` a connection goes on to a dio
thread or to `__network_fsend`, since only the handlers set this state and they set `nextto` with it.  A
connection in the loop of `__network_fread` is not in a state in which requests are collected.  The
handlers of all known commands leave `conn_parse_cmd`, and the dio threads lead to no state in which a
request is collected.
-/
import Lfs.Lib.Run
import Lfs.Server.Machine

namespace Lfs.Server

open Lfs.Lib

namespace Conn

variable {c c' : Conn} {env : StepEnv}

/-- A state in which a request is collected. -/
def RequestState (s : ConnState) : Prop := s = .waiting ∨ s = .read ∨ s = .parseCmd

instance : DecidablePred RequestState := fun _ => inferInstanceAs (Decidable (_ ∨ _))

/-- What holds of a connection after every step. -/
structure Sound (c : Conn) : Prop where
  alloc : c.allocCount ≤ 2
  mwrite : c.state = .mwrite → c.nextto = .n2dio ∨ c.nextto = .fsend
  fread : c.loop = .fread → ¬ RequestState c.state

lemma Sound.of (halloc : c.allocCount ≤ 2) (hstate : c.state ≠ .mwrite) (hloop : c.loop ≠ .fread) :
    c.Sound :=
  ⟨halloc, fun h => absurd h hstate, fun h => absurd h hloop⟩

lemma Sound.congr (h : c.Sound) (halloc : c'.allocCount = c.allocCount) (hstate : c'.state = c.state)
    (hnextto : c'.nextto = c.nextto) (hloop : c'.loop = c.loop) : c'.Sound := by
  refine ⟨halloc ▸ h.alloc, fun hs => ?_, fun hl => ?_⟩
  · rw [hnextto]
    exact h.mwrite (hstate.symm.trans hs)
  · rw [hstate]
    exact h.fread (hloop.symm.trans hl)

/-! ### The handlers -/

/-- Where a command leads: to the file of an upload, to the response, or to the response before a file. -/
def Answers (c : Conn) : Prop :=
  c.state = .fread ∨ c.state = .write ∨ c.state = .mwrite ∧ (c.nextto = .n2dio ∨ c.nextto = .fsend)

lemma answers_handleCmd (cmd : Cmd) (h : (c.handleCmd env cmd).2 = .success) :
    (c.handleCmd env cmd).1.Answers := by
  cases cmd with
  | fileUpload =>
    simp only [handleCmd, handleCmdFileupload] at h ⊢
    split_ifs at h ⊢
    exact .inl rfl
  | fileDownload =>
    simp only [handleCmd, handleCmdFiledownload] at h ⊢
    split_ifs at h ⊢
    exact .inr (.inr ⟨rfl, .inl rfl⟩)
  | asyncCopyFile =>
    simp only [handleCmd, handleCmdAsynccopyfile] at h ⊢
    split_ifs at h ⊢
    exact .inl rfl
  | fullSyncGetMasterBinlogMete => exact .inr (.inl rfl)
  | fullSyncCopyMasterBinlog =>
    simp only [handleCmd, handleCmdCopymasterbinlog] at h ⊢
    split_ifs at h ⊢
    cases hstat : env.stat with
    | none =>
      rw [hstat] at h
      cases h
    | some size => exact .inr (.inr ⟨rfl, .inr rfl⟩)
  | fullSyncCopyMasterData =>
    simp only [handleCmd, handleCmdCopymasterdata] at h ⊢
    split_ifs at h ⊢
    cases hstat : env.stat with
    | none =>
      rw [hstat] at h
      cases h
    | some size => exact .inr (.inr ⟨rfl, .inr rfl⟩)

/-- A known command leaves `conn_parse_cmd`; one that is not known leaves everything as it is. -/
lemma dispatchCmd_cases (c : Conn) (env : StepEnv) :
    Cmd.ofByte c.cmd = none ∧ c.dispatchCmd env = c ∨
      Cmd.ofByte c.cmd ≠ none ∧ (c.dispatchCmd env).Answers := by
  unfold dispatchCmd
  cases hcmd : Cmd.ofByte c.cmd with
  | none => exact .inl ⟨rfl, rfl⟩
  | some cmd =>
    refine .inr ⟨by simp, ?_⟩
    dsimp only
    split_ifs with hstatus
    · exact answers_handleCmd cmd hstatus
    · exact .inr (.inl rfl)

lemma Answers.sound (h : c.Answers) (halloc : c.allocCount ≤ 2) (hloop : c.loop ≠ .fread) : c.Sound := by
  refine ⟨halloc, fun hs => ?_, fun hl => absurd hl hloop⟩
  rcases h with h | h | h
  · exact absurd (h.symm.trans hs) (by decide)
  · exact absurd (h.symm.trans hs) (by decide)
  · exact h.2

/-! ### The steps of the nio thread -/

lemma Sound.networkReadEnd (h : c.allocCount ≤ 2) (r : NetworkReadResult) :
    (c.networkReadEnd r).Sound := by
  cases r <;> exact .of h (by simp [Conn.networkReadEnd]) (by simp [Conn.networkReadEnd])

section

variable (h : c.Sound)
include h

lemma Sound.networkReadTook (total : ℤ) (r : ReadRes × List ReadEv) : (c.networkReadTook total r).Sound := by
  obtain ⟨bs | _ | _ | _, input⟩ := r
  · simp only [Conn.networkReadTook]
    split_ifs
    · exact .networkReadEnd (by exact h.alloc) _
    · exact h.congr rfl rfl rfl rfl
  · exact Sound.networkReadEnd (c := { c with input := input }) h.alloc .noDataReceived
  · exact Sound.networkReadEnd (c := { c with input := input }) h.alloc .hardError
  · exact Sound.networkReadEnd (c := { c with input := input }) h.alloc .hardError

lemma Sound.networkReadBody : (c.networkReadBody env).Sound := by
  have halloc := h.alloc
  unfold Conn.networkReadBody
  split_ifs with hfull hcount hrealloc
  · exact h.networkReadTook _ _
  · exact .networkReadEnd (by exact halloc) _
  · refine Sound.networkReadTook ?_ _ _
    exact ⟨by dsimp only; omega, h.mwrite, h.fread⟩
  · exact .networkReadEnd (by dsimp only; omega) _

lemma Sound.networkRead (hstate : c.state = .read) : c.networkRead.Sound := by
  unfold Conn.networkRead
  split_ifs
  · exact .of h.alloc (by simp [hstate]) (by simp)
  · exact .networkReadEnd (by exact h.alloc) _
  · exact .of h.alloc (by simp [hstate]) (by simp)

lemma Sound.networkFread : (c.networkFread env).Sound := by
  refine networkFread_rule (fun _ _ => h.congr rfl rfl rfl rfl) (fun _ _ => ?_) (fun _ => ?_)
    fun input => ?_
  · exact .of h.alloc (by simp [networkFreadEnd]) (by simp [networkFreadEnd])
  · exact .of h.alloc (by simp [networkFreadEnd]) (by simp [networkFreadEnd])
  · obtain ⟨flags, registered, r, rfl | rfl, heq⟩ := networkFreadAgain_eq { c with input := input } env
    · rw [heq]
      exact ⟨h.alloc, h.mwrite, fun hl => absurd hl (by simp [networkFreadEnd])⟩
    · rw [heq]
      exact .of h.alloc (by simp [networkFreadEnd]) (by simp [networkFreadEnd])

lemma Sound.afterWrite {next : Conn → Conn} (hloop : c.loop = .none)
    (hnext : (next c).Sound) (e : WriteEnd) :
    (afterWrite next (c.networkWriteEnd env e)).Sound := by
  rcases afterWrite_eq next c env e with ⟨-, heq⟩ | ⟨flags, registered, heq | heq⟩
  · rw [heq]
    exact hnext
  · rw [heq]
    exact h.congr rfl rfl rfl rfl
  · rw [heq]
    exact .of h.alloc (by simp) (by simp [hloop])

lemma Sound.parseProtocolCmd (hloop : c.loop = .none) (hstate : c.state = .parseCmd) :
    (c.parseProtocolCmd env).Sound := by
  have hnone (d : Conn) (hd : d.loop = c.loop) : d.loop ≠ .fread := by simp [hd, hloop]
  unfold Conn.parseProtocolCmd
  split_ifs
  · exact .of h.alloc (by simp) (hnone _ rfl)
  · set d : Conn := { c with
      rbytes := c.rbytes - headerSize
      rcurr := headerSize
      dispatched := c.dispatched ++ [(c.cmd, c.bytesAt headerSize c.bodyLen)] }
    rcases dispatchCmd_cases d env with ⟨-, heq⟩ | ⟨-, hanswers⟩
    · rw [heq]
      exact .of h.alloc (by simp [d, hstate]) (hnone d rfl)
    · obtain ⟨_, _, _, _, _, hdispatch⟩ := @dispatchCmd_eq d env
      exact hanswers.sound (by rw [hdispatch]; exact h.alloc) (by rw [hdispatch]; exact hnone d rfl)
  · exact .of h.alloc (by simp) (hnone _ rfl)

lemma Sound.stateMachine (hloop : c.loop = .none) : (c.stateMachine env).Sound := by
  have hnone (d : Conn) (hd : d.loop = c.loop) : d.loop ≠ .fread := by simp [hd, hloop]
  unfold Conn.stateMachine
  cases hstate : c.state with
  | waiting =>
    obtain ⟨flags, registered, ok, hupdate⟩ := updateConnEvent_eq c .read env
    simp only [hupdate]
    exact .of h.alloc (by simp) (hnone _ rfl)
  | read => exact h.networkRead hstate
  | fread => exact ⟨h.alloc, fun hs => absurd hs (by simp), fun _ => by simp [RequestState]⟩
  | parseCmd => exact h.parseProtocolCmd hloop hstate
  | write =>
    refine Sound.afterWrite (by exact h.congr rfl rfl rfl rfl) (by exact hloop) ?_ _
    exact .of (Nat.zero_le 2) (by simp) (hnone _ rfl)
  | fwrite =>
    cases c.fctx with
    | none => exact h
    | some f =>
      refine Sound.afterWrite (by exact h.congr rfl rfl rfl rfl) (by exact hloop) ?_ _
      exact .of (Nat.zero_le 2) (by simp) (hnone _ rfl)
  | fsend =>
    dsimp only
    split_ifs
    · exact .of (Nat.zero_le 2) (by simp) (hnone _ rfl)
    · exact .of h.alloc (by simp) (hnone _ rfl)
  | mwrite =>
    refine Sound.afterWrite (by exact h.congr rfl rfl rfl rfl) (by exact hloop) ?_ _
    refine .of h.alloc ?_ (hnone _ rfl)
    rcases h.mwrite hstate with hnext | hnext
    · simp [hnext]
    · simp [hnext]
  | n2dio =>
    cases c.fctx with
    | none => exact h
    | some f =>
      dsimp only
      unfold dioThreadPoolDispatch
      split_ifs
      · exact h.congr rfl rfl rfl rfl
      · exact .of h.alloc (by simp) (hnone _ rfl)
  | closed => exact .of (Nat.zero_le 2) (by simp [connClose]) (hnone _ rfl)

lemma Sound.nioRunning : (c.nioRunning env).Sound := by
  unfold Conn.nioRunning
  cases hloop : c.loop with
  | none => exact h.stateMachine hloop
  | header => exact h.networkReadTook _ _
  | body => exact h.networkReadBody
  | fread => exact h.networkFread

end

/-! ### The other steps -/

/-- The read buffer, with what is kept of its use. -/
def reader (c : Conn) : List Byte × ℕ × ℕ × ℕ × ℕ :=
  (c.rbuff, c.rcurr, c.rbytes, c.rsize, c.allocCount)

/-- What a dio thread leaves alone, and the states that it sets. -/
structure DioMoves (c c' : Conn) : Prop where
  loop : c'.loop = c.loop
  nextto : c'.nextto = c.nextto
  reader : c'.reader = c.reader
  state : c'.state = c.state ∨ c'.state = .write ∨ c'.state = .fwrite ∨ c'.state = .fread

lemma DioMoves.refl (c : Conn) : DioMoves c c := ⟨rfl, rfl, rfl, .inl rfl⟩

lemma dioMoves_writeDoneCallback {d : Conn} (hloop : d.loop = c.loop) (hnextto : d.nextto = c.nextto)
    (hreader : d.reader = c.reader) (hstate : d.state = c.state) (done : Bool) (f : FileCtx) :
    DioMoves c (d.writeDoneCallback env done f) := by
  unfold writeDoneCallback fileUploadDoneCallback asyncfileDoneCallback
  split_ifs
  all_goals first
    | exact ⟨hloop, hnextto, hreader, .inr (.inl rfl)⟩
    | exact ⟨hloop, hnextto, hreader, .inl hstate⟩

lemma dioMoves_dioThread (c : Conn) (env : StepEnv) : DioMoves c (c.dioThread env) := by
  have hwrite (f : FileCtx) : DioMoves c (c.dioqPop.dioWrite env f) := by
    unfold dioWrite
    split_ifs
    · exact ⟨rfl, rfl, rfl, .inr (.inr (.inr rfl))⟩
    · apply dioMoves_writeDoneCallback <;> rfl
    · apply dioMoves_writeDoneCallback <;> rfl
  have hread (f : FileCtx) : DioMoves c (c.dioqPop.dioRead env f) := by
    unfold dioRead fileDownloadDoneCallback
    split_ifs
    all_goals first
      | exact ⟨rfl, rfl, rfl, .inr (.inl rfl)⟩
      | exact ⟨rfl, rfl, rfl, .inr (.inr (.inl rfl))⟩
      | exact ⟨rfl, rfl, rfl, .inl rfl⟩
  unfold dioThread
  split
  · exact .refl c
  · split_ifs
    · exact .refl c
    · split
      · exact .refl c
      · exact hread _
      · exact hwrite _
      · exact hwrite _

lemma Sound.dioThread (h : c.Sound) : (c.dioThread env).Sound := by
  obtain ⟨hloop, hnextto, hreader, hstate⟩ := dioMoves_dioThread c env
  have halloc : (c.dioThread env).allocCount = c.allocCount :=
    congrArg (fun r => r.2.2.2.2) hreader
  rcases hstate with hstate | hstate
  · exact h.congr halloc hstate hnextto hloop
  · refine ⟨halloc ▸ h.alloc, fun hs => ?_, fun _ hr => ?_⟩
    · rw [hs] at hstate
      exact absurd hstate (by decide)
    · rcases hstate with hstate | hstate | hstate <;> rw [hstate] at hr <;> exact absurd hr (by decide)

lemma nioIdle_eq (c : Conn) (env : StepEnv) :
    ∃ running input, c.nioIdle env = { c with running := running, input := input } := by
  unfold nioIdle
  split_ifs
  · exact ⟨c.running, c.input, rfl⟩
  · split
    · exact ⟨env.writable, c.input, rfl⟩
    · exact ⟨c.running, c.input, rfl⟩
    · exact ⟨c.running, _, rfl⟩
    · exact ⟨c.running, _, rfl⟩
    · exact ⟨true, c.input, rfl⟩

lemma Sound.step (h : c.Sound) (env : StepEnv) : (c.step env).Sound := by
  unfold Conn.step
  cases env.actor with
  | nio =>
    dsimp only
    split_ifs
    · exact h.nioRunning
    · obtain ⟨running, input, hidle⟩ := nioIdle_eq c env
      rw [hidle]
      exact h.congr rfl rfl rfl rfl
  | dio => exact h.dioThread
  | cq =>
    dsimp only
    split_ifs
    · exact h
    · exact h.congr rfl rfl rfl rfl

/-! ### Collecting a request -/

def Collecting (c : Conn) : Prop :=
  c.loop = .header ∨ c.loop = .body ∨ c.loop = .none ∧ RequestState c.state

lemma not_collecting (hloop : c.loop = .none ∨ c.loop = .fread) (hstate : ¬ RequestState c.state) :
    ¬ c.Collecting := by
  rintro (h | h | ⟨-, h⟩)
  · rcases hloop with hloop | hloop <;> rw [hloop] at h <;> cases h
  · rcases hloop with hloop | hloop <;> rw [hloop] at h <;> cases h
  · exact hstate h

/-- What a step that neither reads nor parses a request does to the collecting of requests. -/
inductive Continues (c c' : Conn) : Prop
  /-- None is collected. -/
  | away (haway : ¬ c'.Collecting) (hsize : c'.rsize = c.rsize) (hle : c'.rbytes ≤ c.rbytes)
  /-- The next one is. -/
  | reset (hreader : c'.reader = ([], 0, 0, c.rsize, 0)) (hloop : c'.loop = .none)
      (hstate : c'.state = .waiting)
  /-- The same one is. -/
  | same (hcollecting : c.Collecting) (hreader : c'.reader = c.reader) (hloop : c'.loop = c.loop)
      (hstate : c'.state = c.state ∨ c'.loop ≠ .none)
  /-- The connection goes on to `conn_read`, and from there to the loops of `__network_read`. -/
  | reads (hloop : c.loop = .none) (hstate : c.state = .waiting ∨ c.state = .read)
      (hreader : c'.reader = c.reader) (hstate' : c'.state = .read)
      (hloop' : c'.loop = .none ∨ c'.loop = .header ∧ c.rbytes < headerSize ∨
        c'.loop = .body ∧ headerSize ≤ c.rbytes)

lemma Continues.of_eq (hreader : c'.reader = c.reader) (hloop : c'.loop = c.loop)
    (hstate : c'.state = c.state) : Continues c c' := by
  by_cases hc : c.Collecting
  · exact .same hc hreader hloop (.inl hstate)
  · refine .away ?_ (congrArg (fun r => r.2.2.2.1) hreader) (congrArg (fun r => r.2.2.1) hreader).le
    rwa [Collecting, hloop, hstate]

/-- A connection that leaves the states in which requests are collected. -/
lemma Continues.of_state (hloop : c'.loop = .none ∨ c'.loop = .fread) (hstate : ¬ RequestState c'.state)
    (hsize : c'.rsize = c.rsize) (hle : c'.rbytes ≤ c.rbytes) : Continues c c' :=
  .away (not_collecting hloop hstate) hsize hle

lemma continues_afterWrite {next : Conn → Conn} (hloop : c.loop = .none) {d : Conn}
    (hd : d.reader = c.reader ∧ d.loop = c.loop ∧ d.state = c.state) (hnext : Continues c (next d))
    (e : WriteEnd) : Continues c (afterWrite next (d.networkWriteEnd env e)) := by
  obtain ⟨hreader, hloop', hstate'⟩ := hd
  rcases afterWrite_eq next d env e with ⟨-, heq⟩ | ⟨flags, registered, heq | heq⟩
  · rw [heq]
    exact hnext
  · rw [heq]
    exact .of_eq hreader hloop' hstate'
  · rw [heq]
    exact .of_state (.inl (hloop'.trans hloop)) (show ¬ RequestState .closed by decide)
      (congrArg (fun r => r.2.2.2.1) hreader) (congrArg (fun r => r.2.2.1) hreader).le

lemma Sound.continues_stateMachine (h : c.Sound) (hloop : c.loop = .none) (hparse : c.state ≠ .parseCmd) :
    Continues c (c.stateMachine env) := by
  have haway {d : Conn} (hd : d.loop = c.loop) (hstate : ¬ RequestState d.state)
      (hsize : d.rsize = c.rsize) (hle : d.rbytes ≤ c.rbytes) : Continues c d :=
    .of_state (.inl (hd.trans hloop)) hstate hsize hle
  have hclosed {d : Conn} (hd : d.loop = c.loop) (hstate : d.state = .closed)
      (hsize : d.rsize = c.rsize) (hle : d.rbytes ≤ c.rbytes) : Continues c d :=
    haway hd (by rw [hstate]; decide) hsize hle
  unfold Conn.stateMachine
  cases hstate : c.state with
  | waiting =>
    obtain ⟨flags, registered, ok, hupdate⟩ := updateConnEvent_eq c .read env
    simp only [hupdate]
    exact .reads hloop (.inl hstate) rfl rfl (.inl hloop)
  | read =>
    dsimp only
    unfold Conn.networkRead
    split_ifs with hshort
    · exact .reads hloop (.inr hstate) rfl hstate (.inr (.inl ⟨rfl, hshort⟩))
    · exact hclosed hloop.symm rfl rfl le_rfl
    · exact .reads hloop (.inr hstate) rfl hstate (.inr (.inr ⟨rfl, not_lt.1 hshort⟩))
  | fread => exact .of_state (.inr rfl) (show ¬ RequestState .fread by decide) rfl le_rfl
  | parseCmd => exact absurd hstate hparse
  | write =>
    refine continues_afterWrite hloop (by exact ⟨rfl, rfl, rfl⟩) ?_ _
    exact .reset rfl hloop rfl
  | fwrite =>
    cases c.fctx with
    | none => exact .of_eq rfl rfl rfl
    | some f =>
      refine continues_afterWrite hloop (by exact ⟨rfl, rfl, rfl⟩) ?_ _
      exact haway rfl (show ¬ RequestState .n2dio by decide) rfl (Nat.zero_le _)
  | fsend =>
    dsimp only
    split_ifs
    · exact .reset rfl hloop rfl
    · exact hclosed rfl rfl rfl le_rfl
  | mwrite =>
    refine continues_afterWrite hloop (by exact ⟨rfl, rfl, rfl⟩) ?_ _
    refine haway rfl ?_ rfl le_rfl
    show ¬ RequestState c.nextto
    rcases h.mwrite hstate with hnext | hnext <;> rw [hnext] <;> decide
  | n2dio =>
    cases c.fctx with
    | none => exact .of_eq rfl rfl rfl
    | some f =>
      dsimp only
      unfold dioThreadPoolDispatch
      split_ifs
      · exact .of_eq rfl rfl rfl
      · exact hclosed rfl rfl rfl le_rfl
  | closed => exact hclosed rfl rfl rfl (Nat.zero_le _)

lemma Sound.continues_networkFread (h : c.Sound) (hloop : c.loop = .fread) :
    Continues c (c.networkFread env) := by
  refine networkFread_rule (fun _ _ => .of_eq rfl rfl rfl)
    (fun _ _ => .of_state (.inl rfl) (show ¬ RequestState .n2dio by decide) rfl le_rfl)
    (fun _ => .of_state (.inl rfl) (show ¬ RequestState .closed by decide) rfl le_rfl) fun input => ?_
  obtain ⟨flags, registered, r, rfl | rfl, heq⟩ := networkFreadAgain_eq { c with input := input } env
  · rw [heq]
    exact .of_state (.inl rfl) (h.fread hloop) rfl le_rfl
  · rw [heq]
    exact .of_state (.inl rfl) (show ¬ RequestState .closed by decide) rfl le_rfl

lemma continues_dioThread : Continues c (c.dioThread env) := by
  obtain ⟨hloop, -, hreader, hstate⟩ := dioMoves_dioThread c env
  rcases hstate with hstate | hstate
  · exact .of_eq hreader hloop hstate
  · -- the state that a dio thread sets is none in which a request is collected
    have haway : ¬ RequestState (c.dioThread env).state := by
      rcases hstate with hstate | hstate | hstate <;> rw [hstate] <;> decide
    by_cases hc : (c.dioThread env).Collecting
    · have hne : (c.dioThread env).loop ≠ .none := by
        rintro hnone
        exact absurd hc (not_collecting (.inl hnone) haway)
      refine .same ?_ hreader hloop (.inr hne)
      rw [Collecting, hloop] at hc
      rcases hc with hc | hc | ⟨-, hc⟩
      · exact .inl hc
      · exact .inr (.inl hc)
      · exact absurd hc haway
    · exact .away hc (congrArg (fun r => r.2.2.2.1) hreader) (congrArg (fun r => r.2.2.1) hreader).le

/-- **A step that neither reads nor parses a request.** -/
lemma Sound.continues_step (h : c.Sound) (hrun : env.actor = .nio → c.running = true →
    c.loop = .fread ∨ c.loop = .none ∧ c.state ≠ .parseCmd) : Continues c (c.step env) := by
  unfold Conn.step
  cases hactor : env.actor with
  | nio =>
    dsimp only
    split_ifs with hrunning
    · unfold Conn.nioRunning
      rcases hrun hactor hrunning with hloop | ⟨hloop, hparse⟩
      · rw [hloop]
        exact h.continues_networkFread hloop
      · rw [hloop]
        exact h.continues_stateMachine hloop hparse
    · obtain ⟨running, input, hidle⟩ := nioIdle_eq c env
      rw [hidle]
      exact .of_eq rfl rfl rfl
  | dio => exact continues_dioThread
  | cq =>
    dsimp only
    split_ifs <;> exact .of_eq rfl rfl rfl

lemma sound_connNew (rsize : ℕ) (input : List ReadEv) : (connNew rsize input).Sound :=
  .of (Nat.zero_le 2) (by simp [connNew]) (by simp [connNew])

/-- **A new connection stays sound** in every order of steps of its threads, whatever its client sends and
the system calls return. -/
theorem connection_sound (rsize : ℕ) (input : List ReadEv) (envs : List StepEnv) :
    (run step (connNew rsize input) envs).Sound :=
  Along.run_inv (sound_connNew rsize input) fun _ env h => h.step env

end Conn

end Lfs.Server
