/-
What a dataserver does with a request once it has been dispatched.

All calls succeed here.  A command without a file is answered and the connection waits for the
next request.  A download is sent in pieces and then loses its connection.  The file of an upload
or of an asynchronous copy is read in pieces of up to 64 KiB: `__network_fread` asks for as much
as its buffer can take, so the last piece of a file goes on to the end of the segment, unless the
buffer is full before.
-/
import Lfs.Server.Framing

namespace Lfs.Server

open Lfs.Lib List FileCtx

namespace Conn

variable {b c : Conn} {s : List Byte} {segs : List (List Byte)} {flags : EvFlags} {f : FileCtx}
  {l : ℕ}

/-- The connection `b`, with the nio thread at the head of its loop. -/
def serving (b : Conn) (state : ConnState) (flags : EvFlags) (segs : List (List Byte)) : Conn :=
  { b with
    state := state
    running := true
    loop := .none
    registered := true
    eventFlags := flags
    dioq := 0
    cq := 0
    input := delivered segs }

/-- The connection `b` in the queue of a dio thread. -/
def queued (b : Conn) (flags : EvFlags) (segs : List (List Byte)) : Conn :=
  { b.serving .n2dio flags segs with running := false, registered := false, dioq := 1 }

/-- The connection `b` back in the queue of its nio thread. -/
def notified (b : Conn) (state : ConnState) (flags : EvFlags) (segs : List (List Byte)) : Conn :=
  { b.serving state flags segs with running := false, registered := false, cq := 1 }

lemma networkWriteNoblock_ok {actor : Actor} (c : Conn) : c.networkWriteNoblock (.ok actor) =
      ({ c with wused := c.wused + (c.wbytes - c.wused) }, .complete) := by
  have hwrites : (StepEnv.ok actor).writes = [] := rfl
  rw [networkWriteNoblock, hwrites, writeLoop_nil]
  rfl

lemma networkFwrite_ok {actor : Actor} (f : FileCtx) (c : Conn) : c.networkFwrite (.ok actor) f =
      ({ c with fctx := some (f.sent (f.fBuffOffset - f.fRwoffset)) }, .complete) := by
  have hwrites : (StepEnv.ok actor).writes = [] := rfl
  rw [networkFwrite, hwrites, writeLoop_nil]
  rfl

lemma next_serving (state : ConnState) :
    (b.serving state flags segs).next = (b.serving state flags segs).stateMachine (.ok .nio) :=
  next_of_running rfl rfl rfl

lemma next_serving_waiting :
    (b.connReset.serving .waiting flags segs).next = b.connReset.idle [] segs := by
  rw [next_serving]
  cases flags <;> rfl

lemma next_serving_write :
    (b.serving .write flags segs).next = b.connReset.serving .waiting flags segs := by
  rw [next_serving, stateMachine]
  simp only [networkWriteNoblock_ok]
  rfl

/-- From `c`, at a request of the connection `b`, the request is finished: `files` have been stored
and the connection waits for `segs`. -/
def Finishes (b c : Conn) (files segs : List (List Byte)) : Prop :=
  ∃ b' : Conn, Reaches next c (b'.idle [] segs) ∧ b'.rsize = b.rsize ∧
    b'.dispatched = b.dispatched ∧ b'.stored = b.stored ++ files

lemma Finishes.of_reaches {c' : Conn} {files : List (List Byte)} (h : Reaches next c c')
    (hc' : Finishes b c' files segs) : Finishes b c files segs := by
  obtain ⟨b', hreach, hb'⟩ := hc'
  exact ⟨b', h.trans hreach, hb'⟩

lemma serving_write : Finishes b (b.serving .write flags segs) [] segs :=
  ⟨b.connReset, .head next_serving_write (.step next_serving_waiting), rfl, rfl,
    (append_nil _).symm⟩

lemma next_serving_mwrite (b : Conn) (flags : EvFlags) (segs : List (List Byte)) :
    (b.serving .mwrite flags segs).next = b.connWriteReset.serving b.nextto flags segs := by
  rw [next_serving, stateMachine]
  simp only [networkWriteNoblock_ok]
  rfl

lemma serving_mwrite_fsend (h : b.nextto = .fsend) :
    Finishes b (b.serving .mwrite flags segs) [] segs := by
  have hsend : (b.connWriteReset.serving .fsend flags segs).next =
      b.connReset.serving .waiting flags segs := by
    rw [next_serving, stateMachine]
    rfl
  have hmwrite := next_serving_mwrite b flags segs
  rw [h] at hmwrite
  exact ⟨b.connReset, .head hmwrite (.head hsend (.step next_serving_waiting)), rfl, rfl,
    (append_nil _).symm⟩

lemma next_serving_n2dio (hf : b.fctx = some f) (flags : EvFlags) (segs : List (List Byte)) :
    (b.serving .n2dio flags segs).next = b.queued flags segs := by
  have hfctx : (b.serving .n2dio flags segs).fctx = some f := hf
  rw [next_serving, stateMachine]
  simp only [hfctx]
  rfl

lemma next_queued (hf : b.fctx = some f) (flags : EvFlags) (segs : List (List Byte)) :
    (b.queued flags segs).next =
      match f.job with
      | .none => b.queued flags segs
      | .download => (b.queued flags segs).dioqPop.dioRead (.ok .dio) f
      | .upload | .asyncCopy => (b.queued flags segs).dioqPop.dioWrite (.ok .dio) f := by
  have hfctx : (b.queued flags segs).fctx = some f := hf
  have hstep : (b.queued flags segs).next = (b.queued flags segs).dioThread (.ok .dio) := rfl
  have hdioq : (b.queued flags segs).dioq ≠ 0 := one_ne_zero
  rw [hstep, dioThread, hfctx]
  refine (if_neg hdioq).trans ?_
  cases f.job <;> rfl

lemma next_queued_download (hf : b.fctx = some f) (hjob : f.job = .download) (flags : EvFlags)
    (segs : List (List Byte)) :
    (b.queued flags segs).next = (b.queued flags segs).dioqPop.dioRead (.ok .dio) f := by
  rw [next_queued hf, hjob]

lemma notified_serving (state : ConnState) :
    Reaches next (b.notified state .write segs) (b.serving state .write segs) := ⟨2, rfl⟩

/-! ### Downloads -/

lemma next_serving_fwrite (hf : b.fctx = some f) (flags : EvFlags) (segs : List (List Byte)) :
    (b.serving .fwrite flags segs).next =
      { b with fctx := some (f.sent (f.fBuffOffset - f.fRwoffset)) }.connReset.serving .n2dio flags
        segs := by
  have hfctx : (b.serving .fwrite flags segs).fctx = some f := hf
  rw [next_serving, stateMachine]
  simp only [hfctx, networkFwrite_ok]
  rfl

/-- The file context after a piece of a download has been read and sent. -/
def pieceSent (f : FileCtx) : FileCtx :=
  (({ f with fBuffOffset := f.fBuffOffset + f.readBytes } : FileCtx).sent
    (f.fBuffOffset + f.readBytes - f.fRwoffset)).buffReset

lemma download_piece (hf : b.fctx = some f) (hjob : f.job = .download) (hunsent : f.fOffset < f.fSize)
    (flags : EvFlags) (segs : List (List Byte)) :
    Reaches next (b.serving .n2dio flags segs)
      ({ b.connReset with fctx := some (pieceSent f) }.serving .n2dio .write segs) := by
  have hread : (b.queued flags segs).next =
      { b with fctx := some { f with fBuffOffset := f.fBuffOffset + f.readBytes } }.notified .fwrite
        .write segs := by
    rw [next_queued_download hf hjob, dioRead, if_neg (not_le.2 hunsent)]
    rfl
  exact .head (next_serving_n2dio hf flags segs)
    (.head hread ((notified_serving .fwrite).trans (.step (next_serving_fwrite rfl _ _))))

/-- A download is sent to its end, and then nothing happens to its connection any more. -/
lemma download_settles (hf : b.fctx = some f) (hjob : f.job = .download) (hbuff : f.fBuffOffset = 0)
    (hrw : f.fRwoffset = 0) (flags : EvFlags) (segs : List (List Byte)) :
    ∃ c, Settles next (b.serving .n2dio flags segs) c ∧ c.dispatched = b.dispatched ∧
      c.stored = b.stored := by
  induction hsize : (f.fSize - f.fOffset).toNat using Nat.strong_induction_on
    generalizing b f flags with
  | _ n ih =>
    rcases le_or_gt f.fSize f.fOffset with hsent | hunsent
    · have hread := next_queued_download hf hjob flags segs
      rw [dioRead_of_sent hsent] at hread
      exact ⟨_, ⟨.head (next_serving_n2dio hf flags segs) (.step hread), rfl⟩, rfl, rfl⟩
    · have hoffset : (pieceSent f).fOffset = f.fOffset + (f.readBytes : ℕ) := by
        simp [pieceSent, sent, buffReset, hbuff, hrw]
      have hbytes : 0 < f.readBytes := by
        simp only [readBytes, hbuff, fileBuffSize]
        omega
      have hless : ((pieceSent f).fSize - (pieceSent f).fOffset).toNat < n := by
        have hfs : (pieceSent f).fSize = f.fSize := rfl
        rw [hoffset, hfs]
        omega
      obtain ⟨c, hc, hd, hs⟩ := ih _ hless (b := { b.connReset with fctx := some (pieceSent f) })
        rfl hjob rfl rfl .write rfl
      exact ⟨c, (settles_iff_of_reaches (download_piece hf hjob hunsent flags segs)).2 hc, hd, hs⟩

/-! ### Files -/

/-- The connection `b` in the loop of `__network_fread`. -/
def freading (b : Conn) (segs : List (List Byte)) : Conn :=
  { b.serving .fread .read segs with loop := .fread }

/-- The connection `b` is about to read more of its file, or waits for it. -/
def fileAt (b : Conn) (running : Bool) (segs : List (List Byte)) : Conn :=
  { b.serving .fread .read segs with running := running }

lemma next_fileAt_false (hs : s ≠ []) :
    (b.fileAt false (s :: segs)).next = b.fileAt true (s :: segs) := by
  cases s with
  | nil => exact absurd rfl hs
  | cons x s => rfl

lemma next_fileAt_true : (b.fileAt true segs).next = b.freading segs := by
  have hserving : b.fileAt true segs = b.serving .fread .read segs := rfl
  rw [hserving, next_serving]
  rfl

section

variable (hf : b.fctx = some f)
include hf

lemma next_freading : (b.freading segs).next = (b.freading segs).networkFreadFile (.ok .nio) f := by
  have hfctx : (b.freading segs).fctx = some f := hf
  rw [next_of_running rfl rfl rfl, nioRunning]
  show (b.freading segs).networkFread (.ok .nio) = _
  rw [networkFread, hfctx]

lemma next_freading_full (hfull : f.fSize ≤ f.fRwoffset ∨ fileBuffSize ≤ f.fBuffOffset) :
    (b.freading segs).next = b.serving .n2dio .read segs := by
  rw [next_freading hf, networkFreadFile]
  exact if_pos hfull

lemma next_freading_nil (hfull : ¬ (f.fSize ≤ f.fRwoffset ∨ fileBuffSize ≤ f.fBuffOffset)) :
    (b.freading ([] :: segs)).next = b.fileAt false segs := by
  have hread : readSock (some (fileBuffSize - f.fBuffOffset)) (delivered ([] :: segs)) =
      (.again, delivered segs) := by
    rw [readSock, if_neg (by simp only [Option.some.injEq]; omega)]
    rfl
  have hinput : (b.freading ([] :: segs)).input = delivered ([] :: segs) := rfl
  rw [next_freading hf, networkFreadFile]
  simp only [if_neg hfull, hinput, hread]
  rfl

lemma next_freading_cons
    (hfull : ¬ (f.fSize ≤ f.fRwoffset ∨ fileBuffSize ≤ f.fBuffOffset)) (hs : s ≠ [])
    (segs : List (List Byte)) :
    (b.freading (s :: segs)).next = let bs := s.take (fileBuffSize - f.fBuffOffset)
      let later := s.drop (fileBuffSize - f.fBuffOffset) :: segs
      if bs.length = fileBuffSize - f.fBuffOffset then
        { b with fctx := some (f.received bs) }.freading later
      else { b with fctx := some (f.received bs) }.serving .n2dio .read later := by
  have hread := readSock_delivered (n := fileBuffSize - f.fBuffOffset) (by omega) hs segs
  have hinput : (b.freading (s :: segs)).input = delivered (s :: segs) := rfl
  rw [next_freading hf, networkFreadFile]
  simp only [if_neg hfull, hinput, hread]
  rfl

lemma next_queued_write (hjob : f.job = .upload ∨ f.job = .asyncCopy)
    (flags : EvFlags) (segs : List (List Byte)) :
    (b.queued flags segs).next = (b.queued flags segs).dioqPop.dioWrite (.ok .dio) f := by
  rw [next_queued hf]
  rcases hjob with hjob | hjob
  · rw [hjob]
  · rw [hjob]

lemma file_more (hjob : f.job = .upload ∨ f.job = .asyncCopy)
    (hmore : f.written.fOffset < f.written.fSize) (segs : List (List Byte)) :
    Reaches next (b.serving .n2dio .read segs)
      ({ b with fctx := some f.written.buffReset }.fileAt false segs) := by
  have hwrite : (b.queued .read segs).next =
      { b with fctx := some f.written.buffReset }.notified .fread .read segs := by
    rw [next_queued_write hf hjob, dioWrite]
    simp only [if_pos hmore]
    rfl
  exact .head (next_serving_n2dio hf .read segs) (.head hwrite (.step rfl))

end

/-- The functions that are called at the end of a file have the connection written. -/
lemma writeDoneCallback_notified (hjob : f.job = .upload ∨ f.job = .asyncCopy)
    (hdone : f.fSize ≤ f.fOffset) (flags : EvFlags) (segs : List (List Byte)) :
    ∃ b' : Conn, (b.queued flags segs).dioqPop.writeDoneCallback (.ok .dio) true f =
        b'.notified .write .write segs ∧
      b'.rsize = b.rsize ∧ b'.dispatched = b.dispatched ∧ b'.stored = b.stored := by
  rcases hjob with hjob | hjob
  · rw [writeDoneCallback, if_pos hjob, fileUploadDoneCallback, if_neg (by decide)]
    by_cases htotal : f.fTotalSize ≤ f.fTotalOffset
    · rw [if_pos htotal]
      exact ⟨{ b with wbytes := headerSize + 256, wstate := .success }, rfl, rfl, rfl, rfl⟩
    · rw [if_neg htotal, if_pos hdone]
      exact ⟨{ b.respHeader .success with fctx := some f.reset }, rfl, rfl, rfl, rfl⟩
  · rw [writeDoneCallback, if_neg (by simp [hjob])]
    exact ⟨b.respHeader .success, rfl, rfl, rfl, rfl⟩

/-- After the last piece of a file the connection has stored it and waits for the next request. -/
lemma file_done (hf : b.fctx = some f) (hjob : f.job = .upload ∨ f.job = .asyncCopy)
    (hdone : f.written.fSize ≤ f.written.fOffset) (segs : List (List Byte)) :
    Finishes b (b.serving .n2dio .read segs) [f.file ++ f.fBuff] segs := by
  have hwrite : (b.queued .read segs).next =
      ({ b with fctx := some f.written, stored := b.stored ++ [f.file ++ f.fBuff] }.queued .read
        segs).dioqPop.writeDoneCallback (.ok .dio) true f.written := by
    rw [next_queued_write hf hjob, dioWrite]
    simp only [if_neg (not_lt.2 hdone)]
    rfl
  obtain ⟨b', hcallback, hrsize, hdispatched, hstored⟩ := writeDoneCallback_notified
    (b := { b with fctx := some f.written, stored := b.stored ++ [f.file ++ f.fBuff] })
    (f := f.written) hjob hdone .read segs
  obtain ⟨b'', hreach, hrsize', hdispatched', hstored'⟩ : Finishes b' _ [] segs := serving_write
  rw [append_nil] at hstored'
  refine ⟨b'', ?_, hrsize'.trans hrsize, hdispatched'.trans hdispatched, hstored'.trans hstored⟩
  exact .head (next_serving_n2dio hf .read segs)
    (.head (hwrite.trans hcallback) ((notified_serving .write).trans hreach))

/-- The file of `l` bytes ends where a segment ends, or where the buffer is full. -/
def FileExact (l : ℕ) (segs : List (List Byte)) : Prop :=
  ahead l segs = 0 ∨ fileBuffSize ∣ behind l segs

instance {l : ℕ} : Decidable (FileExact l segs) := inferInstanceAs (Decidable (_ ∨ _))

/-- A file context between two pieces, with `l` bytes of the file to come. -/
structure FileMissing (f : FileCtx) (l : ℕ) : Prop where
  job : f.job = .upload ∨ f.job = .asyncCopy
  reset : f.buffReset = f
  offset : 0 ≤ f.fOffset
  missing : f.fSize = f.fOffset + l
  pos : 0 < l

lemma buff_of_reset (h : f.buffReset = f) : f.fBuff = [] ∧ f.fBuffOffset = 0 ∧ f.fRwoffset = 0 := by
  rw [← h]
  exact ⟨rfl, rfl, rfl⟩

namespace FileMissing

section

variable (h : FileMissing f l)
include h

lemma not_full : ¬ (f.fSize ≤ f.fRwoffset ∨ fileBuffSize ≤ f.fBuffOffset) := by
  obtain ⟨-, hbuffOffset, hrwoffset⟩ := buff_of_reset h.reset
  have hoffset := h.offset
  have hmissing := h.missing
  have hpos := h.pos
  rw [hbuffOffset, hrwoffset, fileBuffSize]
  omega

lemma skip (hf : b.fctx = some f) (running : Bool) :
    Reaches next (b.fileAt running ([] :: segs)) (b.fileAt false segs) := by
  cases running with
  | true => exact .head next_fileAt_true (.step (next_freading_nil hf h.not_full))
  | false => exact ⟨2, rfl⟩

/-- A piece of a file is as much of the segment as the buffer can take. -/
lemma piece (hf : b.fctx = some f) (hs : s ≠ []) (running : Bool) (segs : List (List Byte)) :
    Reaches next (b.fileAt running (s :: segs))
      ({ b with fctx := some (f.received (s.take fileBuffSize)) }.serving .n2dio .read
        (s.drop fileBuffSize :: segs)) := by
  have hstart : Reaches next (b.fileAt running (s :: segs)) (b.fileAt true (s :: segs)) := by
    cases running with
    | true => exact .refl _ _
    | false => exact .step (next_fileAt_false hs)
  obtain ⟨-, hbuff, -⟩ := buff_of_reset h.reset
  have hstep := next_freading_cons hf h.not_full hs segs
  simp only [hbuff] at hstep
  refine hstart.trans (.head next_fileAt_true ?_)
  split_ifs at hstep with hlen
  · refine .head hstep (.step (next_freading_full rfl (.inr ?_)))
    simp only [received, hbuff, hlen]
    omega
  · exact .step hstep

lemma more {bs : List Byte} (hlt : bs.length < l) :
    FileMissing (f.received bs).written.buffReset (l - bs.length) := by
  obtain ⟨-, hbuff, -⟩ := buff_of_reset h.reset
  have hoffset := h.offset
  have hmissing := h.missing
  refine ⟨h.job, rfl, ?_, ?_, by omega⟩
  · simp only [buffReset, written, received]
    omega
  · simp only [buffReset, written, received, hbuff]
    omega

lemma written_lt_iff (bs : List Byte) :
    (f.received bs).written.fOffset < (f.received bs).written.fSize ↔ bs.length < l := by
  obtain ⟨-, hbuff, -⟩ := buff_of_reset h.reset
  have hmissing := h.missing
  simp only [written, received, hbuff]
  omega

lemma written_file (bs : List Byte) :
    (f.received bs).file ++ (f.received bs).fBuff = f.file ++ bs := by
  obtain ⟨hbuff, -, -⟩ := buff_of_reset h.reset
  simp [received, hbuff]

end

end FileMissing

lemma fileExact_zero : FileExact 0 segs := by
  right
  rw [behind_zero]
  exact dvd_zero _

lemma fileExact_nil_cons : FileExact l ([] :: segs) ↔ FileExact l segs := by
  rcases eq_zero_or_pos l with rfl | hl
  · exact iff_of_true fileExact_zero fileExact_zero
  · rw [FileExact, FileExact, ahead_nil_cons hl, behind_nil_cons hl]

/-- A piece that does not reach the end of the file does not matter. -/
lemma fileExact_drop (hlt : min fileBuffSize s.length < l) : FileExact l (s :: segs) ↔
      FileExact (l - min fileBuffSize s.length) (s.drop fileBuffSize :: segs) := by
  have hdrop : (s.drop fileBuffSize).length = s.length - fileBuffSize := length_drop
  rcases lt_or_ge s.length l with hl | hl
  · have hl' : (s.drop fileBuffSize).length < l - min fileBuffSize s.length := by omega
    rw [FileExact, FileExact, ahead_of_lt hl, ahead_of_lt hl', behind_of_lt hl, behind_of_lt hl',
      show l - min fileBuffSize s.length - (s.drop fileBuffSize).length = l - s.length by omega]
  · have hmin : min fileBuffSize s.length = fileBuffSize := by omega
    have hl' : l - fileBuffSize ≤ (s.drop fileBuffSize).length := by omega
    have hdvd : fileBuffSize ∣ l ↔ fileBuffSize ∣ l - fileBuffSize := by
      rw [Nat.dvd_sub_self_right, or_iff_left (by omega)]
    rw [FileExact, FileExact, hmin, ahead_of_le hl, ahead_of_le hl', behind_of_le hl,
      behind_of_le hl', hdrop, hdvd, show s.length - l = s.length - fileBuffSize - (l - fileBuffSize)
        by omega]

lemma fileExact_iff (hl : 0 < l) (hle : l ≤ min fileBuffSize s.length) :
    FileExact l (s :: segs) ↔ min fileBuffSize s.length = l := by
  rw [FileExact, ahead_of_le (by omega), behind_of_le (by omega)]
  constructor
  · rintro (hend | hdvd)
    · omega
    · have hfull := Nat.le_of_dvd hl hdvd
      omega
  · intro heq
    rcases le_total fileBuffSize s.length with hbig | hsmall
    · right
      rw [← heq, min_eq_left hbig]
    · left
      omega

/-- The context `g` has the last piece of a file in its buffer, and `bs` were read since `f`. -/
structure LastPiece (f g : FileCtx) (bs : List Byte) : Prop where
  job : g.job = f.job
  done : g.written.fSize ≤ g.written.fOffset
  file : g.file ++ g.fBuff = f.file ++ bs
  totalSize : g.fTotalSize = f.fTotalSize
  totalOffset : g.written.fTotalOffset = f.fTotalOffset + bs.length

/-- What is read goes on from the announced `l` bytes to the end of the piece that reaches them, and
this is the end of the file if and only if a segment ends there or the buffer is full there. -/
def ReadsFile (b c : Conn) (f : FileCtx) (l : ℕ) (segs : List (List Byte)) : Prop :=
  ∃ m g, (m = l ↔ FileExact l segs) ∧ l ≤ m ∧ m ≤ segs.flatten.length ∧
    LastPiece f g (segs.flatten.take m) ∧
    Reaches next c ({ b with fctx := some g }.serving .n2dio .read (advance m segs))

/-- What is stored goes on from the announced `l` bytes to the end of the piece that reaches them,
and this is the end of the file if and only if a segment ends there or the buffer is full there. -/
def FileEnds (b c : Conn) (f : FileCtx) (l : ℕ) (segs : List (List Byte)) : Prop :=
  ∃ m, (m = l ↔ FileExact l segs) ∧ l ≤ m ∧ m ≤ segs.flatten.length ∧
    Finishes b c [f.file ++ segs.flatten.take m] (advance m segs)

lemma readsFile_nil_cons (hl : 0 < l) (hskip : Reaches next c (b.fileAt false segs))
    (h : ReadsFile b (b.fileAt false segs) f l segs) : ReadsFile b c f l ([] :: segs) := by
  obtain ⟨m, g, hm, hle, hlen, hlast, hreach⟩ := h
  refine ⟨m, g, hm.trans fileExact_nil_cons.symm, hle, hlen, hlast, ?_⟩
  rw [advance_nil_cons (by omega)]
  exact hskip.trans hreach

lemma drop_min_fileBuffSize (s : List Byte) :
    s.drop (min fileBuffSize s.length) = s.drop fileBuffSize := by
  rcases le_total fileBuffSize s.length with hbig | hsmall
  · rw [min_eq_left hbig]
  · rw [min_eq_right hsmall, drop_length, drop_eq_nil_of_le hsmall]

lemma advance_piece : advance (min fileBuffSize s.length) (s :: segs) =
    s.drop fileBuffSize :: segs := by
  rw [advance_of_le (min_le_right _ _), drop_min_fileBuffSize]

/-- A file of which the piece `bs` has been written, and then `bs'`. -/
lemma LastPiece.piece {g : FileCtx} {bs bs' : List Byte} (hf : FileMissing f l)
    (h : LastPiece (f.received bs).written.buffReset g bs') : LastPiece f g (bs ++ bs') := by
  obtain ⟨hbuff, hbuffOffset, -⟩ := buff_of_reset hf.reset
  refine ⟨h.job, h.done, ?_, h.totalSize, ?_⟩
  · have hfile : (f.received bs).written.buffReset.file = f.file ++ bs := hf.written_file bs
    rw [h.file, hfile, append_assoc]
  · have htotal : (f.received bs).written.buffReset.fTotalOffset = f.fTotalOffset + bs.length := by
      simp [buffReset, written, received, hbuffOffset]
    rw [h.totalOffset, htotal, length_append, Nat.cast_add, add_assoc]

lemma FileMissing.reads_of_lt (h : FileMissing f l) (hf : b.fctx = some f) (hs : s ≠ [])
    (running : Bool) (hlt : min fileBuffSize s.length < l)
    (hreads : ∀ b' : Conn, b'.fctx = some (f.received (s.take fileBuffSize)).written.buffReset →
      ReadsFile b' (b'.fileAt false (s.drop fileBuffSize :: segs))
        (f.received (s.take fileBuffSize)).written.buffReset (l - min fileBuffSize s.length)
        (s.drop fileBuffSize :: segs)) :
    ReadsFile b (b.fileAt running (s :: segs)) f l (s :: segs) := by
  have hk : (s.take fileBuffSize).length < l := by rwa [length_take]
  have hmore := file_more (b := { b with fctx := some (f.received (s.take fileBuffSize)) })
    rfl h.job ((h.written_lt_iff _).2 hk) (s.drop fileBuffSize :: segs)
  obtain ⟨m, g, hm, hle, hlen, hlast, hreach⟩ := hreads
    { b with fctx := some (f.received (s.take fileBuffSize)).written.buffReset } rfl
  rw [flatten_cons, length_append, length_drop] at hlen
  have htake : (s :: segs).flatten.take (min fileBuffSize s.length + m) =
      s.take fileBuffSize ++ (s.drop fileBuffSize :: segs).flatten.take m := by
    rw [flatten_cons, flatten_cons, take_add, take_append_of_le_length (min_le_right _ _),
      drop_append_of_le_length (min_le_right _ _), ← take_eq_take_min,
      drop_min_fileBuffSize]
  refine ⟨min fileBuffSize s.length + m, g, ?_, by omega, ?_, ?_, ?_⟩
  · rw [fileExact_drop hlt, ← hm]
    omega
  · rw [flatten_cons, length_append]
    omega
  · rw [htake]
    exact hlast.piece h
  · rw [← advance_advance, advance_piece]
    exact (h.piece hf hs running segs).trans (hmore.trans hreach)

lemma FileMissing.reads_of_le (h : FileMissing f l) (hf : b.fctx = some f) (hs : s ≠ [])
    (running : Bool) (hle : l ≤ min fileBuffSize s.length) :
    ReadsFile b (b.fileAt running (s :: segs)) f l (s :: segs) := by
  have hk : ¬ (s.take fileBuffSize).length < l := by rwa [length_take, not_lt]
  obtain ⟨-, hbuffOffset, -⟩ := buff_of_reset h.reset
  refine ⟨min fileBuffSize s.length, f.received (s.take fileBuffSize),
    (fileExact_iff h.pos hle).symm, hle, ?_, ?_, ?_⟩
  · rw [flatten_cons, length_append]
    omega
  · rw [flatten_cons, take_append_of_le_length (min_le_right _ _), ← take_eq_take_min]
    refine ⟨rfl, not_lt.1 fun hlt => hk ((h.written_lt_iff _).1 hlt), h.written_file _, rfl, ?_⟩
    simp [written, received, hbuffOffset]
  · rw [advance_piece]
    exact h.piece hf hs running segs

/-- **Reading a file.**  The connection reads pieces until the file is complete. -/
lemma file_read (h : FileMissing f l) (hf : b.fctx = some f)
    (hlen : l ≤ segs.flatten.length) (running : Bool) :
    ReadsFile b (b.fileAt running segs) f l segs := by
  -- a piece shortens the stream, and an empty segment the list of segments
  induction hN : segs.length + segs.flatten.length using Nat.strong_induction_on
    generalizing b f l segs running with
  | _ N ih =>
    have hpos := h.pos
    cases segs with
    | nil =>
      simp only [flatten_nil, length_nil] at hlen
      omega
    | cons s segs =>
      rw [flatten_cons, length_append] at hlen hN
      rw [length_cons] at hN
      rcases eq_or_ne s [] with rfl | hs
      · simp only [length_nil, zero_add] at hlen hN
        exact readsFile_nil_cons hpos (h.skip hf running) (ih _ (by omega) h hf hlen false rfl)
      · rcases lt_or_ge (min fileBuffSize s.length) l with hlt | hge
        · have hk : (s.take fileBuffSize).length = min fileBuffSize s.length := length_take
          have hk0 : 0 < min fileBuffSize s.length :=
            lt_min (by decide) (length_pos_iff.2 hs)
          have hlater : (s.drop fileBuffSize :: segs).flatten.length =
              s.length + segs.flatten.length - min fileBuffSize s.length := by
            rw [flatten_cons, length_append, length_drop]
            omega
          have hmissing : FileMissing (f.received (s.take fileBuffSize)).written.buffReset
              (l - min fileBuffSize s.length) := hk ▸ h.more (by omega)
          exact h.reads_of_lt hf hs running hlt fun b' hb' =>
            ih _ (by rw [hlater, length_cons]; omega) hmissing hb' (by omega) false rfl
        · exact h.reads_of_le hf hs running hge

lemma file_empty (hf : b.fctx = some f) (hreset : f.buffReset = f) (hsize : f.fSize = 0)
    (hoffset : f.fOffset = 0) (segs : List (List Byte)) :
    ReadsFile b (b.fileAt true segs) f 0 segs := by
  obtain ⟨hbuff, hbuffOffset, hrwoffset⟩ := buff_of_reset hreset
  have hfull : (b.freading segs).next = b.serving .n2dio .read segs :=
    next_freading_full hf (.inl (by rw [hsize, hrwoffset]; rfl))
  have hb : { b with fctx := some f } = b := by rw [← hf]
  refine ⟨0, f, iff_of_true rfl fileExact_zero, le_rfl, Nat.zero_le _, ?_, ?_⟩
  · refine ⟨rfl, ?_, ?_, rfl, ?_⟩
    · simp [written, hsize, hoffset, hbuffOffset]
    · rw [hbuff, take_zero]
    · simp [written, hbuffOffset]
  · rw [hb, advance_zero]
    exact .head next_fileAt_true (.step hfull)

lemma file_reads (hf : b.fctx = some f) (hjob : f.job = .upload ∨ f.job = .asyncCopy)
    (hreset : f.buffReset = f) (hsize : f.fSize = l) (hoffset : f.fOffset = 0)
    (hlen : l ≤ segs.flatten.length) : ReadsFile b (b.fileAt true segs) f l segs := by
  rcases eq_zero_or_pos l with rfl | hpos
  · exact file_empty hf hreset hsize hoffset segs
  · exact file_read ⟨hjob, hreset, hoffset.ge, by omega, hpos⟩ hf hlen true

lemma ReadsFile.ends (h : ReadsFile b c f l segs)
    (hjob : f.job = .upload ∨ f.job = .asyncCopy) : FileEnds b c f l segs := by
  obtain ⟨m, g, hm, hle, hlen, hlast, hreach⟩ := h
  have hdone := file_done (b := { b with fctx := some g }) rfl (hlast.job ▸ hjob) hlast.done
    (advance m segs)
  rw [hlast.file] at hdone
  exact ⟨m, hm, hle, hlen, .of_reaches hreach hdone⟩

/-! ### Files that were stored stay stored -/

lemma stored_updateConnEvent (c : Conn) (flags : EvFlags) (env : StepEnv) :
    (c.updateConnEvent flags env).1.stored = c.stored := by
  unfold updateConnEvent
  split_ifs <;> rfl

lemma stored_networkFread (env : StepEnv) : (c.networkFread env).stored = c.stored := by
  refine networkFread_rule (P := fun d => d.stored = c.stored) (fun _ _ => rfl) (fun _ _ => rfl)
    (fun _ => rfl) fun input => ?_
  obtain ⟨flags, registered, r, rfl | rfl, heq⟩ := networkFreadAgain_eq { c with input := input } env
  · rw [heq]
    rfl
  · rw [heq]
    rfl

lemma stored_afterWrite {next : Conn → Conn} (hnext : ∀ c, (next c).stored = c.stored) (env : StepEnv)
    (e : WriteEnd) : (afterWrite next (c.networkWriteEnd env e)).stored = c.stored := by
  rcases afterWrite_eq next c env e with ⟨-, heq⟩ | ⟨flags, registered, heq | heq⟩
  · rw [heq]
    exact hnext c
  · rw [heq]
  · rw [heq]

lemma stored_write {next : Conn → Conn} (hnext : ∀ c, (next c).stored = c.stored) (env : StepEnv) :
    (afterWrite next (c.networkWriteNoblock env)).stored = c.stored :=
  stored_afterWrite (c := { c with wused := _ }) hnext env _

lemma stored_fwrite {next : Conn → Conn} (hnext : ∀ c, (next c).stored = c.stored) (env : StepEnv)
    (f : FileCtx) : (afterWrite next (c.networkFwrite env f)).stored = c.stored :=
  stored_afterWrite (c := { c with fctx := _ }) hnext env _

lemma stored_stateMachine (env : StepEnv) : (c.stateMachine env).stored = c.stored := by
  unfold stateMachine
  cases c.state with
  | waiting => exact stored_updateConnEvent c .read env
  | read => exact stored_of_frame frame_networkRead
  | fread => rfl
  | parseCmd => exact stored_of_frame frame_parseProtocolCmd
  | write => exact stored_write (by intro c; rfl) env
  | fwrite =>
    cases c.fctx with
    | none => rfl
    | some f => exact stored_fwrite (by intro c; rfl) env f
  | fsend =>
    dsimp only
    split_ifs <;> rfl
  | mwrite => exact stored_write (by intro c; rfl) env
  | n2dio =>
    cases c.fctx with
    | none => rfl
    | some f =>
      dsimp only
      unfold dioThreadPoolDispatch
      split_ifs <;> rfl
  | closed => rfl

lemma stored_nioRunning (env : StepEnv) : (c.nioRunning env).stored = c.stored := by
  unfold nioRunning
  cases c.loop with
  | none => exact stored_stateMachine env
  | header => exact stored_of_frame (frame_networkReadTook _ _)
  | body => exact stored_of_frame frame_networkReadBody
  | fread => exact stored_networkFread env

lemma stored_nioIdle (env : StepEnv) : (c.nioIdle env).stored = c.stored := by
  unfold nioIdle
  split_ifs
  · rfl
  · split <;> rfl

lemma stored_writeDoneCallback (env : StepEnv) (done : Bool) (f : FileCtx) :
    (c.writeDoneCallback env done f).stored = c.stored := by
  unfold writeDoneCallback fileUploadDoneCallback asyncfileDoneCallback
  split_ifs <;> rfl

lemma stored_dioThread (env : StepEnv) : c.stored <+: (c.dioThread env).stored := by
  unfold dioThread
  cases hf : c.fctx with
  | none => exact prefix_rfl
  | some f =>
    dsimp only
    split_ifs
    · exact prefix_rfl
    have hwrite : c.stored <+: (c.dioqPop.dioWrite env f).stored := by
      unfold dioWrite
      split_ifs
      · exact prefix_rfl
      · rw [stored_writeDoneCallback]
        exact prefix_append _ _
      · rw [stored_writeDoneCallback]
        exact prefix_rfl
    cases f.job with
    | none => exact prefix_rfl
    | download =>
      dsimp only
      unfold dioRead
      split_ifs <;> exact prefix_rfl
    | upload | asyncCopy => exact hwrite

lemma stored_mono {u : Conn} (h : Reaches next c u) : c.stored <+: u.stored := by
  have hstep (d : Conn) : d.stored <+: d.next.stored := by
    unfold next step
    split
    · split_ifs
      · exact ⟨[], by rw [stored_nioRunning, append_nil]⟩
      · exact ⟨[], by rw [stored_nioIdle, append_nil]⟩
    · exact stored_dioThread _
    · split_ifs <;> exact prefix_rfl
  have hinv (d : Conn) (hd : c.stored <+: d.stored) : c.stored <+: d.next.stored :=
    hd.trans (hstep d)
  exact h.inv hinv prefix_rfl

end Conn

end Lfs.Server
