/-
The copy of a binlog to a peer where files have gone from the disk (`__async_copy_file` and
`__async_handle` in `ds_sync.c`).

Here nothing fails but `stat`: the peer takes every connection and acknowledges every copy, the marks
are written, and a `read` returns any number of bytes.  `stat` of a file that is not there returns `-1`,
and the branch that would step over the record compares this with `ENOENT`: the copy fails, and the
thread connects again and comes back to the same record.
-/
import Lfs.Binlog.AsyncRun
import Lfs.Lib.Stream

namespace Lfs.Binlog

open Lfs.Lib List

/-! ### A copy -/

def enoent : ℤ := 2

def fileOpTypeCreateFile : Byte := 67

/-- What `stat` does: it returns `0` with the size of the file, or `-1` and sets `errno`. -/
inductive StatRes where
  | ok (stSize : ℕ)
  | fail (errno : ℤ)
deriving DecidableEq

/-- The value that `stat` returns. -/
def StatRes.ret : StatRes → ℤ
  | ok _ => 0
  | fail _ => -1

/-- What `senddata_nblock`, `client_sendfile` and `client_recvheader` return. -/
structure CopyIo where
  sendData : ℤ
  sendFile : ℤ
  recvHeader : ℤ
deriving DecidableEq

def asyncCopyFile (io : CopyIo) (st : StatRes) : ℤ :=
  match st with
  | .fail errno => if st.ret = enoent then 0 else errno
  | .ok _ =>
    if io.sendData ≠ 0 then io.sendData
    else if io.sendFile ≠ 0 then io.sendFile
    else io.recvHeader

def asyncHandle (sfd : ℤ) (io : CopyIo) (st : StatRes) (brecord : BinlogRecord) : ℤ :=
  if sfd < 0 then lfsError
  else if brecord.opType = fileOpTypeCreateFile then asyncCopyFile io st
  else lfsError

/-- The files on the disk with their sizes. -/
abbrev DataDisk := List Byte → Option ℕ

/-- `stat` on this disk. -/
def DataDisk.stat (disk : DataDisk) (path : List Byte) : StatRes :=
  match disk path with
  | some size => .ok size
  | none => .fail enoent

/-- `__async_handle` with a peer that takes and acknowledges the copy. -/
def DataDisk.handle (disk : DataDisk) (sfd : ℕ) (brecord : BinlogRecord) : ℤ :=
  asyncHandle sfd ⟨0, 0, 0⟩ (disk.stat brecord.fBlockMapName) brecord

/-- A record that can be copied: it is one of a new file, and the file is there. -/
def DataDisk.Copies (disk : DataDisk) (brecord : BinlogRecord) : Prop :=
  brecord.opType = fileOpTypeCreateFile ∧ disk brecord.fBlockMapName ≠ none

instance (disk : DataDisk) (brecord : BinlogRecord) : Decidable (disk.Copies brecord) :=
  inferInstanceAs (Decidable (_ ∧ _))

/-- A failed `stat` is a failed copy: `-1` is not `ENOENT`, and `errno` is not `0`. -/
lemma DataDisk.handle_eq_lfsOk_iff (disk : DataDisk) (sfd : ℕ) (brecord : BinlogRecord) :
    disk.handle sfd brecord = lfsOk ↔ disk.Copies brecord := by
  rw [handle, asyncHandle, if_neg (by omega), Copies, stat]
  by_cases hop : brecord.opType = fileOpTypeCreateFile
  · rw [if_pos hop]
    cases disk brecord.fBlockMapName with
    | some size => simp [asyncCopyFile, hop, lfsOk]
    | none => simp [asyncCopyFile, StatRes.ret, enoent, lfsOk]
  · rw [if_neg hop]
    simp [hop, lfsError, lfsOk]

namespace AsyncRun

variable {mounts : Mounts}

/-! ### The thread on such a disk -/

/-- What is left to the environment in a step: the numbers of bytes that a `read` returns, the clock and
the descriptor of the connection. -/
structure CopyEnv where
  sizes : ℕ → ℕ
  now : ℤ
  sfd : ℕ

/-- What happens in a round: the next record is handled on this disk. -/
def roundIo (disk : DataDisk) (r : AsyncRun mounts) (s : SyncCtx) (e : CopyEnv) : RoundIo where
  read := readSizes e.sizes
  handled :=
    match (binlogRead mounts (readSizes e.sizes) r.ctx s).record with
    | some brecord => disk.handle e.sfd brecord = lfsOk
    | none => false
  now := e.now
  mark := readSizes e.sizes 0
  exit := readSizes e.sizes 0

/-- A step of the thread: outside its loop it connects and calls `asyncctx_init`, in the loop it makes a
round. -/
def copyStep (disk : DataDisk) (lastSyncSequence : ℤ) (r : AsyncRun mounts) (e : CopyEnv) :
    AsyncRun mounts :=
  match r.thread with
  | .outside _ => r.step (.init lastSyncSequence ⟨true, true, readSizes e.sizes 0, true⟩)
  | .inside s => r.step (.round (roundIo disk r s e))

/-- The position at which the first `asyncctx_init` starts. -/
def startPos (lastSyncSequence : ℤ) (log : List (RecordLine mounts))
    (markFile : Option (List Byte)) : ℕ :=
  (asyncctxInit lastSyncSequence (oneFile log) markFile).bOffset

/-- The reader has passed every record, and every record from the start on whose file exists has been
sent. -/
def Replicated (disk : DataDisk) (r : AsyncRun mounts) : Prop :=
  (∃ s, r.thread = .inside s ∧ s.bOffset = (textOf r.log).length) ∧
    ∀ done l rest, r.log = done ++ l :: rest → r.start ≤ (textOf done).length →
      disk l.record.fBlockMapName ≠ none → r.Acked (textOf done).length l

/-! ### What a step does -/

variable {disk : DataDisk} {sequence : ℤ} {log done rest : List (RecordLine mounts)}
  {markFile : Option (List Byte)} {r : AsyncRun mounts} {s : SyncCtx} {e : CopyEnv} {sizes : ℕ → ℕ}

lemma asyncctxInitIo_success (sizes : ℕ → ℕ) (c : BinlogCtx) (m : Option (List Byte)) :
    asyncctxInitIo ⟨true, true, readSizes sizes 0, true⟩ sequence c m =
      (true, asyncctxInit sequence c m) := by
  cases m with
  | some text => rfl
  | none =>
    rw [asyncctxInitIo_none rfl rfl, asyncctxInit]
    simp only [SyncCtx.syncMarkFileBatdataWrite_readSizes, if_true, Option.isSome_none,
      Bool.false_eq_true, if_false]

lemma leaveLoop_readSizes (sizes : ℕ → ℕ) (s : SyncCtx) (hmark : s.markFile.isSome) :
    ∃ m, m.isSome ∧ AsyncThread.leaveLoop (readSizes sizes 0) s = .outside m := by
  rw [AsyncThread.leaveLoop, SyncCtx.syncMarkFileBatdataWrite_readSizes]
  split_ifs
  · exact ⟨some s.batdata, rfl, rfl⟩
  · exact ⟨s.markFile, hmark, rfl⟩

lemma advance_readSizes (now : ℤ) (n : ℕ) (sizes : ℕ → ℕ) (s : SyncCtx)
    (hmark : s.markFile.isSome) :
    ∃ s', s'.bOffset = s.bOffset + n ∧ s'.fdOffset = s.fdOffset ∧ s'.markFile.isSome ∧
      AsyncThread.advance now n (readSizes sizes 0) (readSizes sizes 0) s = .inside s' := by
  rw [AsyncThread.advance]
  simp only [SyncCtx.syncMarkFileBatdataWrite_readSizes, if_true]
  split_ifs
  · refine ⟨_, ?_, ?_, ?_, rfl⟩ <;> rfl
  · refine ⟨_, ?_, ?_, ?_, rfl⟩
    exacts [rfl, rfl, hmark]

lemma copyStep_outside {m : Option (List Byte)} (hthread : r.thread = .outside m) :
    copyStep disk sequence r e = { r with
      thread := .inside (asyncctxInit sequence r.ctx m)
      start := if m.isSome then r.start else (asyncctxInit sequence r.ctx m).bOffset } := by
  rw [copyStep, hthread]
  dsimp only
  rw [step, hthread]
  dsimp only
  rw [asyncctxInitIo_success]
  rfl

variable (disk sequence e) in
/-- **A step in the loop.**  The next record is copied, or it cannot be copied and the thread leaves the
loop, or the `read` has brought no newline. -/
lemma copyStep_inside (h : r.Inv) (hthread : r.thread = .inside s) (hmark : s.markFile.isSome)
    (hstands : r.Stands s done rest) :
    (∃ l rest' s', rest = l :: rest' ∧ disk.Copies l.record ∧
        s'.bOffset = s.bOffset + l.text.length ∧ s.fdOffset ≤ s'.fdOffset ∧ s'.markFile.isSome ∧
        copyStep disk sequence r e = { r with
          thread := .inside s', acked := (s.readPos, l.record) :: r.acked }) ∨
      (∃ l rest' m, rest = l :: rest' ∧ ¬ disk.Copies l.record ∧ m.isSome ∧
        copyStep disk sequence r e = { r with thread := .outside m }) ∨
      ∃ s', s'.bOffset = s.bOffset ∧ (rest = [] ∨ s.fdOffset < s'.fdOffset) ∧ s'.markFile.isSome ∧
        copyStep disk sequence r e = { r with thread := .inside s' } := by
  have hstep : copyStep disk sequence r e = { r with
      ctx := (roundOf mounts (roundIo disk r s e) r.ctx s).1
      thread := (roundOf mounts (roundIo disk r s e) r.ctx s).2.1
      acked := ((roundOf mounts (roundIo disk r s e) r.ctx s).2.2.map
        fun brecord => (s.readPos, brecord)).toList ++ r.acked } := by
    rw [copyStep, hthread]
    dsimp only
    rw [step, hthread]
  obtain ⟨s', hsame, hcases⟩ := hstands.roundOf h.index (roundIo disk r s e)
  have hmark' : s'.markFile.isSome := hsame.markFile ▸ hmark
  rcases hcases with ⟨l, rest', hrest, hrecord, -, hoff, hround⟩ | ⟨-, hoff, hround⟩ | ⟨hio, -⟩
  · have hhandled : (roundIo disk r s e).handled = true ↔ disk.Copies l.record := by
      rw [← disk.handle_eq_lfsOk_iff e.sfd]
      have hrecord : (binlogRead mounts (readSizes e.sizes) r.ctx s).record = some l.record := hrecord
      simp [roundIo, hrecord]
    by_cases hcopies : disk.Copies l.record
    · rw [if_pos (hhandled.2 hcopies)] at hround
      obtain ⟨s₂, hoffset, hfd, hmark₂, hadvance⟩ :=
        advance_readSizes e.now l.text.length e.sizes s' hmark'
      refine .inl ⟨l, rest', s₂, hrest, hcopies, ?_, ?_, hmark₂, ?_⟩
      · rw [hoffset, hsame.bOffset]
      · rw [hfd]
        exact hoff
      · rw [hstep, hround, ← hadvance]
        rfl
    · rw [if_neg (mt hhandled.1 hcopies)] at hround
      obtain ⟨m, hm, hleave⟩ := leaveLoop_readSizes e.sizes s' hmark'
      refine .inr (.inl ⟨l, rest', m, hrest, hcopies, hm, ?_⟩)
      rw [hstep, hround, ← hleave]
      rfl
  · refine .inr (.inr ⟨s', hsame.bOffset, hoff, hmark', ?_⟩)
    rw [hstep, hround]
    rfl
  · exact absurd hio (by simp [roundIo])

/-! ### Runs -/

/-- The state in a run on the records `log`: it has the invariant of all runs, what has been acknowledged
could be copied, and it is the first one or one behind the first `asyncctx_init`. -/
structure Copying (disk : DataDisk) (sequence : ℤ) (log : List (RecordLine mounts))
    (markFile : Option (List Byte)) (r : AsyncRun mounts) : Prop where
  inv : r.Inv
  log_eq : r.log = log
  acked : ∀ p ∈ r.acked, disk.Copies p.2
  started : r = start₀ log markFile ∨
    r.start = startPos sequence log markFile ∧ r.thread.markFile.isSome

variable (disk sequence) in
lemma copyStep_inv (h : r.Inv) (e : CopyEnv) : (copyStep disk sequence r e).Inv := by
  rw [copyStep]
  cases r.thread with
  | outside m | inside s => exact h.step _

lemma asyncctxInit_markFile_isSome (c : BinlogCtx) (m : Option (List Byte)) :
    (asyncctxInit sequence c m).markFile.isSome := by
  cases m with
  | some text =>
    have hframe := (SyncCtx.loadBatdata_frame (fgetsLines binlogRecordSize text)
      (zeroSyncCtx (some text))).2
    show (SyncCtx.loadBatdata _ (zeroSyncCtx (some text))).markFile.isSome
    rw [hframe]
    rfl
  | none => rfl

lemma copyStep_start₀ (log : List (RecordLine mounts)) (markFile : Option (List Byte)) (e : CopyEnv) :
    copyStep disk sequence (start₀ log markFile) e = { start₀ log markFile with
      thread := .inside (asyncctxInit sequence (oneFile log) markFile)
      start := startPos sequence log markFile } := by
  rw [copyStep_outside (m := markFile) rfl]
  cases markFile <;> rfl

lemma Copying.step (h : Copying disk sequence log markFile r) (e : CopyEnv) :
    Copying disk sequence log markFile (copyStep disk sequence r e) := by
  have hinv := copyStep_inv disk sequence h.inv e
  rcases h.started with rfl | ⟨hstart, hmark⟩
  · rw [copyStep_start₀] at hinv ⊢
    exact ⟨hinv, rfl, h.acked, .inr ⟨rfl, asyncctxInit_markFile_isSome _ _⟩⟩
  cases hthread : r.thread with
  | outside m =>
    have hm : m.isSome := by rwa [hthread] at hmark
    rw [copyStep_outside hthread, if_pos hm] at hinv ⊢
    exact ⟨hinv, h.log_eq, h.acked, .inr ⟨hstart, asyncctxInit_markFile_isSome _ _⟩⟩
  | inside s =>
    have hs : s.markFile.isSome := by rwa [hthread] at hmark
    obtain ⟨done, rest, hstands⟩ := (hthread ▸ h.inv.thread).inside s rfl
    rcases copyStep_inside disk sequence e h.inv hthread hs hstands with
      ⟨l, rest', s', -, hcopies, -, -, hs', heq⟩ | ⟨l, rest', m, -, -, hm, heq⟩ |
      ⟨s', -, -, hs', heq⟩
    · rw [heq] at hinv ⊢
      exact ⟨hinv, h.log_eq, forall_mem_cons.2 ⟨hcopies, h.acked⟩, .inr ⟨hstart, hs'⟩⟩
    · rw [heq] at hinv ⊢
      exact ⟨hinv, h.log_eq, h.acked, .inr ⟨hstart, hm⟩⟩
    · rw [heq] at hinv ⊢
      exact ⟨hinv, h.log_eq, h.acked, .inr ⟨hstart, hs'⟩⟩

lemma copying_start₀ (hlen : (textOf log).length < binlogMaxFileSize) (hmark : MarkedAt log markFile) :
    Copying disk sequence log markFile (start₀ log markFile) :=
  ⟨inv_start₀ hlen hmark, rfl, fun _ hp => absurd hp not_mem_nil, .inl rfl⟩

lemma Copying.acked_of_passed (h : Copying disk sequence log markFile r)
    (hthread : r.thread = .inside s) (hs : s.bOffset = (textOf r.log).length) {l : RecordLine mounts}
    (hlog : r.log = done ++ l :: rest) (hstart : r.start ≤ (textOf done).length) :
    r.Acked (textOf done).length l := by
  by_contra hnot
  obtain ⟨_, _, hstands⟩ := (hthread ▸ h.inv.thread).inside s rfl
  rw [← offset_recordSize] at hstart hnot
  have hle := hstands.fine.notAhead.le done l rest hlog hstart hnot
  have hpos := recordSize_pos l
  rw [hs, hlog, ← offset_recordSize, offset_append, offset_cons] at hle
  omega

/-- The bytes that are ahead of the position and of the descriptor. -/
def ahead (r : AsyncRun mounts) : ℕ :=
  match r.thread with
  | .outside _ => 2 * (textOf r.log).length + 1
  | .inside s => ((textOf r.log).length - s.bOffset) + ((textOf r.log).length - s.fdOffset)

/-- **Progress.** Where all records from the start on can be copied, a step goes on, or all records have
been passed. -/
lemma Copying.progress (h : Copying disk sequence log markFile r)
    (hall : ∀ done l rest, log = done ++ l :: rest →
      startPos sequence log markFile ≤ (textOf done).length → disk.Copies l.record)
    (hat : r = start₀ log markFile ∨
      ∃ s, r.thread = .inside s ∧ startPos sequence log markFile ≤ s.bOffset) (e : CopyEnv) :
    ((∃ s, (copyStep disk sequence r e).thread = .inside s ∧
        startPos sequence log markFile ≤ s.bOffset) ∧
      (copyStep disk sequence r e).ahead < r.ahead) ∨
    ∃ s, (copyStep disk sequence r e).thread = .inside s ∧
      s.bOffset = (textOf (copyStep disk sequence r e).log).length := by
  have hstep := h.step e
  rcases hat with rfl | ⟨s, hthread, hpos⟩
  · left
    rw [copyStep_start₀]
    refine ⟨⟨_, rfl, le_refl _⟩, ?_⟩
    simp only [ahead, start₀]
    omega
  have hs : r.start = startPos sequence log markFile ∧ s.markFile.isSome := by
    rcases h.started with rfl | hstarted
    · exact absurd hthread (by simp [start₀])
    · rwa [hthread] at hstarted
  obtain ⟨done, rest, hstands⟩ := (hthread ▸ h.inv.thread).inside s rfl
  have hlog : log = done ++ rest := h.log_eq.symm.trans hstands.log
  have hlen : (textOf r.log).length = s.bOffset + (textOf rest).length := by
    rw [hstands.log, hstands.bOffset, textOf_append, length_append]
  rcases copyStep_inside disk sequence e h.inv hthread hs.2 hstands with
    ⟨l, rest', s', rfl, -, hoffset, hfd, -, heq⟩ | ⟨l, rest', m, rfl, hcopies, -, -⟩ |
    ⟨s', hoffset, hfd, -, heq⟩
  · -- the position moves behind the record
    left
    have hl := recordSize_pos l
    rw [recordSize] at hl
    rw [textOf_cons, length_append] at hlen
    rw [heq]
    refine ⟨⟨s', rfl, by omega⟩, ?_⟩
    simp only [ahead, hthread]
    omega
  · exact absurd (hall done l rest' hlog (hstands.bOffset ▸ hpos)) hcopies
  · rcases hfd with rfl | hfd
    · right
      rw [heq]
      refine ⟨s', rfl, ?_⟩
      rw [hoffset, hlen, textOf_nil, length_nil, add_zero]
    · -- the descriptor moves, and it is not behind the end of the file
      left
      rw [heq] at hstep ⊢
      obtain ⟨_, _, hstands'⟩ := hstep.inv.thread.inside s' rfl
      have hend := hstands'.reads.offset
      have hfile : r.ctx.files 0 = textOf r.log := h.inv.file
      dsimp only at hend
      rw [hfile] at hend
      refine ⟨⟨s', rfl, hoffset ▸ hpos⟩, ?_⟩
      simp only [ahead, hthread]
      omega

lemma Copying.copies_of_replicated (h : Copying disk sequence log markFile r)
    (hrep : r.Replicated disk) {l : RecordLine mounts} (hlog : log = done ++ l :: rest)
    (hstart : startPos sequence log markFile ≤ (textOf done).length) : disk.Copies l.record := by
  obtain ⟨⟨s, hthread, hs⟩, -⟩ := hrep
  have hstarted : r.start = startPos sequence log markFile := by
    rcases h.started with rfl | hstarted
    · exact absurd hthread (by simp [start₀])
    · exact hstarted.1
  have hacked := h.acked_of_passed hthread hs (h.log_eq.trans hlog) (hstarted ▸ hstart)
  exact h.acked _ hacked

lemma copying_feed (hlen : (textOf log).length < binlogMaxFileSize) (hmark : MarkedAt log markFile)
    (env : ℕ → CopyEnv) (n : ℕ) :
    Copying disk sequence log markFile
      (feed (copyStep disk sequence) (start₀ log markFile) env n) :=
  feed_inv (fun _ e h => h.step e) (copying_start₀ hlen hmark) n

/-- **Replication past vanished files.**  Let the binlog be one file of records, let the thread start
without a mark file or with one of an earlier run, and let the peer acknowledge every copy.  The thread
comes to a state in which the reader has passed every record, and every record from the start on whose
file exists has been sent, exactly if every record from the start on is one of a new file and its file
exists. -/
theorem replicated_iff (log : List (RecordLine mounts)) (markFile : Option (List Byte))
    (hlen : (textOf log).length < binlogMaxFileSize) (hmark : MarkedAt log markFile) (disk : DataDisk)
    (sequence : ℤ) (env : ℕ → CopyEnv) :
    (∃ n, Replicated disk (feed (copyStep disk sequence) (start₀ log markFile) env n)) ↔
      ∀ done l rest, log = done ++ l :: rest →
        startPos sequence log markFile ≤ (textOf done).length → disk.Copies l.record := by
  constructor
  · rintro ⟨n, hrep⟩ done l rest hlog hstart
    exact (copying_feed hlen hmark env n).copies_of_replicated hrep hlog hstart
  · intro hall
    refine exists_feed_of_measure ahead (I := fun r => Copying disk sequence log markFile r ∧
      (r = start₀ log markFile ∨
        ∃ s, r.thread = .inside s ∧ startPos sequence log markFile ≤ s.bOffset)) ?_
      ⟨copying_start₀ hlen hmark, .inl rfl⟩
    rintro r e ⟨hcopying, hat⟩
    have hnext := hcopying.step e
    rcases hcopying.progress hall hat e with ⟨hin, hlt⟩ | ⟨s, hthread, hs⟩
    · exact .inl ⟨⟨hnext, .inr hin⟩, hlt⟩
    · refine .inr ⟨⟨s, hthread, hs⟩, fun done l rest hlog hstart _ => ?_⟩
      exact hnext.acked_of_passed hthread hs hlog hstart

/-- A `read` fills the buffer, and nothing else is of interest. -/
def plainEnv (_ : ℕ) : CopyEnv := ⟨fun _ => binlogBufferSize, 7, 3⟩

/-- Two records whose files are there. -/
theorem replicated_both : ∃ n, Replicated (fun _ => some 5)
      (feed (copyStep (fun _ => some 5) 0) (start₀ [lineA, lineB] none) plainEnv n) := by
  refine (replicated_iff [lineA, lineB] none (by decide) (fun _ h => absurd h (by simp))
    (fun _ => some 5) 0 plainEnv).2 fun done l rest hlog _ => ?_
  have hmem : l ∈ [lineA, lineB] := by simp [hlog]
  rcases mem_pair.1 hmem with rfl | rfl <;> decide

/-- The file `/m/a` of the first of two records has vanished, that of the second one is there. -/
def withoutA : DataDisk := fun path => if path = [47, 109, 47, 97] then none else some 5

/-- The file of the second record is there, and after no number of steps have both records been passed. -/
theorem replication_stuck : withoutA lineB.record.fBlockMapName = some 5 ∧
    ∀ n, ¬ Replicated withoutA
      (feed (copyStep withoutA 0) (start₀ [lineA, lineB] none) plainEnv n) := by
  refine ⟨by decide, fun n hrep => ?_⟩
  have hcopying : Copying withoutA 0 [lineA, lineB] none
      (feed (copyStep withoutA 0) (start₀ [lineA, lineB] none) plainEnv n) :=
    copying_feed (by decide) (fun _ h => absurd h (by simp)) plainEnv n
  have hcopies : withoutA.Copies lineA.record :=
    @Copying.copies_of_replicated _ _ _ _ [] [lineB] _ _ hcopying hrep lineA rfl (le_refl 0)
  exact absurd hcopies (by decide)

end AsyncRun

end Lfs.Binlog
