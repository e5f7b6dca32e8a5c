/-
Runs of the thread that copies the records of a binlog to a peer (`__async_thread_entry` in
`ds_sync.c`).

The thread reads the binlog from the position in its mark file and sends one record after
the other.  The mark is written after every second record and when the loop is left; the
process may die at any time, also inside a mark write, and `asyncctx_init` starts again
from the mark file.
-/
import Lfs.Binlog.Async
import Lfs.Binlog.BatMark
import Lfs.Binlog.ReaderSpec
import Lfs.Lib.Cursor
import Lfs.Lib.Run

namespace Lfs.Binlog

open Lfs.Lib List

/-! ### The thread -/

/-- What the system calls of `asyncctx_init` return: the mark file is opened for reading or
not, the binlog file is opened or not, to find the position and to read from it, and the
mark file is opened and written. -/
structure InitIo where
  markRead : Bool
  locateOpen : Bool
  mark : ReadIo
  binlogOpen : Bool

/-- `asyncctx_init` with any results of its system calls.  The first component tells
whether it returns `LFS_OK`. -/
def asyncctxInitIo (io : InitIo) (lastSyncSequence : ℤ) (c : BinlogCtx)
    (markFile : Option (List Byte)) : Bool × SyncCtx :=
  let openSetting (s : SyncCtx) : Bool × SyncCtx :=
    if io.binlogOpen then (true, s.openSettingBinlog) else (false, s)
  let s := zeroSyncCtx markFile
  if markFile.isSome then openSetting (if io.markRead then s.markFileBatdataLoad else s)
  else if !io.locateOpen then (false, s)
  else
    let s := { s with bIndex := c.currBinlogFileIndex }.binlogSyncOffsetLocate lastSyncSequence c
    match s.syncMarkFileBatdataWrite io.mark with
    | (ret, s) => if ret = lfsOk then openSetting s else (false, s)

/-- The thread is in its inner loop with a context, or it is not and there is only the mark
file. -/
inductive AsyncThread where
  | outside (markFile : Option (List Byte))
  | inside (sctx : SyncCtx)

namespace AsyncThread

def markFile : AsyncThread → Option (List Byte)
  | outside m => m
  | inside s => s.markFile

/-- What follows the inner loop: the mark is written if it is not up to date, and the
context is destroyed. -/
def leaveLoop (io : ReadIo) (s : SyncCtx) : AsyncThread :=
  if s.lastSyncCount ≠ s.syncCount then outside (s.syncMarkFileBatdataWrite io).2.markFile
  else outside s.markFile

/-- The end of a round of the inner loop, after a record of `recordLength` bytes. -/
def advance (now : ℤ) (recordLength : ℕ) (markIo exitIo : ReadIo) (s : SyncCtx) : AsyncThread :=
  let s := { s with
    bOffset := s.bOffset + recordLength
    syncCount := s.syncCount + 1
    lastTimestamp := now }
  if writeToBatFileBySyncCount ≤ s.syncCount - s.lastSyncCount then
    match s.syncMarkFileBatdataWrite markIo with
    | (ret, s) => if ret = lfsOk then inside s else leaveLoop exitIo s
  else inside s

end AsyncThread

/-- What happens in a round of the inner loop: the results of the system calls of
`binlog_read`, whether `__async_handle` returns `LFS_OK`, the clock, and the results of the
mark writes in the loop and behind it.  A process that dies inside a mark write leaves what
a `write` of fewer bytes leaves. -/
structure RoundIo where
  read : ℕ → ReadIo
  handled : Bool
  now : ℤ
  mark : ReadIo
  exit : ReadIo

/-- The position in the file of the first byte that has not been consumed. -/
def SyncCtx.readPos (s : SyncCtx) : ℕ := s.fdOffset - s.bBuff.data.length

/-- A binlog, the thread, the position that the first `asyncctx_init` has set, and the
records that the peer has acknowledged, each with its position in the file.  The records of
the file are kept besides the file. -/
structure AsyncRun (mounts : Mounts) where
  ctx : BinlogCtx
  log : List (RecordLine mounts)
  thread : AsyncThread
  start : ℕ
  acked : List (ℕ × BinlogRecord)

/-- The steps: records are flushed to the file, `asyncctx_init` is called on a new
connection, a round of the inner loop, the inner loop ends because the peer's state has
changed or the thread has to stop, the process dies. -/
inductive AsyncOp (mounts : Mounts) where
  | flush (ls : List (RecordLine mounts))
  | init (lastSyncSequence : ℤ) (io : InitIo)
  | round (io : RoundIo)
  | leave (io : ReadIo)
  | crash

namespace AsyncRun

variable {mounts : Mounts}

/-- A round of the inner loop, with the record that the peer has acknowledged. -/
def roundOf (mounts : Mounts) (io : RoundIo) (c : BinlogCtx) (s : SyncCtx) :
    BinlogCtx × AsyncThread × Option BinlogRecord :=
  let r := binlogRead mounts io.read c s
  match r.state with
  | some .ok =>
    if io.handled then (r.ctx, .advance io.now r.brecordSize io.mark io.exit r.sctx, r.record)
    else (r.ctx, .leaveLoop io.exit r.sctx, none)
  | some .nodata => (r.ctx, .inside r.sctx, none)
  | some .error => (r.ctx, .leaveLoop io.exit r.sctx, none)
  -- all other values are taken for a record that has been handled
  | some .fileEnd => (r.ctx, .advance io.now r.brecordSize io.mark io.exit r.sctx, none)
  | some .lfsError => (r.ctx, .advance io.now r.brecordSize io.mark io.exit r.sctx, none)
  | none => (r.ctx, .outside r.sctx.markFile, none)

/-- A step.  A flush that fills the file would open the next one, and is no step here. -/
def step (r : AsyncRun mounts) : AsyncOp mounts → AsyncRun mounts
  | .flush ls =>
    if (textOf (r.log ++ ls)).length < binlogMaxFileSize then
      { r with ctx := r.ctx.appendFd (textOf ls), log := r.log ++ ls }
    else r
  | .init lastSyncSequence io =>
    match r.thread with
    | .inside _ => r
    | .outside m =>
      match asyncctxInitIo io lastSyncSequence r.ctx m with
      | (ok, s) =>
        { r with
          thread := if ok then .inside s else .outside s.markFile
          start := if m.isSome then r.start else s.bOffset }
  | .round io =>
    match r.thread with
    | .outside _ => r
    | .inside s =>
      match roundOf mounts io r.ctx s with
      | (c, thread, record) =>
        { r with
          ctx := c
          thread := thread
          acked := (record.map fun brecord => (s.readPos, brecord)).toList ++ r.acked }
  | .leave io =>
    match r.thread with
    | .outside _ => r
    | .inside s => { r with thread := .leaveLoop io s }
  | .crash => { r with thread := .outside r.thread.markFile }

/-- The context of a binlog of one file with these records. -/
def oneFile (log : List (RecordLine mounts)) : BinlogCtx :=
  { BinlogCtx.fresh with
    binlogFileSize := (textOf log).length
    files := Function.update BinlogCtx.fresh.files 0 (textOf log) }

/-- The start of a run, with the mark file of an earlier run if there is one. -/
def start₀ (log : List (RecordLine mounts)) (markFile : Option (List Byte)) : AsyncRun mounts where
  ctx := oneFile log
  log := log
  thread := .outside markFile
  start := (zeroSyncCtx markFile).markFileBatdataLoad.bOffset
  acked := []

def recordSize (l : RecordLine mounts) : ℕ := l.text.length

/-- The peer has acknowledged the record `l` at the position `p`. -/
def Acked (r : AsyncRun mounts) (p : ℕ) (l : RecordLine mounts) : Prop := (p, l.record) ∈ r.acked

/-- A position of the binlog that is a boundary and not after the first record that the
peer has not acknowledged. -/
structure Fine (r : AsyncRun mounts) (s : SyncCtx) : Prop where
  bIndex : s.bIndex = 0
  notAhead : NotAhead recordSize r.log r.start r.Acked s.bOffset

/-! ### Positions -/

variable {r r' : AsyncRun mounts} {s s' : SyncCtx} {ls done rest : List (RecordLine mounts)}

lemma offset_recordSize (ls : List (RecordLine mounts)) :
    offset recordSize ls = (textOf ls).length := by
  induction ls with
  | nil => rfl
  | cons l ls ih => rw [offset_cons, ih, textOf_cons, length_append, recordSize]

lemma recordSize_pos (l : RecordLine mounts) : 0 < recordSize l :=
  length_pos_iff.2 l.isLine.ne_nil

lemma Fine.mono (h : r.Fine s) (hlog : ∃ ls, r'.log = r.log ++ ls) (hstart : r'.start = r.start)
    (hacked : r.acked ⊆ r'.acked) : r'.Fine s := by
  obtain ⟨ls, hls⟩ := hlog
  refine ⟨h.bIndex, ?_⟩
  rw [hls, hstart]
  exact (h.notAhead.append ls).mono fun q l hl => hacked hl

lemma Fine.bOffset_lt (h : r.Fine s) (hlen : (textOf r.log).length < binlogMaxFileSize) :
    s.bOffset < 2 ^ 63 := by
  have hle := h.notAhead.boundary.le
  rw [offset_recordSize] at hle
  have hmax : binlogMaxFileSize < 2 ^ 63 := by decide
  omega

lemma Fine.zero (hi : s.bIndex = 0) (ho : s.bOffset = 0) : r.Fine s := by
  refine ⟨hi, ?_⟩
  rw [ho]
  exact .zero

/-- Whatever mark file there is loads such a position. -/
def MarkOk (r : AsyncRun mounts) (markFile : Option (List Byte)) : Prop :=
  ∀ text, markFile = some text → r.Fine (zeroSyncCtx (some text)).markFileBatdataLoad

lemma MarkOk.write (hmark : r.MarkOk s.markFile) (h : r.Fine s)
    (hlen : (textOf r.log).length < binlogMaxFileSize) (io : ReadIo) :
    r.MarkOk (s.syncMarkFileBatdataWrite io).2.markFile := by
  intro text htext
  rw [SyncCtx.syncMarkFileBatdataWrite] at htext
  by_cases hopen : !io.markOpen
  · rw [if_pos hopen] at htext
    exact hmark text htext
  · rw [if_neg hopen] at htext
    have htorn : text <+: s.batdata := by
      rw [← Option.some.inj htext]
      exact take_prefix _ _
    have hindex : s.bIndex < 2 ^ 31 := by rw [h.bIndex]; decide
    rcases SyncCtx.markFileBatdataLoad_of_torn hindex (h.bOffset_lt hlen) htorn with
      ⟨hi, ho⟩ | ⟨hi, ho⟩
    · exact .zero hi ho
    · exact ⟨hi.trans h.bIndex, ho ▸ h.notAhead⟩

/-! ### The thread -/

/-- The thread stands in front of the records `rest`, and this position may be marked. -/
structure Stands (r : AsyncRun mounts) (s : SyncCtx) (done rest : List (RecordLine mounts)) :
    Prop where
  fine : r.Fine s
  log : r.log = done ++ rest
  bOffset : s.bOffset = (textOf done).length
  reads : SyncCtx.Reads r.ctx s 0 done rest []

/-- The mark file and the context of the thread have such positions. -/
structure ThreadOk (r : AsyncRun mounts) (t : AsyncThread) : Prop where
  mark : r.MarkOk t.markFile
  inside : ∀ s, t = .inside s → ∃ done rest, r.Stands s done rest

lemma MarkOk.outside {m : Option (List Byte)} (h : r.MarkOk m) : r.ThreadOk (.outside m) :=
  ⟨h, fun _ hs => absurd hs (by simp)⟩

lemma Stands.inside (h : r.Stands s done rest) (hmark : r.MarkOk s.markFile) :
    r.ThreadOk (.inside s) := by
  refine ⟨hmark, fun s' hs' => ⟨done, rest, ?_⟩⟩
  obtain rfl := AsyncThread.inside.inj hs'
  exact h

lemma MarkOk.leaveLoop (hmark : r.MarkOk s.markFile) (h : r.Fine s)
    (hlen : (textOf r.log).length < binlogMaxFileSize) (io : ReadIo) :
    r.ThreadOk (.leaveLoop io s) := by
  rw [AsyncThread.leaveLoop]
  split_ifs
  · exact (hmark.write h hlen io).outside
  · exact hmark.outside

lemma syncMarkFileBatdataWrite_eq (io : ReadIo) (s : SyncCtx) : ∃ m n,
    (s.syncMarkFileBatdataWrite io).2 = { s with markFile := m, lastSyncCount := n } := by
  rw [SyncCtx.syncMarkFileBatdataWrite]
  split_ifs
  · exact ⟨s.markFile, s.lastSyncCount, rfl⟩
  · exact ⟨_, _, rfl⟩

lemma Stands.write (h : r.Stands s done rest) (io : ReadIo) :
    r.Stands (s.syncMarkFileBatdataWrite io).2 done rest := by
  obtain ⟨m, n, heq⟩ := syncMarkFileBatdataWrite_eq io s
  rw [heq]
  exact ⟨⟨h.fine.bIndex, h.fine.notAhead⟩, h.log, h.bOffset, h.reads.congr rfl rfl h.reads.flag rfl⟩

lemma Stands.readPos (h : r.Stands s done rest) : s.readPos = (textOf done).length := by
  have hfile := congrArg List.length h.reads.file
  have htext := congrArg List.length h.reads.text
  have hoff := h.reads.offset
  have hunread : s.unread r.ctx = (r.ctx.files 0).drop s.fdOffset := by
    simp [SyncCtx.unread, h.reads.fd]
  simp only [hunread, textOf_append, append_nil, length_append, length_drop]
    at hfile htext
  rw [SyncCtx.readPos]
  omega

lemma Stands.next {l : RecordLine mounts} (n : ℕ) (now : ℤ) (h : r.Stands s done (l :: rest))
    (hsame : SyncCtx.SameMark s s') (hreads : SyncCtx.Reads r.ctx s' 0 (done ++ [l]) rest [])
    (hacked : r.Acked (textOf done).length l) :
    r.Stands { s' with
      bOffset := s'.bOffset + l.text.length, syncCount := n, lastTimestamp := now }
      (done ++ [l]) rest := by
  have hoffset : s'.bOffset + l.text.length = (textOf (done ++ [l])).length := by
    rw [hsame.bOffset, h.bOffset]
    simp
  refine ⟨⟨hsame.bIndex.trans h.fine.bIndex, ?_⟩, ?_, hoffset, hreads.congr rfl rfl hreads.flag rfl⟩
  · have hnow := h.fine.notAhead
    rw [h.log, h.bOffset, ← offset_recordSize] at hnow
    rw [← offset_recordSize] at hacked
    have hnext := hnow.advance recordSize_pos hacked
    rw [h.log]
    show NotAhead recordSize (done ++ l :: rest) r.start r.Acked (s'.bOffset + l.text.length)
    rw [hoffset, ← offset_recordSize]
    exact hnext
  · rw [h.log, append_assoc, singleton_append]

lemma Stands.advance {l : RecordLine mounts} (h : r.Stands s done (l :: rest))
    (hmark : r.MarkOk s.markFile) (hlen : (textOf r.log).length < binlogMaxFileSize)
    (hsame : SyncCtx.SameMark s s') (hreads : SyncCtx.Reads r.ctx s' 0 (done ++ [l]) rest [])
    (hacked : r.Acked (textOf done).length l) (now : ℤ) (markIo exitIo : ReadIo) :
    r.ThreadOk (.advance now l.text.length markIo exitIo s') := by
  have hnext := h.next (s'.syncCount + 1) now hsame hreads hacked
  rw [← hsame.markFile] at hmark
  rw [AsyncThread.advance]
  set s₁ : SyncCtx := { s' with
    bOffset := s'.bOffset + l.text.length, syncCount := s'.syncCount + 1, lastTimestamp := now }
  have hmark₁ : r.MarkOk s₁.markFile := hmark
  split_ifs
  · have hwrite := hnext.write markIo
    have hmarkw := hmark₁.write hnext.fine hlen markIo
    generalize s₁.syncMarkFileBatdataWrite markIo = w at hwrite hmarkw ⊢
    obtain ⟨ret, s₂⟩ := w
    dsimp only at hwrite hmarkw ⊢
    split_ifs
    · exact hwrite.inside hmarkw
    · exact hmarkw.leaveLoop hwrite.fine hlen exitIo
  · exact hnext.inside hmark₁

/-! ### The steps -/

/-- The file has the records of the log, and the thread and its mark file have positions
that may be marked. -/
structure Inv (r : AsyncRun mounts) : Prop where
  fd : r.ctx.binlogFd = some 0
  index : r.ctx.currBinlogFileIndex = 0
  file : r.ctx.files 0 = textOf r.log
  length : (textOf r.log).length < binlogMaxFileSize
  thread : r.ThreadOk r.thread

lemma ThreadOk.mono {t : AsyncThread} (h : r.ThreadOk t) (hctx : r'.ctx = r.ctx)
    (hlog : r'.log = r.log) (hstart : r'.start = r.start) (hacked : r.acked ⊆ r'.acked) :
    r'.ThreadOk t := by
  have hfine {s : SyncCtx} (hs : r.Fine s) : r'.Fine s :=
    hs.mono ⟨[], by rw [hlog, append_nil]⟩ hstart hacked
  refine ⟨fun text htext => hfine (h.mark text htext), fun s hs => ?_⟩
  obtain ⟨done, rest, hstands⟩ := h.inside s hs
  exact ⟨done, rest, hfine hstands.fine, hlog.trans hstands.log, hstands.bOffset,
    hctx ▸ hstands.reads⟩

lemma Inv.flush (h : r.Inv) (ls : List (RecordLine mounts)) : (r.step (.flush ls)).Inv := by
  rw [step]
  split_ifs with hlen
  · have hfile : (r.ctx.appendFd (textOf ls)).files 0 = r.ctx.files 0 ++ textOf ls := by
      rw [BinlogCtx.appendFd_some h.fd]
      simp
    have hfine {s : SyncCtx} (hs : r.Fine s) :
        Fine { r with ctx := r.ctx.appendFd (textOf ls), log := r.log ++ ls } s :=
      hs.mono ⟨ls, rfl⟩ rfl (List.Subset.refl _)
    refine ⟨?_, ?_, ?_, hlen, ⟨fun text htext => hfine (h.thread.mark text htext), fun s hs => ?_⟩⟩
    · show (r.ctx.appendFd (textOf ls)).binlogFd = some 0
      rw [BinlogCtx.appendFd_some h.fd]
      exact h.fd
    · show (r.ctx.appendFd (textOf ls)).currBinlogFileIndex = 0
      rw [BinlogCtx.appendFd_some h.fd]
      exact h.index
    · show (r.ctx.appendFd (textOf ls)).files 0 = textOf (r.log ++ ls)
      rw [hfile, h.file, textOf_append]
    · obtain ⟨done, rest, hstands⟩ := h.thread.inside s hs
      refine ⟨done, rest ++ ls, hfine hstands.fine, ?_, hstands.bOffset, hstands.reads.append hfile⟩
      show r.log ++ ls = done ++ (rest ++ ls)
      rw [hstands.log, append_assoc]
  · exact h

lemma Inv.leave (h : r.Inv) (io : ReadIo) : (r.step (.leave io)).Inv := by
  rw [step]
  cases hthread : r.thread with
  | outside m => exact h
  | inside s =>
    have hok := hthread ▸ h.thread
    obtain ⟨done, rest, hstands⟩ := hok.inside s rfl
    have hmark : r.MarkOk s.markFile := hok.mark
    exact ⟨h.fd, h.index, h.file, h.length,
      (hmark.leaveLoop hstands.fine h.length io).mono rfl rfl rfl (List.Subset.refl _)⟩

lemma Inv.crash (h : r.Inv) : (r.step .crash).Inv :=
  ⟨h.fd, h.index, h.file, h.length, h.thread.mark.outside.mono rfl rfl rfl (List.Subset.refl _)⟩

/-- What a round does where the thread stands: it takes the next record, or there is no record, or it
leaves the loop because the `read` has failed. -/
lemma Stands.roundOf (h : r.Stands s done rest) (hindex : r.ctx.currBinlogFileIndex = 0)
    (io : RoundIo) :
    ∃ s', SyncCtx.SameMark s s' ∧
      ((∃ l rest', rest = l :: rest' ∧ (binlogRead mounts io.read r.ctx s).record = some l.record ∧
          SyncCtx.Reads r.ctx s' 0 (done ++ [l]) rest' [] ∧ s.fdOffset ≤ s'.fdOffset ∧
          AsyncRun.roundOf mounts io r.ctx s = if io.handled then
              (r.ctx, .advance io.now l.text.length io.mark io.exit s', some l.record)
            else (r.ctx, .leaveLoop io.exit s', none)) ∨
        (SyncCtx.Reads r.ctx s' 0 done rest [] ∧ (rest = [] ∨ s.fdOffset < s'.fdOffset) ∧
          AsyncRun.roundOf mounts io r.ctx s = (r.ctx, .inside s', none)) ∨
        ((io.read 0).read = none ∧
          AsyncRun.roundOf mounts io r.ctx s = (r.ctx, .leaveLoop io.exit s', none))) := by
  have hcurr : s.bIndex = r.ctx.currBinlogFileIndex := h.fine.bIndex.trans hindex.symm
  obtain ⟨s', hsame, hcases⟩ := h.reads.binlogRead_lastFile hcurr io.read
  refine ⟨s', hsame, ?_⟩
  rcases hcases with ⟨l, rest', hrest, hread, hreads, hoff⟩ | ⟨hread, hreads, hoff⟩ | ⟨hread, -, hio⟩
  · exact .inl ⟨l, rest', hrest, by rw [hread], hreads, hoff, by rw [AsyncRun.roundOf, hread]⟩
  · exact .inr (.inl ⟨hreads, hoff, by rw [AsyncRun.roundOf, hread]⟩)
  · exact .inr (.inr ⟨hio, by rw [AsyncRun.roundOf, hread]⟩)

/-- A round: the next record is acknowledged and the position moves behind it, or the
position stays. -/
lemma Inv.round (h : r.Inv) (io : RoundIo) : (r.step (.round io)).Inv := by
  rw [step]
  cases hthread : r.thread with
  | outside m => exact h
  | inside s =>
    have hok := hthread ▸ h.thread
    obtain ⟨done, rest, hstands⟩ := hok.inside s rfl
    have hmark : r.MarkOk s.markFile := hok.mark
    obtain ⟨s', hsame, hcases⟩ := hstands.roundOf h.index io
    -- the same position in the context after the call
    have hfine' : r.Fine s' := by
      refine ⟨hsame.bIndex.trans hstands.fine.bIndex, ?_⟩
      rw [hsame.bOffset]
      exact hstands.fine.notAhead
    have hmark' : r.MarkOk s'.markFile := hsame.markFile.symm ▸ hmark
    have hleave : r.ThreadOk (.leaveLoop io.exit s') := hmark'.leaveLoop hfine' h.length io.exit
    dsimp only
    rcases hcases with ⟨l, rest', rfl, -, hreads, -, hround⟩ | ⟨hreads, -, hround⟩ | ⟨-, hround⟩
    · rw [hround]
      by_cases hhandled : io.handled
      · rw [if_pos hhandled]
        refine ⟨h.fd, h.index, h.file, h.length, ?_⟩
        set r₁ : AsyncRun mounts := { r with
          acked := (s.readPos, l.record) :: r.acked } with hr₁
        have hsub : r.acked ⊆ r₁.acked := subset_cons_self _ _
        have hfine₁ {z : SyncCtx} (hz : r.Fine z) : r₁.Fine z :=
          hz.mono ⟨[], (append_nil _).symm⟩ rfl hsub
        have hstands₁ : r₁.Stands s done (l :: rest') :=
          ⟨hfine₁ hstands.fine, hstands.log, hstands.bOffset, hstands.reads⟩
        have hmark₁ : r₁.MarkOk s.markFile := fun text htext => hfine₁ (hmark text htext)
        have hacked : r₁.Acked (textOf done).length l := by
          rw [← hstands.readPos]
          exact mem_cons_self
        exact (hstands₁.advance hmark₁ h.length hsame hreads hacked io.now io.mark io.exit).mono
          rfl rfl rfl (List.Subset.refl _)
      · rw [if_neg hhandled]
        exact ⟨h.fd, h.index, h.file, h.length, hleave.mono rfl rfl rfl (List.Subset.refl _)⟩
    · rw [hround]
      have hstays : r.Stands s' done rest :=
        ⟨hfine', hstands.log, hsame.bOffset.trans hstands.bOffset, hreads⟩
      exact ⟨h.fd, h.index, h.file, h.length,
        (hstays.inside hmark').mono rfl rfl rfl (List.Subset.refl _)⟩
    · rw [hround]
      exact ⟨h.fd, h.index, h.file, h.length, hleave.mono rfl rfl rfl (List.Subset.refl _)⟩

lemma Fine.openSetting (h : r.Fine s) (hfile : r.ctx.files 0 = textOf r.log)
    (hbuff : s.bBuff = ⟨0, false, []⟩) : ∃ done rest, r.Stands s.openSettingBinlog done rest := by
  obtain ⟨done, rest, hlog, hoffset⟩ := h.notAhead.boundary
  rw [offset_recordSize] at hoffset
  have hfd : s.openSettingBinlog.bFd = some 0 := congrArg some h.bIndex
  have htext : r.ctx.files 0 = textOf done ++ textOf rest := by rw [hfile, hlog, textOf_append]
  refine ⟨done, rest, ⟨h.bIndex, h.notAhead⟩, hlog, hoffset,
    ⟨hfd, by rw [SyncCtx.openSettingBinlog, hbuff], ?_, ?_, ?_, by simp, by decide⟩⟩
  · rw [hfile, hlog, append_nil]
  · have hdrop : (r.ctx.files 0).drop s.bOffset = textOf rest := by
      rw [htext, hoffset, drop_left]
    simp only [SyncCtx.unread, hfd]
    rw [SyncCtx.openSettingBinlog, hbuff, append_nil]
    exact hdrop.symm
  · rw [htext, length_append]
    show s.bOffset ≤ _
    omega

lemma Fine.openThread (h : r.Fine s) (hfile : r.ctx.files 0 = textOf r.log)
    (hbuff : s.bBuff = ⟨0, false, []⟩) (hmark : r.MarkOk s.markFile) (opened : Bool) :
    r.ThreadOk (if opened then .inside s.openSettingBinlog else .outside s.markFile) := by
  cases opened with
  | true =>
    obtain ⟨done, rest, hstands⟩ := h.openSetting hfile hbuff
    exact hstands.inside hmark
  | false => exact hmark.outside

lemma asyncctxInitIo_none {io : InitIo} {sequence : ℤ} {c : BinlogCtx} {s₀ : SyncCtx}
    (hopen : io.locateOpen = true)
    (hs₀ : SyncCtx.binlogSyncOffsetLocate sequence c
      { zeroSyncCtx none with bIndex := c.currBinlogFileIndex } = s₀) :
    asyncctxInitIo io sequence c none = if (s₀.syncMarkFileBatdataWrite io.mark).1 = lfsOk then
        if io.binlogOpen then (true, (s₀.syncMarkFileBatdataWrite io.mark).2.openSettingBinlog)
        else (false, (s₀.syncMarkFileBatdataWrite io.mark).2)
      else (false, (s₀.syncMarkFileBatdataWrite io.mark).2) := by
  subst hs₀
  rw [asyncctxInitIo, if_neg (by simp), if_neg (by simp [hopen])]

/-- `asyncctx_init` without a mark file: the position is found in the binlog, and the run
starts there. -/
lemma Inv.init_located (h : r.Inv) (sequence : ℤ) (io : InitIo) :
    Inv (match asyncctxInitIo io sequence r.ctx none with
      | (ok, s) => { r with
          thread := if ok then .inside s else .outside s.markFile, start := s.bOffset }) := by
  have hnone (r' : AsyncRun mounts) : r'.MarkOk none := fun _ htext => absurd htext (by simp)
  by_cases hlocate : io.locateOpen
  · have hfile : r.ctx.files r.ctx.currBinlogFileIndex = textOf r.log := by rw [h.index, h.file]
    obtain ⟨s₀, hs₀, hindex, hoffset, hbuff, hmark₀⟩ : ∃ s₀ : SyncCtx,
        SyncCtx.binlogSyncOffsetLocate sequence r.ctx
          { zeroSyncCtx none with bIndex := r.ctx.currBinlogFileIndex } = s₀ ∧
        s₀.bIndex = 0 ∧ Boundary recordSize r.log s₀.bOffset ∧ s₀.bBuff = ⟨0, false, []⟩ ∧
        s₀.markFile = none := by
      refine ⟨_, SyncCtx.binlogSyncOffsetLocate_eq hfile, h.index, ?_, rfl, rfl⟩
      exact ⟨r.log.takeWhile fun l => l.record.sequence ≤ sequence, _,
        (takeWhile_append_dropWhile ..).symm, (offset_recordSize _).symm⟩
    set r₁ : AsyncRun mounts := { r with start := s₀.bOffset } with hr₁
    have hfine : r₁.Fine s₀ := ⟨hindex, .at_start hoffset⟩
    have hmark := MarkOk.write (hmark₀ ▸ hnone r₁) hfine h.length io.mark
    obtain ⟨m, n, hwrite⟩ := syncMarkFileBatdataWrite_eq io.mark s₀
    rw [asyncctxInitIo_none hlocate hs₀]
    rw [hwrite] at hmark ⊢
    have hfine' : r₁.Fine { s₀ with markFile := m, lastSyncCount := n } :=
      ⟨hfine.bIndex, hfine.notAhead⟩
    split_ifs
    · refine ⟨h.fd, h.index, h.file, h.length, ?_⟩
      exact (hfine'.openThread h.file hbuff hmark true).mono rfl rfl rfl (List.Subset.refl _)
    · exact ⟨h.fd, h.index, h.file, h.length, hmark.outside.mono rfl rfl rfl (List.Subset.refl _)⟩
    · exact ⟨h.fd, h.index, h.file, h.length, hmark.outside.mono rfl rfl rfl (List.Subset.refl _)⟩
  · have hinit : asyncctxInitIo io sequence r.ctx none = (false, zeroSyncCtx none) := by
      rw [asyncctxInitIo, if_neg (by simp), if_pos (by simpa using hlocate)]
    rw [hinit]
    exact ⟨h.fd, h.index, h.file, h.length, (hnone _).outside⟩

lemma Inv.init (h : r.Inv) (sequence : ℤ) (io : InitIo) : (r.step (.init sequence io)).Inv := by
  rw [step]
  cases hthread : r.thread with
  | inside s => exact h
  | outside m =>
    have hmark : r.MarkOk m := (hthread ▸ h.thread).mark
    dsimp only
    cases m with
    | some text =>
      -- the position is loaded from the mark file
      set s : SyncCtx := if io.markRead then (zeroSyncCtx (some text)).markFileBatdataLoad
        else zeroSyncCtx (some text) with hs
      have hinit : asyncctxInitIo io sequence r.ctx (some text) =
          if io.binlogOpen then (true, s.openSettingBinlog) else (false, s) := rfl
      have hframe := SyncCtx.loadBatdata_frame (fgetsLines binlogRecordSize text)
        (zeroSyncCtx (some text))
      have hfine : r.Fine s := by
        rw [hs]
        split_ifs
        · exact hmark text rfl
        · exact .zero rfl rfl
      have hbuff : s.bBuff = ⟨0, false, []⟩ := by
        rw [hs]
        split_ifs
        · exact hframe.1
        · rfl
      have hfileOf : s.markFile = some text := by
        rw [hs]
        split_ifs
        · exact hframe.2
        · rfl
      have hok := hfine.openThread h.file hbuff (hfileOf ▸ hmark) io.binlogOpen
      rw [hinit]
      refine ⟨h.fd, h.index, h.file, h.length, ?_⟩
      cases hopen : io.binlogOpen with
      | true | false => exact (hopen ▸ hok).mono rfl rfl rfl (List.Subset.refl _)
    | none =>
      exact h.init_located sequence io

lemma Inv.step (h : r.Inv) (op : AsyncOp mounts) : (r.step op).Inv := by
  cases op with
  | flush ls => exact h.flush ls
  | init sequence io => exact h.init sequence io
  | round io => exact h.round io
  | leave io => exact h.leave io
  | crash => exact h.crash

/-- The mark file of an earlier run, if there is one, is at a boundary. -/
def MarkedAt (log : List (RecordLine mounts)) (markFile : Option (List Byte)) : Prop :=
  ∀ text, markFile = some text → (zeroSyncCtx (some text)).markFileBatdataLoad.bIndex = 0 ∧
    Boundary recordSize log (zeroSyncCtx (some text)).markFileBatdataLoad.bOffset

lemma inv_start₀ {log : List (RecordLine mounts)} {markFile : Option (List Byte)}
    (hlen : (textOf log).length < binlogMaxFileSize) (hmark : MarkedAt log markFile) :
    (start₀ log markFile).Inv := by
  refine ⟨rfl, rfl, ?_, hlen, MarkOk.outside fun text htext => ?_⟩
  · simp [start₀, oneFile]
  subst htext
  obtain ⟨hindex, hboundary⟩ := hmark text rfl
  exact ⟨hindex, .at_start hboundary⟩

/-- **The mark is never ahead.** Let the binlog be one file of records, and let the thread
start without a mark file or with one of an earlier run.  After any steps, with any results
of the system calls and of the copies, with crashes at any place, the position that
`asyncctx_init` loads from the mark file is a record boundary of the file, and not after the
first record from the start on that the peer has not acknowledged. -/
theorem mark_never_ahead (log : List (RecordLine mounts)) (markFile : Option (List Byte))
    (hlen : (textOf log).length < binlogMaxFileSize) (hmark : MarkedAt log markFile)
    (ops : List (AsyncOp mounts)) (text : List Byte)
    (htext : (run step (start₀ log markFile) ops).thread.markFile = some text) (sequence : ℤ) :
    (run step (start₀ log markFile) ops).Fine
      (asyncctxInit sequence (run step (start₀ log markFile) ops).ctx (some text)) := by
  have hinv : (run step (start₀ log markFile) ops).Inv :=
    Along.inv (R := fun _ _ _ => True) (inv_start₀ hlen hmark) (.of_forall fun _ _ _ => trivial)
      fun r op hr _ => hr.step op
  have hfine := hinv.thread.mark text htext
  exact ⟨hfine.bIndex, hfine.notAhead⟩

/-- Every system call succeeds, and a `read` fills the buffer. -/
def fullIo : ReadIo := ⟨some binlogBufferSize, true, true, .full⟩

/-- Two records, of which the first one is acknowledged; the process dies inside the mark write behind
the loop, after the separator that follows the offset. -/
def tornRun : List (AsyncOp [[47, 109]]) :=
  [.init 0 ⟨true, true, fullIo, true⟩, .round ⟨fun _ => fullIo, true, 7, fullIo, fullIo⟩,
    .leave { fullIo with markWrite := .short 7 }]

/-- The torn mark `0|7|13|` loads the position behind the first record. -/
theorem mark_never_ahead_torn : (run step (start₀ [lineA, lineB] none) tornRun).thread.markFile =
      some [48, 124, 55, 124, 49, 51, 124] ∧
    (run step (start₀ [lineA, lineB] none) tornRun).Fine (asyncctxInit 0
      (run step (start₀ [lineA, lineB] none) tornRun).ctx (some [48, 124, 55, 124, 49, 51, 124])) :=
  have hmark : (run step (start₀ [lineA, lineB] none) tornRun).thread.markFile =
      some [48, 124, 55, 124, 49, 51, 124] := by decide +kernel
  ⟨hmark, mark_never_ahead [lineA, lineB] none (by decide) (fun _ h => absurd h (by simp)) tornRun _
    hmark 0⟩

end AsyncRun

end Lfs.Binlog
