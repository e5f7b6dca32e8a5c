/-
Runs of a reader of a binlog next to its writer.

The binlog is any sequence of files made of well-formed records; the writer appends
records, flushes and moves on to new files while one reader, which was started at index 0
and offset 0, calls `binlog_read`.  At the end of the first file `binlog_read` reopens the
file of the writer instead of the next file to read, so its descriptor never leaves the
first file; and one `read` that brings no newline makes it return `B_FILE_NODATA` too early.
-/
import Lfs.Binlog.ReaderSpec
import Lfs.Lib.Run

namespace Lfs.Binlog

open Lfs.Lib List Option Function RecordLine

variable {mounts : Mounts}

/-! ### The files and the cache -/

/-- The files of the context are made of the records `fls i` and its cache of the records
`cls`, and the last file is open. -/
structure BinlogCtx.Holds (c : BinlogCtx) (fls : ℕ → List (RecordLine mounts))
    (cls : List (RecordLine mounts)) : Prop where
  fd : c.binlogFd = some c.currBinlogFileIndex
  files : ∀ i, c.files i = textOf (fls i)
  cache : c.wcacheBuff = textOf cls
  beyond : ∀ i, c.currBinlogFileIndex < i → fls i = []

/-- The records that have been flushed to the files. -/
def flushedRecords (mounts : Mounts) (c : BinlogCtx) : List BinlogRecord :=
  (linesOf newline c.binlogText).filterMap (recordOf mounts)

section

variable {c c' : BinlogCtx} {fls : ℕ → List (RecordLine mounts)} {cls : List (RecordLine mounts)}

lemma BinlogCtx.Holds.flushedRecords_eq (h : c.Holds fls cls) :
    flushedRecords mounts c = (fls 0).map record ++
      ((range c.currBinlogFileIndex).flatMap fun i => fls (i + 1)).map record := by
  have htext : c.binlogText =
      textOf (fls 0 ++ (range c.currBinlogFileIndex).flatMap fun i => fls (i + 1)) := by
    have hfiles : c.files = fun i => textOf (fls i) := funext h.files
    rw [BinlogCtx.binlogText, range_succ_eq_map, hfiles]
    simp [textOf, flatMap, map_flatten, flatten_flatten, comp_def]
  rw [flushedRecords, htext, filterMap_recordOf_textOf, map_append]

lemma BinlogCtx.Holds.laterFiles_eq_nil_iff (h : c.Holds fls cls) {fd : Option ℕ}
    (hfd : fd = some 0) :
    (∀ i ≤ c.currBinlogFileIndex, fd ≠ some i → c.files i = []) ↔
      ∀ i < c.currBinlogFileIndex, fls (i + 1) = [] := by
  constructor
  · intro hall i hlt
    have hfile := hall (i + 1) hlt (by rw [hfd]; simp)
    rwa [h.files, textOf_eq_nil] at hfile
  · intro hall i hle hne
    cases i with
    | zero => exact absurd hfd hne
    | succ i => rw [h.files, hall i hle, textOf_nil]

lemma BinlogCtx.Holds.binlogFlush (h : c.Holds fls cls) :
    (c.binlogFlush .ok).2.Holds (update fls c.currBinlogFileIndex
        (fls c.currBinlogFileIndex ++ cls)) [] ∧
      c.currBinlogFileIndex ≤ (c.binlogFlush .ok).2.currBinlogFileIndex := by
  by_cases hnil : c.wcacheBuff = []
  · have hcls : cls = [] := textOf_eq_nil.1 (h.cache ▸ hnil)
    rw [binlogFlush_of_nil hnil, hcls, append_nil, update_eq_self]
    exact ⟨⟨h.fd, h.files, hnil, h.beyond⟩, le_refl _⟩
  · have hfd : c.binlogFd ≠ none := by rw [h.fd]; simp
    have hf := binlogFlush_of_complete hnil (complete_ok hfd)
    have hindex : c.currBinlogFileIndex ≤ (c.binlogFlush .ok).2.currBinlogFileIndex := by
      rcases hf.index with ⟨hi, -⟩ | ⟨hi, -⟩ <;> omega
    refine ⟨⟨(binlogFlush_ok h.fd).2, ?_, hf.cache, ?_⟩, hindex⟩
    · intro i
      rw [hf.files, appendFd_some h.fd]
      by_cases hi : i = c.currBinlogFileIndex
      · subst hi
        simp [h.files, h.cache]
      · simp [update_of_ne hi, h.files]
    · intro i hi
      rw [update_of_ne (by omega)]
      exact h.beyond i (by omega)

lemma exists_update_zero (fls : ℕ → List (RecordLine mounts)) (n : ℕ)
    (cls : List (RecordLine mounts)) :
    ∃ ls, update fls n (fls n ++ cls) 0 = fls 0 ++ ls := by
  by_cases hn : 0 = n
  · subst hn
    exact ⟨cls, by simp⟩
  · exact ⟨[], by rw [update_of_ne hn, append_nil]⟩

/-- A line that is written goes to the end of the cache, which may then be flushed; the
cache always has room for one more line. -/
lemma BinlogCtx.Holds.binlogWrite (h : c.Holds fls cls)
    (hroom : c.wcacheBuff.length + 256 ≤ binlogCacheBufferSize) (l : RecordLine mounts) :
    ∃ c' fls' cls' ls, c.binlogWrite .ok l.cstring = some (lfsOk, c') ∧ c'.Holds fls' cls' ∧
      c'.wcacheBuff.length + 256 ≤ binlogCacheBufferSize ∧
      c.currBinlogFileIndex ≤ c'.currBinlogFileIndex ∧ fls' 0 = fls 0 ++ ls := by
  have hl : l.text.length < 256 := l.length_lt
  have hfit : c.wcacheBuff.length + l.text.length + 1 ≤ binlogCacheBufferSize := by omega
  set c₁ : BinlogCtx := { c with wcacheBuff := c.wcacheBuff ++ l.text } with hc₁
  have h₁ : c₁.Holds fls (cls ++ [l]) := ⟨h.fd, h.files, by simp [hc₁, h.cache], h.beyond⟩
  have happ : c.appendCache l.cstring = some c₁ := if_pos hfit
  by_cases hfull : binlogCacheBufferSize < c₁.wcacheBuff.length + 256
  · obtain ⟨hflush, hindex⟩ := h₁.binlogFlush
    obtain ⟨ls, hls⟩ := exists_update_zero fls c₁.currBinlogFileIndex (cls ++ [l])
    refine ⟨_, _, _, ls, ?_, hflush, by rw [hflush.cache, textOf_nil]; decide, hindex, hls⟩
    simp only [BinlogCtx.binlogWrite, binlogWriteLocked, happ, map_some, hfull, if_true]
  · refine ⟨c₁, fls, cls ++ [l], [], ?_, h₁, by omega, le_refl _, by simp⟩
    simp only [BinlogCtx.binlogWrite, binlogWriteLocked, happ, map_some, hfull, if_false]

end

/-! ### Runs -/

/-- What happens to the binlog: a record is written, the cache is flushed, or the reader
calls `binlog_read`, whose `j`-th `read` returns at most `sizes j` bytes. -/
inductive LogOp (mounts : Mounts) where
  | write (line : RecordLine mounts)
  | flush
  | read (sizes : ℕ → ℕ)

/-- The writer's context, the reader's context, the records that the reader has returned,
and what it returned last if the last step was a call of it. -/
structure LogRun where
  ctx : Option BinlogCtx
  sctx : SyncCtx
  returned : List BinlogRecord
  last : Option BinlogFileState

namespace LogRun

/-- A binlog of the files `rotated` and a last file `curr`, with a reader at index 0 and
offset 0. -/
def start (rotated : List (List (RecordLine mounts))) (curr : List (RecordLine mounts)) :
    LogRun where
  ctx := some
    { binlogFd := some rotated.length
      currBinlogFileIndex := rotated.length
      binlogFileSize := (textOf curr).length
      wcacheBuff := []
      files := fun i => textOf (((rotated ++ [curr])[i]?).getD [])
      indexFile := some (decimal rotated.length) }
  sctx :=
    { bIndex := 0, bFd := some 0, fdOffset := 0, lastTimestamp := 0
      bBuff := ⟨0, false, []⟩
      bOffset := 0, syncCount := 0, lastSyncCount := 0, markFile := none }
  returned := []
  last := none

/-- One step; after `B_FILE_OK` the caller adds the length of the record to `b_offset`. -/
def step (s : LogRun) : LogOp mounts → LogRun
  | .write line =>
    { s with ctx := (s.ctx.bind fun c => c.binlogWrite .ok line.cstring).map Prod.snd, last := none }
  | .flush => { s with ctx := s.ctx.map fun c => (c.binlogFlush .ok).2, last := none }
  | .read sizes =>
    match s.ctx with
    | none => { s with last := none }
    | some c =>
      let r := binlogRead mounts (readSizes sizes) c s.sctx
      let bOffset := if r.state = some .ok then r.sctx.bOffset + r.brecordSize else r.sctx.bOffset
      { ctx := some r.ctx
        sctx := { r.sctx with bOffset := bOffset }
        returned := s.returned ++ r.record.toList
        last := r.state }

/-- The records returned are the first ones that have been flushed, and all of them if the
last call returned `B_FILE_NODATA`. -/
def Complete (mounts : Mounts) (s : LogRun) : Prop :=
  ∃ c, s.ctx = some c ∧ s.returned <+: flushedRecords mounts c ∧
    (s.last = some .nodata → s.returned = flushedRecords mounts c)

instance (mounts : Mounts) (s : LogRun) : Decidable (Complete mounts s) :=
  match s with
  | ⟨none, _, _, _⟩ => isFalse (by simp [Complete])
  | ⟨some c, _, returned, last⟩ =>
    decidable_of_iff (returned <+: flushedRecords mounts c ∧
      (last = some .nodata → returned = flushedRecords mounts c)) (by simp [Complete])

/-- The condition on a call of the reader: there is a newline in its buffer or in the bytes
that the first `read` returns, or the file that is open is at its end and all other files
are empty. -/
def ReadsOn (s : LogRun) : LogOp mounts → Prop
  | .read sizes => ∀ c ∈ s.ctx,
      newline ∈ s.sctx.bBuff.data ++ s.sctx.chunk (sizes 0) c ∨
      (s.sctx.unread c = [] ∧ ∀ i ≤ c.currBinlogFileIndex, s.sctx.bFd ≠ some i → c.files i = [])
  | _ => True

/-- The reader has the first file open and has returned the records `done` of it. -/
def Inv (mounts : Mounts) (s : LogRun) : Prop :=
  ∃ (c : BinlogCtx) (fls : ℕ → List (RecordLine mounts)) (cls done rest : List (RecordLine mounts)),
    s.ctx = some c ∧ c.Holds fls cls ∧ c.wcacheBuff.length + 256 ≤ binlogCacheBufferSize ∧
    s.sctx.Reads c 0 done rest [] ∧ s.sctx.bIndex ≤ c.currBinlogFileIndex ∧
    s.returned = done.map record

lemma inv_start (rotated : List (List (RecordLine mounts))) (curr : List (RecordLine mounts)) :
    Inv mounts (start rotated curr) := by
  refine ⟨_, fun i => ((rotated ++ [curr])[i]?).getD [], [], [], ((rotated ++ [curr])[0]?).getD [],
    rfl, ⟨rfl, fun i => rfl, rfl, ?_⟩, Nat.le_of_ble_eq_true rfl,
    ⟨rfl, rfl, by simp, by simp [SyncCtx.unread, start], Nat.zero_le _, by simp, by decide⟩,
    Nat.zero_le _, rfl⟩
  intro i hi
  have hlen : (rotated ++ [curr]).length ≤ i := by
    simp only [length_append, length_singleton]
    exact hi
  simp [getElem?_eq_none hlen]

variable {s : LogRun} {op : LogOp mounts}

lemma flushedRecords_eq {c : BinlogCtx} {fls : ℕ → List (RecordLine mounts)}
    {cls done rest : List (RecordLine mounts)} (h : c.Holds fls cls)
    (hr : s.sctx.Reads c 0 done rest []) :
    flushedRecords mounts c = done.map record ++ (rest.map record ++
      ((range c.currBinlogFileIndex).flatMap fun i => fls (i + 1)).map record) := by
  have hfile : (fls 0).map record = (done ++ rest).map record := by
    rw [← filterMap_recordOf_textOf, ← h.files, hr.file, append_nil, filterMap_recordOf_textOf]
  rw [h.flushedRecords_eq, hfile, map_append, append_assoc]

lemma Inv.complete (h : Inv mounts s) (hlast : s.last ≠ some .nodata) : Complete mounts s := by
  obtain ⟨c, fls, cls, done, rest, hc, hholds, -, hreads, -, hret⟩ := h
  refine ⟨c, hc, ?_, fun hnodata => absurd hnodata hlast⟩
  rw [flushedRecords_eq hholds hreads, hret]
  exact prefix_append _ _

lemma Inv.step_write (h : Inv mounts s) (line : RecordLine mounts) :
    Inv mounts (step s (.write line)) := by
  obtain ⟨c, fls, cls, done, rest, hc, hholds, hroom, hreads, hindex, hret⟩ := h
  obtain ⟨c', fls', cls', ls, hwrite, hholds', hroom', hmono, hzero⟩ := hholds.binlogWrite hroom line
  refine ⟨c', fls', cls', done, rest ++ ls, by simp [step, hc, hwrite], hholds', hroom',
    hreads.append ?_, le_trans hindex hmono, hret⟩
  rw [hholds'.files, hholds.files, hzero, textOf_append]

lemma Inv.step_flush (h : Inv mounts s) : Inv mounts (step s (.flush : LogOp mounts)) := by
  obtain ⟨c, fls, cls, done, rest, hc, hholds, hroom, hreads, hindex, hret⟩ := h
  obtain ⟨hholds', hmono⟩ := hholds.binlogFlush
  obtain ⟨ls, hls⟩ := exists_update_zero fls c.currBinlogFileIndex cls
  refine ⟨_, _, [], done, rest ++ ls, by simp only [step, hc, map_some], hholds',
    by rw [hholds'.cache, textOf_nil]; decide, hreads.append ?_, le_trans hindex hmono, hret⟩
  rw [hholds'.files, hholds.files, hls, textOf_append]

lemma step_read {c c' : BinlogCtx} {s' : SyncCtx} {sizes : ℕ → ℕ} {n : ℕ}
    {st : BinlogFileState} {record : Option BinlogRecord} (hc : s.ctx = some c)
    (hread : binlogRead mounts (readSizes sizes) c s.sctx = ⟨some st, record, n, c', s'⟩) :
    step s (.read sizes : LogOp mounts) =
      { ctx := some c'
        sctx := { s' with bOffset := if st = .ok then s'.bOffset + n else s'.bOffset }
        returned := s.returned ++ record.toList
        last := some st } := by
  simp [step, hc, hread]

/-- `B_FILE_NODATA` is right exactly if nothing is ahead of the reader, in its file and in
the files after it. -/
lemma complete_nodata_iff {c : BinlogCtx} {fls : ℕ → List (RecordLine mounts)}
    {cls done rest : List (RecordLine mounts)} (hc : s.ctx = some c) (h : c.Holds fls cls)
    (hr : s.sctx.Reads c 0 done rest []) (hret : s.returned = done.map record)
    (hlast : s.last = some .nodata) :
    Complete mounts s ↔ rest = [] ∧ ∀ i < c.currBinlogFileIndex, fls (i + 1) = [] := by
  have heq : s.returned = flushedRecords mounts c ↔
      rest = [] ∧ ∀ i < c.currBinlogFileIndex, fls (i + 1) = [] := by
    rw [flushedRecords_eq h hr, hret, self_eq_append_right]
    simp
  rw [← heq]
  constructor
  · rintro ⟨c', hc', -, hall⟩
    obtain rfl : c = c' := some.inj (hc.symm.trans hc')
    exact hall hlast
  · intro hall
    exact ⟨c, hc, hall ▸ prefix_refl _, fun _ => hall⟩

/-- A call of the reader that meets the condition keeps the invariant and is complete; one
that does not is not complete. -/
lemma Inv.step_read_iff (h : Inv mounts s) (sizes : ℕ → ℕ) :
    (ReadsOn s (.read sizes : LogOp mounts) ↔
        Complete mounts (step s (.read sizes : LogOp mounts))) ∧
      Inv mounts (step s (.read sizes : LogOp mounts)) := by
  obtain ⟨c, fls, cls, done, rest, hc, hholds, hroom, hreads, hindex, hret⟩ := h
  by_cases hnl : newline ∈ s.sctx.bBuff.data ++ s.sctx.chunk (sizes 0) c
  · -- a record is returned
    obtain ⟨l, rest', s', rfl, hread, hs', hi⟩ := hreads.binlogRead_ok sizes hnl
    have hinv : Inv mounts (step s (.read sizes : LogOp mounts)) := by
      rw [step_read hc hread]
      exact ⟨c, fls, cls, done ++ [l], rest', rfl, hholds, hroom, hs'.congr rfl rfl hs'.flag rfl,
        by rw [← hi] at hindex; exact hindex, by simp [hret]⟩
    have hlast : (step s (.read sizes : LogOp mounts)).last ≠ some .nodata := by
      rw [step_read hc hread]
      simp
    refine ⟨⟨fun _ => hinv.complete hlast, fun _ c' hc' => ?_⟩, hinv⟩
    obtain rfl : c = c' := some.inj (hc.symm.trans hc')
    exact Or.inl hnl
  have hbuff : newline ∉ s.sctx.bBuff.data := fun hmem => hnl (mem_append_left _ hmem)
  -- otherwise `B_FILE_NODATA` is returned
  obtain ⟨s', hread, hs', hi⟩ := hreads.binlogRead_noRecord sizes hnl hholds.fd hindex
    fun _ => .inr rfl
  rw [step_read hc hread]
  refine ⟨?_, c, fls, cls, done, rest, rfl, hholds, hroom, hs'.congr rfl rfl hs'.flag rfl, hi,
    by simp [hret]⟩
  rw [complete_nodata_iff rfl hholds (hs'.congr rfl rfl hs'.flag rfl) (by simp [hret]) rfl]
  have hfiles := hholds.laterFiles_eq_nil_iff hreads.fd
  constructor
  · intro hon
    obtain ⟨hend, hall⟩ := (hon c hc).resolve_left hnl
    exact ⟨(hreads.rest_eq_nil hbuff hend).1, hfiles.1 hall⟩
  · rintro ⟨rfl, hall⟩ c' hc'
    obtain rfl : c = c' := some.inj (hc.symm.trans hc')
    refine Or.inr ⟨?_, hfiles.2 hall⟩
    exact (append_eq_nil_iff.1 hreads.text.symm).2

end LogRun

/-- **The reader returns every record once.**  For every binlog made of well-formed records
and every interleaving of writes, flushes and calls of `binlog_read` on a reader that
started at index 0 and offset 0, every call meets the condition `LogRun.ReadsOn` if and
only if after every step the records returned are the first ones flushed, and all of them
whenever `B_FILE_NODATA` was returned. -/
theorem reader_complete_iff (rotated : List (List (RecordLine mounts)))
    (curr : List (RecordLine mounts)) (ops : List (LogOp mounts)) :
    Along LogRun.step (fun s op _ => s.ReadsOn op) (LogRun.start rotated curr) ops ↔
      Along LogRun.step (fun _ _ s' => s'.Complete mounts) (LogRun.start rotated curr) ops := by
  refine Along.iff_of_inv' (LogRun.inv_start rotated curr) ?_ ?_
  · intro s op hinv
    cases op with
    | write line => exact iff_of_true trivial ((hinv.step_write line).complete (by simp [LogRun.step]))
    | flush => exact iff_of_true trivial (hinv.step_flush.complete (by simp [LogRun.step]))
    | read sizes => exact (hinv.step_read_iff sizes).1
  · intro s op hinv _
    cases op with
    | write line => exact hinv.step_write line
    | flush => exact hinv.step_flush
    | read sizes => exact (hinv.step_read_iff sizes).2

/-- Two calls of the reader, each of whose `read` calls returns as much as it can. -/
def readTwice : List (LogOp [[47, 109]]) := [.read fun _ => 65536, .read fun _ => 65536]

/-- With one record in the first file and one in the second, the second call returns
`B_FILE_NODATA`: the second file is never opened. -/
theorem reader_secondFile_not_complete : ¬ Along LogRun.step (fun _ _ s' => s'.Complete [[47, 109]])
      (LogRun.start [[lineA]] [lineB]) readTwice := by
  decide

end Lfs.Binlog
