/-
What a client learns of a binlog record that could not be written.

`binlog_write` keeps what its flush returned in the variable that then takes the result of
`pthread_mutex_unlock`.  So it returns 0 whatever happened to the flush, and both callbacks that
write a record answer with success.
-/
import Lfs.Binlog.CacheBound
import Lfs.Server.Machine

namespace Lfs.Server

open Lfs.Binlog List Option BinlogCtx CacheOp

/-- `binlog_write` returns 0. -/
def binlogWritten (io : FlushIo) (line : CString) (b : BinlogCtx) : Bool :=
  (b.binlogWrite io line).any fun r => r.1 = lfsOk

/-- What the flush in `binlog_write` returns, if there is one. -/
def flushRet (io : FlushIo) (line : CString) (b : BinlogCtx) : Option ℤ :=
  (b.binlogWriteLocked io line).bind Prod.fst

/-- The connection after `file_upload_done_callback` for a complete file whose record is `line`. -/
def uploadReplied (io : FlushIo) (line : CString) (b : BinlogCtx) (env : StepEnv) (f : FileCtx)
    (c : Conn) : Conn :=
  c.fileUploadDoneCallback { env with binlogWrite := binlogWritten io line b } true f

/-- The connection after `asyncfile_done_callback` for a file whose record is `line`. -/
def asyncReplied (io : FlushIo) (line : CString) (b : BinlogCtx) (env : StepEnv) (c : Conn) : Conn :=
  c.asyncfileDoneCallback { env with binlogWrite := binlogWritten io line b } true

/-- A flush that fails reaches the client: `binlog_write` does not return 0, and both callbacks answer
`PROTOCOL_RESP_STATUS_ERROR_BINLOG_WRITE`. -/
def FailureReported (io : FlushIo) (line : CString) (b : BinlogCtx) : Prop :=
  ∀ ret ∈ flushRet io line b, ret ≠ lfsOk → binlogWritten io line b = false ∧
      (∀ (env : StepEnv) (f : FileCtx) (c : Conn), env.rename = true → f.fTotalSize ≤ f.fTotalOffset →
        (uploadReplied io line b env f c).wstate = .errorBinlogWrite) ∧
      ∀ (env : StepEnv) (c : Conn), (asyncReplied io line b env c).wstate = .errorBinlogWrite

/-- The flush, should there be one, writes and syncs everything, and if the file is full, the index of
the next file is written and the file opened. -/
def FlushSucceeds (io : FlushIo) (line : CString) (b : BinlogCtx) : Prop :=
  binlogCacheBufferSize < b.wcacheBuff.length + line.bytes.length + 256 →
    (b.withCache (b.wcacheBuff ++ line.bytes)).Complete io ∧
      (binlogMaxFileSize ≤ b.binlogFileSize + (b.wcacheBuff.length + line.bytes.length) →
        io.indexOpen = true ∧ io.openNew = true ∧
          io.indexWrite.count (decimal (b.currBinlogFileIndex + 1)).length =
            some (decimal (b.currBinlogFileIndex + 1)).length)

section

variable {io : FlushIo} {line : CString} {b : BinlogCtx}

lemma nextBinlogFile_fst_iff :
    (b.nextBinlogFile io).1 = lfsOk ↔ io.indexOpen = true ∧ io.openNew = true ∧
      io.indexWrite.count (decimal (b.currBinlogFileIndex + 1)).length =
        some (decimal (b.currBinlogFileIndex + 1)).length := by
  cases hopen : io.indexOpen with
  | false => simp [nextBinlogFile, writeCurrBinlogFileIndex, hopen, lfsOk, lfsError]
  | true =>
    by_cases hindex : io.indexWrite.count (decimal (b.currBinlogFileIndex + 1)).length =
        some (decimal (b.currBinlogFileIndex + 1)).length
    · cases hnew : io.openNew with
      | false =>
        simp [nextBinlogFile, writeCurrBinlogFileIndex, hopen, hindex, hnew,
          openNewBinlogFile, BinlogFileState.toInt, lfsOk]
      | true =>
        simp [nextBinlogFile, writeCurrBinlogFileIndex, hopen, hindex, hnew,
          openNewBinlogFile, BinlogFileState.toInt, lfsOk]
    · simp [nextBinlogFile, writeCurrBinlogFileIndex, hopen, hindex, lfsOk, lfsError]

lemma binlogFlush_fst_iff (hne : b.wcacheBuff ≠ []) : (b.binlogFlush io).1 = lfsOk ↔ b.Complete io ∧
      (binlogMaxFileSize ≤ b.binlogFileSize + b.wcacheBuff.length →
        io.indexOpen = true ∧ io.openNew = true ∧
          io.indexWrite.count (decimal (b.currBinlogFileIndex + 1)).length =
            some (decimal (b.currBinlogFileIndex + 1)).length) := by
  by_cases hio : b.Complete io
  · rw [and_iff_right hio]
    obtain ⟨hfd, hw, hsync⟩ := hio
    obtain ⟨i, hi⟩ := ne_none_iff_exists'.1 hfd
    have hlen : b.wcacheBuff.length ≠ 0 := by simpa using hne
    have hcache : b.writeCache io.write = (some b.wcacheBuff.length, b.appendFd b.wcacheBuff) := by
      simp [writeCache, hi, hw]
    unfold binlogFlush
    simp only [hlen, if_false, hcache, ne_eq, not_true_eq_false, hsync, Bool.not_true,
      Bool.false_eq_true, appendFd_some hi]
    split_ifs with hfull
    · rw [nextBinlogFile_fst_iff]
      exact ⟨fun h _ => h, fun h => h hfull⟩
    · exact iff_of_true rfl fun hfull' => absurd hfull' hfull
  · exact iff_of_false (ret_of_not_complete hne hio) fun h => hio h.1

lemma binlogWritten_eq (hfits : b.wcacheBuff.length + line.bytes.length + 1 ≤ binlogCacheBufferSize) :
    binlogWritten io line b = true := by
  rw [binlogWritten, binlogWrite, binlogWriteLocked, appendCache_of_fits hfits]
  rfl

lemma flushRet_eq (hfits : b.wcacheBuff.length + line.bytes.length + 1 ≤ binlogCacheBufferSize) :
    flushRet io line b =
      if binlogCacheBufferSize < b.wcacheBuff.length + line.bytes.length + 256 then
        some ((b.withCache (b.wcacheBuff ++ line.bytes)).binlogFlush io).1
      else none := by
  rw [flushRet, binlogWriteLocked, appendCache_of_fits hfits, map_some,
    bind_some, withCache_wcacheBuff, length_append]
  split_ifs <;> rfl

lemma flush_fst_iff
    (hfull : binlogCacheBufferSize < b.wcacheBuff.length + line.bytes.length + 256) :
    ((b.withCache (b.wcacheBuff ++ line.bytes)).binlogFlush io).1 = lfsOk ↔
      FlushSucceeds io line b := by
  have hne : (b.withCache (b.wcacheBuff ++ line.bytes)).wcacheBuff ≠ [] := by
    intro hnil
    have hzero := congrArg List.length hnil
    rw [withCache_wcacheBuff, length_append, length_nil] at hzero
    rw [binlogCacheBufferSize] at hfull
    omega
  rw [binlogFlush_fst_iff hne, withCache_wcacheBuff, length_append]
  exact ⟨fun h _ => h, fun h => h hfull⟩

lemma wstate_replied
    (hfits : b.wcacheBuff.length + line.bytes.length + 1 ≤ binlogCacheBufferSize) {env : StepEnv}
    {f : FileCtx} (hrename : env.rename = true) (htotal : f.fTotalSize ≤ f.fTotalOffset) (c : Conn) :
    (uploadReplied io line b env f c).wstate = .success ∧
      (asyncReplied io line b env c).wstate = .success := by
  rw [uploadReplied, asyncReplied, binlogWritten_eq hfits]
  constructor
  · simp [Conn.fileUploadDoneCallback, htotal, hrename, Conn.dioNotifyNio]
  · rfl

/-- **Failures of the binlog.**  `binlog_write` returns 0 in any case, so what is wanted of the flushes
that fail holds exactly for those calls whose flush does not fail. -/
theorem failure_reported_iff (io : FlushIo) (line : CString) (b : BinlogCtx)
    (hfits : b.wcacheBuff.length + line.bytes.length + 1 ≤ binlogCacheBufferSize) :
    FailureReported io line b ↔ FlushSucceeds io line b := by
  rw [FailureReported, flushRet_eq hfits, binlogWritten_eq hfits]
  constructor
  · intro h hfull
    rw [if_pos hfull] at h
    have hret : ((b.withCache (b.wcacheBuff ++ line.bytes)).binlogFlush io).1 = lfsOk := by
      by_contra hfailed
      exact absurd (h _ rfl hfailed).1 (by simp)
    exact (flush_fst_iff hfull).1 hret hfull
  · intro h ret hret hfailed
    split_ifs at hret with hfull
    · have hok := (flush_fst_iff hfull).2 h
      rw [mem_some_iff.1 hret] at hok
      exact absurd hok hfailed
    · exact absurd hret (by simp)

/-- A cache in which a line of ten bytes leaves too little room. -/
def fullCache : BinlogCtx := BinlogCtx.fresh.withCache (List.replicate 16200 97)

lemma fits_fullCache :
    fullCache.wcacheBuff.length + (fillLine 10).bytes.length + 1 ≤ binlogCacheBufferSize := by
  rw [fullCache, withCache_wcacheBuff, length_replicate, length_fillLine]
  decide

/-- The flush succeeds. -/
theorem failure_reported_fullCache : FailureReported .ok (fillLine 10) fullCache :=
  (failure_reported_iff .ok (fillLine 10) fullCache fits_fullCache).2 fun _ =>
    ⟨complete_ok (by decide), fun _ => ⟨rfl, rfl, rfl⟩⟩

/-- The flush fails at its `write`; `binlog_write` returns 0, and an upload is answered with
success. -/
theorem failure_not_reported : flushRet noWrite (fillLine 10) fullCache = some lfsError ∧
      binlogWritten noWrite (fillLine 10) fullCache = true ∧
      (uploadReplied noWrite (fillLine 10) fullCache (.ok .dio) .fileCtxNew
        (.connNew 1024 [])).wstate = .success ∧
      (asyncReplied noWrite (fillLine 10) fullCache (.ok .dio) (.connNew 1024 [])).wstate =
        .success ∧
      ¬ FailureReported noWrite (fillLine 10) fullCache := by
  have hwritten : binlogWritten noWrite (fillLine 10) fullCache = true :=
    binlogWritten_eq fits_fullCache
  have hret : flushRet noWrite (fillLine 10) fullCache = some lfsError := by
    have hlength : fullCache.wcacheBuff.length = 16200 := length_replicate
    have hne : (fullCache.withCache (fullCache.wcacheBuff ++ (fillLine 10).bytes)).wcacheBuff ≠ [] := by
      intro hnil
      have hzero := congrArg List.length hnil
      rw [withCache_wcacheBuff, length_append, hlength, length_fillLine] at hzero
      exact absurd hzero (by decide)
    have hnot : ¬ (fullCache.withCache (fullCache.wcacheBuff ++ (fillLine 10).bytes)).Complete
        noWrite := fun hio => absurd hio.2.1 (by simp [noWrite, WriteOutcome.count])
    obtain ⟨k, hflush, -⟩ := binlogFlush_of_not_complete hne hnot
    rw [flushRet_eq fits_fullCache, if_pos (by rw [hlength, length_fillLine]; decide), hflush]
  obtain ⟨hupload, hasync⟩ : (uploadReplied noWrite (fillLine 10) fullCache (.ok .dio)
      .fileCtxNew (.connNew 1024 [])).wstate = .success ∧ _ :=
    wstate_replied fits_fullCache rfl (le_refl 0) (.connNew 1024 [])
  refine ⟨hret, hwritten, hupload, hasync, fun h => ?_⟩
  have hfalse := (h lfsError hret (by decide)).1
  rw [hwritten] at hfalse
  exact absurd hfalse (by simp)

end

end Lfs.Server
