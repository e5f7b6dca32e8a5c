/-
The writer of a binlog (`binlog_ctx` in `ds_binlog.c`).

Lines are collected in a cache of 16 KiB; a flush appends the cache to the current
file with one `write` and one `fsync`, and moves on to the next file once 1 GiB has been
written.  The context is modelled together with the directory it writes to.  What the
system calls of a flush return is an argument, so that every outcome can be followed.
-/
import Lfs.Base.CString
import Mathlib.Data.List.Range
import Mathlib.Logic.Function.Basic

namespace Lfs.Binlog

open List Option

def binlogMaxFileSize : ℕ := 1024 * 1024 * 1024

def binlogCacheBufferSize : ℕ := 16 * 1024

def lfsOk : ℤ := 0

def lfsError : ℤ := -1

/-- `enum binlog_file_state`.  The last value is the `LFS_ERROR` that a macro returns
from a function of this type. -/
inductive BinlogFileState where
  | ok
  | error
  | nodata
  | fileEnd
  | lfsError
deriving DecidableEq

/-- The value of a state as an `int`. -/
def BinlogFileState.toInt : BinlogFileState → ℤ
  | ok => 0
  | error => 1
  | nodata => 2
  | fileEnd => 3
  | lfsError => -1

/-- What a `write` does: it transfers everything, at most `k` bytes, or fails. -/
inductive WriteOutcome where
  | full
  | short (k : ℕ)
  | error
deriving DecidableEq

/-- The number of bytes of `n` that are transferred, `none` for an error. -/
def WriteOutcome.count (n : ℕ) : WriteOutcome → Option ℕ
  | full => some n
  | short k => some (min k n)
  | error => none

/-- `binlog_ctx` and its directory.  The time stamp of the last flush is left out. -/
structure BinlogCtx where
  /-- `binlog_fd`: the file that is open for appending, `none` for `-1`. -/
  binlogFd : Option ℕ
  currBinlogFileIndex : ℕ
  binlogFileSize : ℕ
  /-- The first `binlog_wcache_buff_len` bytes of `binlog_wcache_buff`. -/
  wcacheBuff : List Byte
  /-- The contents of the files `<name>.%03d`; empty where there is no file. -/
  files : ℕ → List Byte
  indexFile : Option (List Byte)

/-- What the system calls of a flush return. -/
structure FlushIo where
  write : WriteOutcome
  fsync : Bool
  indexOpen : Bool
  indexWrite : WriteOutcome
  openNew : Bool
deriving DecidableEq

def FlushIo.ok : FlushIo := ⟨.full, true, true, .full, true⟩

/-- The context that `local_binlog_init` makes in an empty directory. -/
def BinlogCtx.fresh : BinlogCtx where
  binlogFd := some 0
  currBinlogFileIndex := 0
  binlogFileSize := 0
  wcacheBuff := []
  files := fun _ => []
  indexFile := some (decimal 0)

namespace BinlogCtx

/-- `local_binlog_init` and `remote_binlog_init` on a directory in which the files can be
opened; `none` when the index file is empty or holds a negative number. -/
def binlogInit (c : BinlogCtx) : Option BinlogCtx :=
  let index : Option ℕ := match c.indexFile with
    | none => some 0
    | some text =>
      let i := atoi (cstr (text.take 63))
      if text = [] ∨ i < 0 then none else some i.toNat
  index.map fun i =>
    { binlogFd := some i
      currBinlogFileIndex := i
      binlogFileSize := (c.files i).length
      wcacheBuff := []
      files := c.files
      indexFile := some (c.indexFile.getD (decimal 0)) }

/-- The text of the binlog files in the order of their indices. -/
def binlogText (c : BinlogCtx) : List Byte :=
  ((range (c.currBinlogFileIndex + 1)).map c.files).flatten

def withCache (bytes : List Byte) (c : BinlogCtx) : BinlogCtx := { c with wcacheBuff := bytes }

/-- Bytes that reach the file that is open. -/
def appendFd (c : BinlogCtx) (bytes : List Byte) : BinlogCtx :=
  match c.binlogFd with
  | none => c
  | some i => { c with files := Function.update c.files i (c.files i ++ bytes) }

/-- `write(binlog_fd, ..)` of the cache: the bytes written, `none` for an error. -/
def writeCache (w : WriteOutcome) (c : BinlogCtx) : Option ℕ × BinlogCtx :=
  match c.binlogFd, w.count c.wcacheBuff.length with
  | some _, some k => (some k, c.appendFd (c.wcacheBuff.take k))
  | _, _ => (none, c)

def writeCurrBinlogFileIndex (io : FlushIo) (i : ℕ) (c : BinlogCtx) : ℤ × BinlogCtx :=
  if !io.indexOpen then (lfsError, c)
  else
    let n := io.indexWrite.count (decimal i).length
    (if n = some (decimal i).length then lfsOk else lfsError,
      { c with indexFile := some ((decimal i).take (n.getD 0)) })

/-- `__open_new_binlog_file`: it closes the file that is open and opens the current
one for appending. -/
def openNewBinlogFile (opened : Bool) (c : BinlogCtx) : BinlogFileState × BinlogCtx :=
  if opened then (.ok, { c with binlogFd := some c.currBinlogFileIndex })
  else (.error, { c with binlogFd := none })

/-- The move to the next file in `__binlog_flush`. -/
def nextBinlogFile (io : FlushIo) (c : BinlogCtx) : ℤ × BinlogCtx :=
  let (ret, c) := c.writeCurrBinlogFileIndex io (c.currBinlogFileIndex + 1)
  if ret = lfsOk then
    let (st, c) := { c with currBinlogFileIndex := c.currBinlogFileIndex + 1 }.openNewBinlogFile
      io.openNew
    (st.toInt, { c with binlogFileSize := 0 })
  else (ret, { c with binlogFileSize := 0 })

/-- `__binlog_flush`, also `binlog_flush`. -/
def binlogFlush (io : FlushIo) (c : BinlogCtx) : ℤ × BinlogCtx :=
  let len := c.wcacheBuff.length
  if len = 0 then (lfsOk, c)
  else
    let (n, c) := c.writeCache io.write
    if n ≠ some len then (lfsError, c)
    else if !io.fsync then (lfsError, c)
    else
      let c := { c with binlogFileSize := c.binlogFileSize + len }
      let (ret, c) := if binlogMaxFileSize ≤ c.binlogFileSize then c.nextBinlogFile io
        else (lfsOk, c)
      (ret, { c with wcacheBuff := [] })

/-- `__binlog_lock_flush`, also `binlog_lock_flush`: it does not return what the flush
returned. -/
def binlogLockFlush (io : FlushIo) (c : BinlogCtx) : ℤ × BinlogCtx :=
  (lfsOk, (c.binlogFlush io).2)

/-- The `sprintf` of `binlog_write`; `none` when it writes past the end of the cache. -/
def appendCache (line : CString) (c : BinlogCtx) : Option BinlogCtx :=
  if c.wcacheBuff.length + line.bytes.length + 1 ≤ binlogCacheBufferSize then
    some { c with wcacheBuff := c.wcacheBuff ++ line.bytes }
  else none

/-- The part of `binlog_write` under its lock, with what its flush returned if it made
one. -/
def binlogWriteLocked (io : FlushIo) (line : CString) (c : BinlogCtx) :
    Option (Option ℤ × BinlogCtx) :=
  (c.appendCache line).map fun c =>
    if binlogCacheBufferSize < c.wcacheBuff.length + 256 then
      (some (c.binlogFlush io).1, (c.binlogFlush io).2)
    else (none, c)

/-- `binlog_write`: its result is that of the unlocking of the mutex, which overwrites
that of the flush. -/
def binlogWrite (io : FlushIo) (line : CString) (c : BinlogCtx) : Option (ℤ × BinlogCtx) :=
  (c.binlogWriteLocked io line).map fun r => (lfsOk, r.2)

/-! ### What a flush does -/

variable {io : FlushIo} {c c' : BinlogCtx} {bytes : List Byte} {i : ℕ}

@[simp] lemma withCache_binlogFd : (c.withCache bytes).binlogFd = c.binlogFd := rfl

@[simp] lemma withCache_currBinlogFileIndex :
    (c.withCache bytes).currBinlogFileIndex = c.currBinlogFileIndex := rfl

@[simp] lemma withCache_wcacheBuff : (c.withCache bytes).wcacheBuff = bytes := rfl

@[simp] lemma withCache_binlogFileSize :
    (c.withCache bytes).binlogFileSize = c.binlogFileSize := rfl

@[simp] lemma withCache_files : (c.withCache bytes).files = c.files := rfl

lemma appendCache_of_fits {line : CString}
    (h : c.wcacheBuff.length + line.bytes.length + 1 ≤ binlogCacheBufferSize) :
    c.appendCache line = some (c.withCache (c.wcacheBuff ++ line.bytes)) := if_pos h

lemma appendFd_some (h : c.binlogFd = some i) :
    c.appendFd bytes = { c with files := Function.update c.files i (c.files i ++ bytes) } := by
  simp [appendFd, h]

@[simp] lemma appendFd_nil : c.appendFd [] = c := by
  unfold appendFd
  split <;> simp

lemma binlogText_appendFd (h : c.binlogFd = some c.currBinlogFileIndex) :
    (c.appendFd bytes).binlogText = c.binlogText ++ bytes := by
  have hbelow : (range c.currBinlogFileIndex).map (Function.update c.files
      c.currBinlogFileIndex (c.files c.currBinlogFileIndex ++ bytes))
        = (range c.currBinlogFileIndex).map c.files := by
    refine map_congr_left fun j hj => ?_
    rw [Function.update_of_ne (ne_of_lt (mem_range.1 hj))]
  rw [appendFd_some h]
  simp only [binlogText, range_succ, map_append, flatten_append, hbelow]
  simp

lemma openNewBinlogFile_true (h : c.binlogFd = some c.currBinlogFileIndex) :
    c.openNewBinlogFile true = (.ok, c) := by
  rw [openNewBinlogFile, if_pos rfl, ← h]

/-- The cache reaches the file as a whole and is synced. -/
def Complete (io : FlushIo) (c : BinlogCtx) : Prop :=
  c.binlogFd ≠ none ∧ io.write.count c.wcacheBuff.length = some c.wcacheBuff.length ∧
    io.fsync = true

/-- No byte of the cache reaches the file. -/
def Untouched (io : FlushIo) (c : BinlogCtx) : Prop :=
  c.binlogFd = none ∨ (io.write.count c.wcacheBuff.length).getD 0 = 0

instance : Decidable (Complete io c) :=
  inferInstanceAs (Decidable (_ ∧ _ ∧ _))

instance : Decidable (Untouched io c) :=
  inferInstanceAs (Decidable (_ ∨ _))

/-- The state after a flush that wrote the whole cache: the index may have moved on,
and then the next file may have failed to open. -/
structure Flushed (c c' : BinlogCtx) : Prop where
  files : c'.files = (c.appendFd c.wcacheBuff).files
  cache : c'.wcacheBuff = []
  index : (c'.currBinlogFileIndex = c.currBinlogFileIndex ∧ c'.binlogFd = c.binlogFd) ∨
    (c'.currBinlogFileIndex = c.currBinlogFileIndex + 1 ∧
      ∀ i ∈ c'.binlogFd, i = c.currBinlogFileIndex + 1)

lemma binlogFlush_of_nil (h : c.wcacheBuff = []) : c.binlogFlush io = (lfsOk, c) := by
  simp [binlogFlush, h]

/-- A flush that does not complete keeps the cache, whatever part of it was written. -/
lemma binlogFlush_of_not_complete (h : c.wcacheBuff ≠ []) (hio : ¬ Complete io c) :
    ∃ k, c.binlogFlush io = (lfsError, c.appendFd (c.wcacheBuff.take k)) ∧
      (k = 0 ↔ Untouched io c) := by
  have hlen : c.wcacheBuff.length ≠ 0 := by simpa using h
  rcases hfd : c.binlogFd with _ | i
  · exact ⟨0, by simp [binlogFlush, writeCache, hfd, h], by simp [Untouched, hfd]⟩
  · rcases hw : io.write.count c.wcacheBuff.length with _ | k
    · exact ⟨0, by simp [binlogFlush, writeCache, hfd, hw, h], by simp [Untouched, hw]⟩
    · refine ⟨k, ?_, by simp [Untouched, hfd, hw]⟩
      by_cases hk : k = c.wcacheBuff.length
      · subst hk
        have hsync : io.fsync = false := by
          simpa [Complete, hfd, hw] using hio
        simp [binlogFlush, writeCache, hfd, hw, hlen, hsync]
      · simp [binlogFlush, writeCache, hfd, hw, hlen, hk]

lemma nextBinlogFile_spec (io : FlushIo) (c : BinlogCtx) : (c.nextBinlogFile io).2.files = c.files ∧
    (c.nextBinlogFile io).2.wcacheBuff = c.wcacheBuff ∧
    (((c.nextBinlogFile io).2.currBinlogFileIndex = c.currBinlogFileIndex ∧
        (c.nextBinlogFile io).2.binlogFd = c.binlogFd) ∨
      ((c.nextBinlogFile io).2.currBinlogFileIndex = c.currBinlogFileIndex + 1 ∧
        ∀ i ∈ (c.nextBinlogFile io).2.binlogFd, i = c.currBinlogFileIndex + 1)) := by
  by_cases hopen : io.indexOpen = true
  · by_cases hn : io.indexWrite.count (decimal (c.currBinlogFileIndex + 1)).length
        = some (decimal (c.currBinlogFileIndex + 1)).length
    · cases hnew : io.openNew with
      | true =>
        simp [nextBinlogFile, writeCurrBinlogFileIndex, hopen, hn, hnew, openNewBinlogFile]
      | false =>
        simp [nextBinlogFile, writeCurrBinlogFileIndex, hopen, hn, hnew, openNewBinlogFile]
    · simp [nextBinlogFile, writeCurrBinlogFileIndex, hopen, hn, lfsOk, lfsError]
  · simp [nextBinlogFile, writeCurrBinlogFileIndex, hopen, lfsOk, lfsError]

lemma binlogFlush_of_complete (h : c.wcacheBuff ≠ []) (hio : Complete io c) :
    Flushed c (c.binlogFlush io).2 := by
  obtain ⟨hfd, hw, hsync⟩ := hio
  obtain ⟨i, hi⟩ := ne_none_iff_exists'.1 hfd
  have hlen : c.wcacheBuff.length ≠ 0 := by simpa using h
  have hcache : c.writeCache io.write = (some c.wcacheBuff.length, c.appendFd c.wcacheBuff) := by
    simp [writeCache, hi, hw]
  -- the context between the write and the choice of the next file
  have hframe : (c.appendFd c.wcacheBuff).currBinlogFileIndex = c.currBinlogFileIndex ∧
      (c.appendFd c.wcacheBuff).binlogFd = c.binlogFd := by
    rw [appendFd_some hi]
    exact ⟨rfl, rfl⟩
  unfold binlogFlush
  simp only [hlen, if_false, hcache, ne_eq, not_true_eq_false, hsync, Bool.not_true,
    Bool.false_eq_true]
  split_ifs
  · obtain ⟨hfiles, -, hindex⟩ := nextBinlogFile_spec io
      { c.appendFd c.wcacheBuff with
        binlogFileSize := (c.appendFd c.wcacheBuff).binlogFileSize + c.wcacheBuff.length }
    refine ⟨hfiles, rfl, ?_⟩
    simpa only [hframe.1, hframe.2] using hindex
  · exact ⟨rfl, rfl, Or.inl hframe⟩

lemma complete_ok (h : c.binlogFd ≠ none) : Complete .ok c := ⟨h, rfl, rfl⟩

/-- A flush of some bytes all of whose system calls succeed: it goes on to the next file when the
size of the file reaches the limit. -/
lemma binlogFlush_ok_cases (h : c.binlogFd = some c.currBinlogFileIndex) (hne : c.wcacheBuff ≠ []) :
    ((c.binlogFlush .ok).1 = lfsOk ∧
      (c.binlogFlush .ok).2.binlogFd = some (c.binlogFlush .ok).2.currBinlogFileIndex) ∧
    (binlogMaxFileSize ≤ c.binlogFileSize + c.wcacheBuff.length ∧
        (c.binlogFlush .ok).2.currBinlogFileIndex = c.currBinlogFileIndex + 1 ∨
      c.binlogFileSize + c.wcacheBuff.length < binlogMaxFileSize ∧
        (c.binlogFlush .ok).2.currBinlogFileIndex = c.currBinlogFileIndex ∧
        (c.binlogFlush .ok).2.binlogFileSize = c.binlogFileSize + c.wcacheBuff.length) := by
  have hlen : c.wcacheBuff.length ≠ 0 := by simpa using hne
  have hcache : c.writeCache .full = (some c.wcacheBuff.length, c.appendFd c.wcacheBuff) := by
    simp [writeCache, h, WriteOutcome.count]
  unfold binlogFlush
  simp only [FlushIo.ok, hlen, if_false, hcache, ne_eq, not_true_eq_false, Bool.not_true,
    Bool.false_eq_true, nextBinlogFile, writeCurrBinlogFileIndex, WriteOutcome.count, if_true,
    openNewBinlogFile, appendFd_some h]
  split_ifs with hfull
  · exact ⟨⟨rfl, rfl⟩, .inl ⟨hfull, rfl⟩⟩
  · exact ⟨⟨rfl, h⟩, .inr ⟨Nat.not_le.1 hfull, rfl, rfl⟩⟩

lemma binlogFlush_ok (h : c.binlogFd = some c.currBinlogFileIndex) : (c.binlogFlush .ok).1 = lfsOk ∧
      (c.binlogFlush .ok).2.binlogFd = some (c.binlogFlush .ok).2.currBinlogFileIndex := by
  by_cases hnil : c.wcacheBuff = []
  · rw [binlogFlush_of_nil hnil]
    exact ⟨rfl, h⟩
  · exact (binlogFlush_ok_cases h hnil).1

/-- The index file names the file that is open. -/
lemma indexFile_binlogFlush_ok (h : c.binlogFd ≠ none)
    (hindex : c.indexFile = some (decimal c.currBinlogFileIndex)) :
    (c.binlogFlush .ok).2.indexFile = some (decimal (c.binlogFlush .ok).2.currBinlogFileIndex) := by
  obtain ⟨i, hi⟩ := ne_none_iff_exists'.1 h
  simp only [binlogFlush, FlushIo.ok, writeCache, hi, WriteOutcome.count, appendFd_some hi]
  split_ifs <;> simp_all [nextBinlogFile, writeCurrBinlogFileIndex, WriteOutcome.count, openNewBinlogFile]

/-! ### The invariant of the writer -/

/-- The context has the last file open, or none, there is nothing beyond the last file,
and the files with the cache after them hold `text`. -/
structure Writes (c : BinlogCtx) (text : List Byte) : Prop where
  fd : ∀ i ∈ c.binlogFd, i = c.currBinlogFileIndex
  beyond : ∀ i, c.currBinlogFileIndex < i → c.files i = []
  text_eq : c.binlogText ++ c.wcacheBuff = text

variable {text : List Byte}

lemma Writes.fd_eq (h : Writes c text) (hfd : c.binlogFd ≠ none) :
    c.binlogFd = some c.currBinlogFileIndex := by
  obtain ⟨i, hi⟩ := ne_none_iff_exists'.1 hfd
  rw [hi, h.fd i hi]

lemma Writes.flushed (h : Writes c text) (hfd : c.binlogFd ≠ none) (hf : Flushed c c') :
    Writes c' text := by
  have hcurr := h.fd_eq hfd
  have htext : (c.appendFd c.wcacheBuff).binlogText = text := by
    rw [binlogText_appendFd hcurr, h.text_eq]
  have hfiles : ∀ i, c.currBinlogFileIndex < i → c'.files i = [] := by
    intro i hi
    rw [hf.files, appendFd_some hcurr]
    simpa [Function.update_of_ne (ne_of_gt hi)] using h.beyond i hi
  have hindex : (c.appendFd c.wcacheBuff).currBinlogFileIndex = c.currBinlogFileIndex := by
    rw [appendFd_some hcurr]
  have hcontent : c'.binlogText = text := by
    rw [← htext]
    rcases hf.index with ⟨hi, -⟩ | ⟨hi, -⟩
    · simp only [binlogText, hi, hf.files, hindex]
    · -- the new last file is still empty
      have hlast := hfiles (c.currBinlogFileIndex + 1) (Nat.lt_succ_self _)
      rw [binlogText, hi, range_succ, map_append, flatten_append, binlogText, hindex, hf.files]
      rw [hf.files] at hlast
      simp [hlast]
  rcases hf.index with ⟨hi, hfd'⟩ | ⟨hi, hfd'⟩
  · refine ⟨?_, ?_, by rw [hcontent, hf.cache, append_nil]⟩
    · intro j hj
      rw [hfd', hcurr] at hj
      rw [hi]
      exact (some.inj hj).symm
    · rw [hi]; exact hfiles
  · refine ⟨by rw [hi]; exact hfd', ?_, by rw [hcontent, hf.cache, append_nil]⟩
    intro j hj
    exact hfiles j (by omega)

end BinlogCtx

end Lfs.Binlog
