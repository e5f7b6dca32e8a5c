/-
What one call of `binlog_read` does on a file made of well-formed records.

`SyncCtx.Reads` says where a reader stands in the file that it has open.  From there a call
returns the next record, or `B_FILE_NODATA` because the `read` brought no newline, or, at
the end of the file, it runs through the indices up to the last one without opening any
other file.
-/
import Lfs.Binlog.ReaderText

namespace Lfs.Binlog

open Lfs.Lib List

variable {mounts : Mounts}

namespace SyncCtx

/-- The reader has the file `i` open, which is made of the records `done` and `rest` and an
unfinished line `tail`; the records `done` are behind it, and the rest is in its buffer and
in what it has not read yet. -/
structure Reads (c : BinlogCtx) (s : SyncCtx) (i : ℕ) (done rest : List (RecordLine mounts))
    (tail : List Byte) : Prop where
  fd : s.bFd = some i
  flag : s.bBuff.flag = false
  file : c.files i = textOf (done ++ rest) ++ tail
  text : textOf rest ++ tail = s.bBuff.data ++ s.unread c
  offset : s.fdOffset ≤ (c.files i).length
  tail_line : newline ∉ tail
  tail_length : tail.length < binlogRecordSize

variable {c : BinlogCtx} {s : SyncCtx} {i k : ℕ} {done rest : List (RecordLine mounts)}
  {tail : List Byte}

section

variable (h : Reads c s i done rest tail)
include h

lemma Reads.data_length_lt (hnl : newline ∉ s.bBuff.data) :
    s.bBuff.data.length < binlogBufferSize :=
  lt_trans (length_lt_of_newline_not_mem h.tail_length h.text hnl) (by decide)

lemma Reads.rest_eq_nil (hnl : newline ∉ s.bBuff.data)
    (hend : s.unread c = []) : rest = [] ∧ s.bBuff.data = tail := by
  have htext := h.text
  rw [hend, append_nil] at htext
  have hrest : rest = [] := by
    refine eq_nil_of_newline_not_mem fun hmem => hnl ?_
    rw [← htext]
    exact mem_append_left _ hmem
  refine ⟨hrest, ?_⟩
  rw [← htext, hrest, textOf_nil, nil_append]

lemma Reads.ahead : Ahead c s (textOf rest ++ tail) :=
  ⟨⟨i, h.fd⟩, h.flag, h.text.symm⟩

/-- A `read` that fills the buffer brings the newline of the next record. -/
lemma Reads.newline_mem (hrest : rest ≠ [])
    (hk : binlogBufferSize ≤ k) : newline ∈ s.bBuff.data ++ s.chunk k c := by
  obtain ⟨l, rest', rfl⟩ := exists_cons_of_ne_nil hrest
  by_cases hbuff : newline ∈ s.bBuff.data
  · exact mem_append_left _ hbuff
  · have hahead := h.ahead
    rw [textOf_cons, append_assoc] at hahead
    exact mem_append_right _ (hahead.newline_mem_chunk l.isLine l.length_lt hk hbuff)

/-- A newline in the buffer: the record in front of it is returned. -/
lemma Reads.binlogRecordReadDo (hnl : newline ∈ s.bBuff.data) :
    ∃ l rest' s', rest = l :: rest' ∧ s.binlogRecordReadDo = (.ok, l.text, s') ∧
      Reads c s' i (done ++ [l]) rest' tail ∧ s'.bIndex = s.bIndex ∧ s'.fdOffset = s.fdOffset := by
  have hahead := h.ahead
  cases rest with
  | nil =>
    rw [textOf_nil, nil_append] at hahead
    exact absurd (hahead.text ▸ mem_append_left _ hnl) h.tail_line
  | cons l rest' =>
    rw [textOf_cons, append_assoc] at hahead
    obtain ⟨buff, hdo, hs'⟩ := hahead.binlogRecordReadDo_line l.isLine l.length_lt hnl
    refine ⟨l, rest', _, rfl, hdo,
      ⟨h.fd, hs'.flag, ?_, hs'.text.symm, h.offset, h.tail_line, h.tail_length⟩, rfl, rfl⟩
    rw [h.file, append_assoc]
    rfl

lemma Reads.binlogFileRead (hnl : newline ∉ s.bBuff.data) (hmore : s.unread c ≠ []) :
    ∃ s', s.binlogFileRead (some k) c = (.ok, s') ∧ Reads c s' i done rest tail ∧
      s'.bBuff.data = s.bBuff.data ++ s.chunk k c ∧ s'.bIndex = s.bIndex ∧
      s.fdOffset < s'.fdOffset := by
  have hne : (s.chunk k c).length ≠ 0 := by
    rw [ne_eq, length_eq_zero_iff, chunk_eq_nil_iff (h.data_length_lt hnl)]
    exact hmore
  have hfill := h.ahead.fill k
  refine ⟨s.compact.fill (s.chunk k c), by rw [h.ahead.binlogFileRead, if_neg hne],
    ⟨h.fd, h.flag, h.file, hfill.text.symm, ?_, h.tail_line, h.tail_length⟩, rfl, rfl,
    Nat.lt_add_of_pos_right (pos_of_ne_zero hne)⟩
  have hlen : (s.chunk k c).length ≤ (s.unread c).length := by simp [chunk]
  have hoff := h.offset
  simp only [unread, h.fd, length_drop] at hlen
  show s.fdOffset + (s.chunk k c).length ≤ (c.files i).length
  omega

/-- A newline in the buffer or in the bytes that are read next: a record is returned. -/
lemma Reads.binlogRecordRead_ok (hnl : newline ∈ s.bBuff.data ++ s.chunk k c) :
    ∃ l rest' s', rest = l :: rest' ∧ s.binlogRecordRead (some k) c = (.ok, l.text, s') ∧
      Reads c s' i (done ++ [l]) rest' tail ∧ s'.bIndex = s.bIndex ∧ s.fdOffset ≤ s'.fdOffset := by
  by_cases hbuff : newline ∈ s.bBuff.data
  · obtain ⟨l, rest', s', hrest, hdo, hs', hi, hoff⟩ := h.binlogRecordReadDo hbuff
    exact ⟨l, rest', s', hrest, by rw [SyncCtx.binlogRecordRead, hdo], hs', hi, hoff.ge⟩
  · have hchunk : newline ∈ s.chunk k c := (mem_append.1 hnl).resolve_left hbuff
    have hmore : s.unread c ≠ [] := ne_nil_of_mem (mem_of_mem_take hchunk)
    obtain ⟨s₁, hread, hs₁, hdata, hi₁, hoff₁⟩ := h.binlogFileRead hbuff hmore
    obtain ⟨l, rest', s', hrest, hdo, hs', hi, hoff⟩ :=
      hs₁.binlogRecordReadDo (by rw [hdata]; exact hnl)
    refine ⟨l, rest', s', hrest, ?_, hs', hi.trans hi₁, hoff₁.le.trans hoff.ge⟩
    rw [SyncCtx.binlogRecordRead, binlogRecordReadDo_nodata hbuff]
    simp only [hread, hdo]

lemma Reads.binlogRecordRead_nodata
    (hnl : newline ∉ s.bBuff.data ++ s.chunk k c) (hmore : s.unread c ≠ []) :
    ∃ s', s.binlogRecordRead (some k) c = (.nodata, [], s') ∧ Reads c s' i done rest tail ∧
      s'.bIndex = s.bIndex ∧ s.fdOffset < s'.fdOffset := by
  have hbuff : newline ∉ s.bBuff.data := fun hmem => hnl (mem_append_left _ hmem)
  obtain ⟨s', hread, hs', hdata, hi, hoff⟩ := h.binlogFileRead (k := k) hbuff hmore
  refine ⟨s', ?_, hs', hi, hoff⟩
  rw [SyncCtx.binlogRecordRead, binlogRecordReadDo_nodata hbuff]
  simp only [hread]
  exact binlogRecordReadDo_nodata (by rw [hdata]; exact hnl)

lemma Reads.binlogRecordRead_end (hnl : newline ∉ s.bBuff.data) (hend : s.unread c = []) :
    s.binlogRecordRead (some k) c =
      if s.bIndex = c.currBinlogFileIndex then (.nodata, [], s.compact)
      else (.fileEnd, [], s.compact.setEndFlag) := by
  have hchunk : (s.chunk k c).length = 0 := by simp [chunk, hend]
  rw [SyncCtx.binlogRecordRead, binlogRecordReadDo_nodata hnl]
  dsimp only
  rw [h.ahead.binlogFileRead, if_pos hchunk]
  split_ifs <;> rfl

lemma Reads.congr {s' : SyncCtx} (hfd : s'.bFd = s.bFd)
    (hoff : s'.fdOffset = s.fdOffset) (hflag : s'.bBuff.flag = false)
    (hdata : s'.bBuff.data = s.bBuff.data) : Reads c s' i done rest tail := by
  refine ⟨hfd.trans h.fd, hflag, h.file, ?_, hoff ▸ h.offset, h.tail_line, h.tail_length⟩
  simpa only [unread, hfd, hoff, hdata] using h.text

end

variable {sizes : ℕ → ℕ}

/-- At the end of the file that is open, and without an unfinished line, the loop runs
through all indices up to the last one and returns `B_FILE_NODATA`, with the same file
open. -/
lemma Reads.binlogReadLoop_end (sizes : ℕ → ℕ) (gap j : ℕ) (h : Reads c s i done rest tail)
    (hnl : newline ∉ s.bBuff.data) (hend : s.unread c = [])
    (hfd : c.binlogFd = some c.currBinlogFileIndex)
    (hgap : s.bIndex + gap = c.currBinlogFileIndex) (htail : gap = 0 ∨ tail = []) :
    ∃ s', s.binlogReadLoop (readSizes sizes) (gap + 1) j c = (.nodata, [], c, s') ∧
      Reads c s' i done rest tail ∧ s'.bIndex = c.currBinlogFileIndex := by
  -- by induction on the number of files that are still ahead
  induction gap generalizing s j with
  | zero =>
    have hcurr : s.bIndex = c.currBinlogFileIndex := by omega
    refine ⟨s.compact, ?_, h.congr rfl rfl h.flag rfl, hcurr⟩
    rw [binlogReadLoop]
    simp only [readSizes, h.binlogRecordRead_end hnl hend, if_pos hcurr]
  | succ gap ih =>
    have hcurr : s.bIndex ≠ c.currBinlogFileIndex := by omega
    have hnil : tail = [] := htail.resolve_left (Nat.succ_ne_zero gap)
    have hdata : s.bBuff.data = [] := (h.rest_eq_nil hnl hend).2.trans hnil
    have hread : s.binlogRecordRead (some (sizes j)) c = (.fileEnd, [], s.compact.setEndFlag) := by
      rw [h.binlogRecordRead_end hnl hend, if_neg hcurr]
    rw [binlogReadLoop_of_end hfd hread hdata]
    -- the index has moved, the descriptor has not
    refine ih (j + 1) (h.congr rfl rfl rfl rfl) hnl hend ?_ (Or.inr hnil)
    show s.bIndex + 1 + gap = c.currBinlogFileIndex
    omega

lemma binlogRead_of_record {io : ℕ → ReadIo} {l : RecordLine mounts} {s' : SyncCtx}
    (hread : s.binlogRecordRead (io 0).read c = (.ok, l.text, s')) :
    binlogRead mounts io c s = ⟨some .ok, some l.record, l.text.length, c, s'⟩ := by
  rw [binlogRead_of_line mounts hread, lineResult, l.parse_eq]

/-- `binlog_read` returns the next record if there is a newline in the buffer or in the
bytes that its first `read` returns. -/
lemma Reads.binlogRead_ok (sizes : ℕ → ℕ) (h : Reads c s i done rest tail)
    (hnl : newline ∈ s.bBuff.data ++ s.chunk (sizes 0) c) :
    ∃ l rest' s', rest = l :: rest' ∧ binlogRead mounts (readSizes sizes) c s
        = ⟨some .ok, some l.record, l.text.length, c, s'⟩ ∧
      Reads c s' i (done ++ [l]) rest' tail ∧ s'.bIndex = s.bIndex := by
  obtain ⟨l, rest', s', hrest, hread, hs', hi, -⟩ := h.binlogRecordRead_ok hnl
  exact ⟨l, rest', s', hrest, binlogRead_of_record hread, hs', hi⟩

/-- `binlog_read` returns `B_FILE_NODATA` if its first `read` brings bytes and no newline. -/
lemma Reads.binlogRead_nodata (sizes : ℕ → ℕ) (h : Reads c s i done rest tail)
    (hnl : newline ∉ s.bBuff.data ++ s.chunk (sizes 0) c) (hmore : s.unread c ≠ []) :
    ∃ s', binlogRead mounts (readSizes sizes) c s = ⟨some .nodata, none, 0, c, s'⟩ ∧
      Reads c s' i done rest tail ∧ s'.bIndex = s.bIndex := by
  obtain ⟨s', hread, hs', hi, -⟩ := h.binlogRecordRead_nodata hnl hmore
  exact ⟨s', binlogRead_of_none mounts (by decide) (by decide) hread, hs', hi⟩

/-- `binlog_read` returns `B_FILE_NODATA` at the end of the file that is open, whatever is
in the files after it, unless it goes on to a later index with an unfinished line. -/
lemma Reads.binlogRead_end (h : Reads c s i done rest tail) (hnl : newline ∉ s.bBuff.data)
    (hend : s.unread c = []) (hfd : c.binlogFd = some c.currBinlogFileIndex)
    (hindex : s.bIndex ≤ c.currBinlogFileIndex)
    (htail : s.bIndex = c.currBinlogFileIndex ∨ tail = []) :
    ∃ s', binlogRead mounts (readSizes sizes) c s = ⟨some .nodata, none, 0, c, s'⟩ ∧
      Reads c s' i done rest tail ∧ s'.bIndex = c.currBinlogFileIndex := by
  obtain ⟨s', hloop, hs', hi⟩ := h.binlogReadLoop_end sizes
    (c.currBinlogFileIndex - s.bIndex) 0 hnl hend hfd (by omega) (htail.imp_left (by omega))
  have hgap : c.currBinlogFileIndex + 1 - s.bIndex = c.currBinlogFileIndex - s.bIndex + 1 := by
    omega
  refine ⟨s', ?_, hs', hi⟩
  simp only [binlogRead, hgap, hloop, length_nil]

/-- `binlog_read` returns `B_FILE_NODATA`, and consumes nothing, if its first `read` brings no
newline. -/
lemma Reads.binlogRead_noRecord (sizes : ℕ → ℕ) (h : Reads c s i done rest tail)
    (hnl : newline ∉ s.bBuff.data ++ s.chunk (sizes 0) c)
    (hfd : c.binlogFd = some c.currBinlogFileIndex) (hindex : s.bIndex ≤ c.currBinlogFileIndex)
    (htail : s.unread c = [] → s.bIndex = c.currBinlogFileIndex ∨ tail = []) :
    ∃ s', binlogRead mounts (readSizes sizes) c s = ⟨some .nodata, none, 0, c, s'⟩ ∧
      Reads c s' i done rest tail ∧ s'.bIndex ≤ c.currBinlogFileIndex := by
  by_cases hend : s.unread c = []
  · have hbuff : newline ∉ s.bBuff.data := fun hmem => hnl (mem_append_left _ hmem)
    obtain ⟨s', hread, hs', hi⟩ := h.binlogRead_end hbuff hend hfd hindex (htail hend)
    exact ⟨s', hread, hs', le_of_eq hi⟩
  · obtain ⟨s', hread, hs', hi⟩ := h.binlogRead_nodata sizes hnl hend
    exact ⟨s', hread, hs', hi ▸ hindex⟩

/-- `binlog_read` returns `B_FILE_ERROR` when it would go on to a later index with an
unfinished line in its buffer. -/
lemma Reads.binlogRead_end_error (h : Reads c s i done rest tail) (hnl : newline ∉ s.bBuff.data)
    (hend : s.unread c = []) (hindex : s.bIndex < c.currBinlogFileIndex) (htail : tail ≠ []) :
    (binlogRead mounts (readSizes sizes) c s).state = some .error := by
  have hread : s.binlogRecordRead (some (sizes 0)) c = (.fileEnd, [], s.compact.setEndFlag) := by
    rw [h.binlogRecordRead_end hnl hend, if_neg hindex.ne]
  have hdata : s.compact.setEndFlag.bBuff.data ≠ [] := fun hnil =>
    htail ((h.rest_eq_nil hnl hend).2.symm.trans hnil)
  rw [binlogRead, binlogReadLoop_of_unfinished hread hdata]

/-! ### The mark and the position -/

/-- The position, the counts and the mark file of the readers are the same. -/
structure SameMark (s s' : SyncCtx) : Prop where
  bIndex : s'.bIndex = s.bIndex
  bOffset : s'.bOffset = s.bOffset
  syncCount : s'.syncCount = s.syncCount
  lastSyncCount : s'.lastSyncCount = s.lastSyncCount
  markFile : s'.markFile = s.markFile

lemma SameMark.refl (s : SyncCtx) : SameMark s s := ⟨rfl, rfl, rfl, rfl, rfl⟩

lemma SameMark.trans {s₁ s₂ : SyncCtx} (h : SameMark s s₁) (h' : SameMark s₁ s₂) : SameMark s s₂ :=
  ⟨h'.bIndex.trans h.bIndex, h'.bOffset.trans h.bOffset, h'.syncCount.trans h.syncCount,
    h'.lastSyncCount.trans h.lastSyncCount, h'.markFile.trans h.markFile⟩

lemma binlogRecordReadDo_sameMark (s : SyncCtx) : SameMark s s.binlogRecordReadDo.2.2 := by
  rw [SyncCtx.binlogRecordReadDo]
  split
  · exact .refl s
  · dsimp only
    split_ifs
    · exact .refl s
    · exact ⟨rfl, rfl, rfl, rfl, rfl⟩

lemma binlogFileRead_sameMark (io : Option ℕ) (c : BinlogCtx) (s : SyncCtx) :
    SameMark s (s.binlogFileRead io c).2 := by
  unfold SyncCtx.binlogFileRead
  by_cases hflag : s.bBuff.flag ∧ s.bBuff.data.length = 0
  · rw [if_pos hflag]
    exact .refl s
  · rw [if_neg hflag]
    cases s.bFd with
    | none => exact ⟨rfl, rfl, rfl, rfl, rfl⟩
    | some i =>
      cases io with
      | none => exact ⟨rfl, rfl, rfl, rfl, rfl⟩
      | some k =>
        dsimp only
        split_ifs <;> exact ⟨rfl, rfl, rfl, rfl, rfl⟩

lemma binlogRecordRead_sameMark (io : Option ℕ) (c : BinlogCtx) (s : SyncCtx) :
    SameMark s (s.binlogRecordRead io c).2.2 := by
  have hdo := binlogRecordReadDo_sameMark s
  rw [SyncCtx.binlogRecordRead]
  generalize s.binlogRecordReadDo = r at hdo ⊢
  obtain ⟨st, record, s₁⟩ := r
  have hs₁ : SameMark s s₁ := hdo
  cases st with
  | nodata =>
    have hread : SameMark s (s₁.binlogFileRead io c).2 :=
      hs₁.trans (binlogFileRead_sameMark io c s₁)
    dsimp only
    generalize s₁.binlogFileRead io c = r₂ at hread ⊢
    obtain ⟨st₂, s₂⟩ := r₂
    have hs₂ : SameMark s s₂ := hread
    cases st₂ with
    | ok => exact hs₂.trans (binlogRecordReadDo_sameMark s₂)
    | error | nodata | fileEnd | lfsError => exact hs₂
  | ok | error | fileEnd | lfsError => exact hs₁

/-- **A call on the last file**, whatever the `read` returns: the next record, or no record,
or an error.  Nothing but the buffer changes.  There is an error only if the `read` fails, and a call
that returns no record although there is one has read some of its bytes. -/
lemma Reads.binlogRead_lastFile (h : Reads c s i done rest tail)
    (hindex : s.bIndex = c.currBinlogFileIndex) (io : ℕ → ReadIo) :
    ∃ s', SameMark s s' ∧ ((∃ l rest', rest = l :: rest' ∧
          binlogRead mounts io c s = ⟨some .ok, some l.record, l.text.length, c, s'⟩ ∧
          Reads c s' i (done ++ [l]) rest' tail ∧ s.fdOffset ≤ s'.fdOffset) ∨
        (binlogRead mounts io c s = ⟨some .nodata, none, 0, c, s'⟩ ∧
          Reads c s' i done rest tail ∧ (rest = [] ∨ s.fdOffset < s'.fdOffset)) ∨
        (binlogRead mounts io c s = ⟨some .error, none, 0, c, s'⟩ ∧
          Reads c s' i done rest tail ∧ (io 0).read = none)) := by
  -- in all cases the loop ends in its first round
  have hok {l : RecordLine mounts} {s' : SyncCtx}
      (hread : s.binlogRecordRead (io 0).read c = (.ok, l.text, s')) := binlogRead_of_record hread
  have hnone {st : BinlogFileState} {s' : SyncCtx} (hst : st ≠ .ok) (hend : st ≠ .fileEnd)
      (hread : s.binlogRecordRead (io 0).read c = (st, [], s')) :=
    binlogRead_of_none mounts hst hend hread
  have hsame := binlogRecordRead_sameMark (io 0).read c s
  cases hio : (io 0).read with
  | some k =>
    rw [hio] at hok hnone hsame
    by_cases hnl : newline ∈ s.bBuff.data ++ s.chunk k c
    · obtain ⟨l, rest', s', hrest, hread, hs', -, hoff⟩ := h.binlogRecordRead_ok hnl
      rw [hread] at hsame
      exact ⟨s', hsame, .inl ⟨l, rest', hrest, hok hread, hs', hoff⟩⟩
    by_cases hend : s.unread c = []
    · have hbuff : newline ∉ s.bBuff.data := fun hmem => hnl (mem_append_left _ hmem)
      have hread : s.binlogRecordRead (some k) c = (.nodata, [], s.compact) := by
        rw [h.binlogRecordRead_end hbuff hend, if_pos hindex]
      rw [hread] at hsame
      exact ⟨s.compact, hsame, .inr (.inl ⟨hnone (by decide) (by decide) hread, h.congr rfl rfl h.flag rfl,
        .inl (h.rest_eq_nil hbuff hend).1⟩)⟩
    · obtain ⟨s', hread, hs', -, hoff⟩ := h.binlogRecordRead_nodata hnl hend
      rw [hread] at hsame
      exact ⟨s', hsame, .inr (.inl ⟨hnone (by decide) (by decide) hread, hs', .inr hoff⟩)⟩
  | none =>
    rw [hio] at hok hnone hsame
    by_cases hbuff : newline ∈ s.bBuff.data
    · obtain ⟨l, rest', s', hrest, hdo, hs', -, hoff⟩ := h.binlogRecordReadDo hbuff
      have hread : s.binlogRecordRead none c = (.ok, l.text, s') := by
        rw [SyncCtx.binlogRecordRead, hdo]
      rw [hread] at hsame
      exact ⟨s', hsame, .inl ⟨l, rest', hrest, hok hread, hs', hoff.ge⟩⟩
    · have hread : s.binlogRecordRead none c = (.error, [], s.compact) := by
        rw [SyncCtx.binlogRecordRead, binlogRecordReadDo_nodata hbuff]
        simp [SyncCtx.binlogFileRead, h.flag]
      rw [hread] at hsame
      exact ⟨s.compact, hsame, .inr (.inr ⟨hnone (by decide) (by decide) hread, h.congr rfl rfl h.flag rfl, rfl⟩)⟩

lemma Reads.append {c' : BinlogCtx} {ls : List (RecordLine mounts)} (h : Reads c s i done rest [])
    (hfile : c'.files i = c.files i ++ textOf ls) : Reads c' s i done (rest ++ ls) [] := by
  have hoff := h.offset
  have htext := h.text
  refine ⟨h.fd, h.flag, ?_, ?_, ?_, h.tail_line, h.tail_length⟩
  · rw [hfile, h.file, append_nil, append_nil, ← textOf_append, append_assoc]
  · have hunread : s.unread c' = s.unread c ++ textOf ls := by
      simp only [unread, h.fd, hfile, drop_append_of_le_length hoff]
    rw [append_nil] at htext ⊢
    rw [textOf_append, htext, hunread, append_assoc]
  · rw [hfile, length_append]
    omega

end SyncCtx

end Lfs.Binlog
