/-
What one call of `binlog_read` does on a file of any bytes.

`SyncCtx.Ahead` says which bytes are ahead of a reader.  If they begin with a line that is short enough for
a record, the call takes this line and parses it, however many of the bytes are in the buffer already.
If they do not, it returns `B_FILE_NODATA` or `B_FILE_ERROR`: the line is too long, or it is not finished, or
there is nothing left and the call runs through the later indices.
-/
import Lfs.Binlog.Reader

namespace Lfs.Binlog

open Lfs.Lib List

/-- There is no line at the front of the text that is short enough for a record. -/
def NoLine (text : List Byte) : Prop :=
  ∀ line rest, text = line ++ rest → IsLine newline line → binlogRecordSize ≤ line.length

lemma noLine_nil : NoLine [] := by
  intro line rest htext hline
  exact absurd (append_eq_nil_iff.1 htext.symm).1 hline.ne_nil

/-- What `binlog_read` returns for a line. -/
def lineResult (mounts : Mounts) (line : List Byte) (c : BinlogCtx) (s : SyncCtx) : ReadResult :=
  match binlogRecordParse mounts line with
  | .ok brecord => ⟨some .ok, some brecord, line.length, c, s⟩
  | .error e => ⟨e.toState, none, line.length, c, s⟩

namespace SyncCtx

variable {mounts : Mounts} {c : BinlogCtx} {s s' : SyncCtx} {j k : ℕ} {sizes : ℕ → ℕ} {io : ℕ → ReadIo}
  {st : BinlogFileState} {text line rest record : List Byte}

/-! ### The rounds of the loop -/

lemma syncMarkFileBatdataWrite_readSizes (j : ℕ) (s : SyncCtx) :
    s.syncMarkFileBatdataWrite (readSizes sizes j)
      = (lfsOk, { s with markFile := some s.batdata, lastSyncCount := s.syncCount }) := by
  simp [syncMarkFileBatdataWrite, readSizes, WriteOutcome.count]

lemma binlogReadLoop_of_ne_end (hst : st ≠ .fileEnd)
    (hread : s.binlogRecordRead (io j).read c = (st, record, s')) (gap : ℕ) :
    s.binlogReadLoop io gap j c = (st, record, c, s') := by
  rw [binlogReadLoop, hread]
  cases st with
  | fileEnd => exact absurd rfl hst
  | ok | error | nodata | lfsError => rfl

lemma binlogReadLoop_of_unfinished (hread : s.binlogRecordRead (io j).read c = (.fileEnd, record, s'))
    (hdata : s'.bBuff.data ≠ []) (gap : ℕ) : s.binlogReadLoop io gap j c = (.error, record, c, s') := by
  rw [binlogReadLoop, hread]
  cases gap with
  | zero => rfl
  | succ gap => exact if_pos (mt length_eq_zero_iff.1 hdata)

/-- A reader reopens the file that the writer has open and goes on with its own descriptor. -/
lemma binlogReadLoop_of_end (hfd : c.binlogFd = some c.currBinlogFileIndex)
    (hread : s.binlogRecordRead (some (sizes j)) c = (.fileEnd, record, s')) (hdata : s'.bBuff.data = [])
    (gap : ℕ) : s.binlogReadLoop (readSizes sizes) (gap + 1) j c =
      binlogReadLoop (readSizes sizes) gap (j + 1) c { s'.nextIndex with
        markFile := some s'.nextIndex.batdata
        lastSyncCount := s'.nextIndex.syncCount } := by
  rw [binlogReadLoop, readSizes_read, hread]
  simp only [hdata, length_nil, ne_eq, not_true_eq_false, if_false, readSizes_openNew,
    BinlogCtx.openNewBinlogFile_true hfd, syncMarkFileBatdataWrite_readSizes, if_true]

lemma binlogReadLoop_ctx (sizes : ℕ → ℕ) (hfd : c.binlogFd = some c.currBinlogFileIndex)
    (gap j : ℕ) (s : SyncCtx) : (s.binlogReadLoop (readSizes sizes) gap j c).2.2.1 = c := by
  induction gap generalizing j s with
  | zero =>
    rw [binlogReadLoop]
    rcases s.binlogRecordRead (readSizes sizes j).read c with ⟨st, record, s'⟩
    cases st <;> rfl
  | succ gap ih =>
    rcases hread : s.binlogRecordRead (some (sizes j)) c with ⟨st, record, s'⟩
    by_cases hst : st = .fileEnd
    · subst hst
      by_cases hdata : s'.bBuff.data = []
      · rw [binlogReadLoop_of_end hfd hread hdata]
        exact ih (j + 1) _
      · rw [binlogReadLoop_of_unfinished hread hdata]
    · rw [binlogReadLoop_of_ne_end hst hread]

lemma binlogRead_ctx_sctx (mounts : Mounts) (io : ℕ → ReadIo) (c : BinlogCtx) (s : SyncCtx) :
    ((binlogRead mounts io c s).ctx, (binlogRead mounts io c s).sctx) =
      (s.binlogReadLoop io (c.currBinlogFileIndex + 1 - s.bIndex) 0 c).2.2 := by
  unfold binlogRead
  generalize s.binlogReadLoop io (c.currBinlogFileIndex + 1 - s.bIndex) 0 c = r
  obtain ⟨st, record, c', s'⟩ := r
  cases st with
  | ok =>
    dsimp only
    cases binlogRecordParse mounts record <;> rfl
  | error | nodata | fileEnd | lfsError => rfl

lemma binlogRead_ctx (sizes : ℕ → ℕ) (hfd : c.binlogFd = some c.currBinlogFileIndex)
    (s : SyncCtx) : (binlogRead mounts (readSizes sizes) c s).ctx = c :=
  (congrArg Prod.fst (binlogRead_ctx_sctx mounts (readSizes sizes) c s)).trans
    (binlogReadLoop_ctx sizes hfd _ 0 s)

lemma binlogRead_of_line (mounts : Mounts)
    (hread : s.binlogRecordRead (io 0).read c = (.ok, line, s')) :
    binlogRead mounts io c s = lineResult mounts line c s' := by
  rw [binlogRead, binlogReadLoop_of_ne_end (by decide) hread]
  rfl

lemma binlogRead_of_none (mounts : Mounts) (hok : st ≠ .ok) (hend : st ≠ .fileEnd)
    (hread : s.binlogRecordRead (io 0).read c = (st, [], s')) :
    binlogRead mounts io c s = ⟨some st, none, 0, c, s'⟩ := by
  rw [binlogRead, binlogReadLoop_of_ne_end hend hread]
  cases st with
  | ok => exact absurd rfl hok
  | error | nodata | fileEnd | lfsError => rfl

/-! ### A line -/

/-- The bytes `text` are ahead of the reader, in its buffer and in the file that it has open. -/
structure Ahead (c : BinlogCtx) (s : SyncCtx) (text : List Byte) : Prop where
  fd : ∃ i, s.bFd = some i
  flag : s.bBuff.flag = false
  text : s.bBuff.data ++ s.unread c = text

lemma chunk_eq_nil_iff (hroom : s.bBuff.data.length < binlogBufferSize) :
    s.chunk k c = [] ↔ s.unread c = [] := by
  constructor
  · intro h
    by_contra hne
    have hpos := length_pos_iff.2 hne
    have hlen : (s.chunk k c).length = 0 := by rw [h]; rfl
    simp only [chunk, length_take, readCount] at hlen
    omega
  · intro h
    simp [chunk, h]

lemma chunk_append_drop : s.chunk k c ++ (s.unread c).drop (s.chunk k c).length = s.unread c := by
  have hpre : s.chunk k c <+: s.unread c := take_prefix _ _
  rw [prefix_iff_eq_append.1 hpre]

lemma binlogRecordReadDo_nodata (hnl : newline ∉ s.bBuff.data) :
    s.binlogRecordReadDo = (.nodata, [], s) := by
  rw [SyncCtx.binlogRecordReadDo, cut_eq_none.2 hnl]

/-- A newline in the buffer: the line in front of it is returned. -/
lemma Ahead.binlogRecordReadDo_line (h : Ahead c s (line ++ rest)) (hline : IsLine newline line)
    (hlen : line.length < binlogRecordSize) (hnl : newline ∈ s.bBuff.data) :
    ∃ buff, s.binlogRecordReadDo = (.ok, line, { s with bBuff := buff }) ∧
      Ahead c { s with bBuff := buff } rest := by
  obtain ⟨a, b, hcut, ha, hdata⟩ := exists_cut hnl
  obtain ⟨a', ha', rfl⟩ := hline
  -- the line and the buffer are cut at the same newline
  have heq : a' ++ newline :: rest = a ++ newline :: (b ++ s.unread c) := by
    have htext := h.text
    rw [hdata] at htext
    simpa using htext.symm
  have hleft := cut_append (b := rest) ha'
  rw [heq, cut_append ha, Option.some.injEq, Prod.mk.injEq] at hleft
  obtain ⟨rfl, hrest⟩ := hleft
  refine ⟨(s.consume (a ++ [newline]) b).bBuff, ?_, h.fd, h.flag, hrest⟩
  rw [SyncCtx.binlogRecordReadDo, hcut]
  exact if_neg (Nat.not_le.2 hlen)

lemma Ahead.binlogFileRead (h : Ahead c s text) : s.binlogFileRead (some k) c =
    if (s.chunk k c).length = 0 then
      if s.bIndex = c.currBinlogFileIndex then (.nodata, s.compact) else (.fileEnd, s.compact.setEndFlag)
    else (.ok, s.compact.fill (s.chunk k c)) := by
  obtain ⟨i, hfd⟩ := h.fd
  simp [SyncCtx.binlogFileRead, h.flag, hfd]

lemma Ahead.fill (h : Ahead c s text) (k : ℕ) : Ahead c (s.compact.fill (s.chunk k c)) text := by
  obtain ⟨i, hfd⟩ := h.fd
  refine ⟨⟨i, hfd⟩, h.flag, ?_⟩
  have hrest : (s.compact.fill (s.chunk k c)).unread c = (s.unread c).drop (s.chunk k c).length := by
    simp [unread, SyncCtx.fill, compact, hfd]
  rw [hrest, ← h.text]
  simp [SyncCtx.fill, compact, chunk_append_drop]

section

variable (h : Ahead c s (line ++ rest)) (hline : IsLine newline line)
    (hlen : line.length < binlogRecordSize)
include h hline hlen

/-- A `read` that fills the buffer brings the rest of a line that is short enough. -/
lemma Ahead.newline_mem_chunk (hk : binlogBufferSize ≤ k) (hnl : newline ∉ s.bBuff.data) :
    newline ∈ s.chunk k c := by
  have hsize : binlogRecordSize ≤ binlogBufferSize := by decide
  have hpre : line <+: s.bBuff.data ++ s.unread c := by
    rw [h.text]
    exact prefix_append line rest
  have hroom : s.bBuff.data.length < line.length := by
    by_contra hle
    have hdata := prefix_of_prefix_length_le hpre (prefix_append _ _) (Nat.le_of_not_lt hle)
    exact hnl (hdata.subset hline.mem)
  have hchunk : s.bBuff.data ++ s.chunk k c
      = (s.bBuff.data ++ s.unread c).take binlogBufferSize := by
    rw [take_append, take_of_length_le (by omega), chunk, append_cancel_left_eq, take_eq_take_iff]
    simp only [readCount]
    omega
  have hline' : line <+: s.bBuff.data ++ s.chunk k c := by
    rw [hchunk]
    exact prefix_take_iff.2 ⟨hpre, by omega⟩
  exact (mem_append.1 (hline'.subset hline.mem)).resolve_left hnl

lemma Ahead.binlogRecordRead_line (hk : binlogBufferSize ≤ k) : ∃ off buff,
      s.binlogRecordRead (some k) c = (.ok, line, { s with fdOffset := off, bBuff := buff }) ∧
        Ahead c { s with fdOffset := off, bBuff := buff } rest := by
  by_cases hnl : newline ∈ s.bBuff.data
  · obtain ⟨buff, hdo, hs'⟩ := h.binlogRecordReadDo_line hline hlen hnl
    exact ⟨s.fdOffset, buff, by rw [SyncCtx.binlogRecordRead, hdo], hs'⟩
  · have hmem := h.newline_mem_chunk hline hlen hk hnl
    have hne : (s.chunk k c).length ≠ 0 := fun hzero =>
      absurd hmem (by simp [length_eq_zero_iff.1 hzero])
    obtain ⟨buff, hdo, hs'⟩ := (h.fill k).binlogRecordReadDo_line hline hlen
      (mem_append_right _ hmem)
    refine ⟨s.fdOffset + (s.chunk k c).length, buff, ?_, hs'⟩
    rw [SyncCtx.binlogRecordRead, binlogRecordReadDo_nodata hnl]
    simp only [h.binlogFileRead, if_neg hne, hdo]
    rfl

/-- **A call on a line** that is short enough for a record: the line is parsed, and nothing of the reader
changes but the buffer and the offset of the descriptor. -/
lemma Ahead.binlogRead_line (mounts : Mounts) (hsizes : binlogBufferSize ≤ sizes 0) :
    ∃ off buff, Ahead c { s with fdOffset := off, bBuff := buff } rest ∧
      binlogRead mounts (readSizes sizes) c s =
        lineResult mounts line c { s with fdOffset := off, bBuff := buff } := by
  obtain ⟨off, buff, hread, hs'⟩ := h.binlogRecordRead_line hline hlen hsizes
  exact ⟨off, buff, hs', binlogRead_of_line mounts hread⟩

end

/-! ### No line -/

lemma Ahead.binlogRecordReadDo_noLine (h : Ahead c s text) (hno : NoLine text) :
    s.binlogRecordReadDo = (.nodata, [], s) ∨ ∃ record, s.binlogRecordReadDo = (.error, record, s) := by
  by_cases hnl : newline ∈ s.bBuff.data
  · obtain ⟨a, b, hcut, ha, hdata⟩ := exists_cut hnl
    have hlong : binlogRecordSize ≤ (a ++ [newline]).length := by
      refine hno (a ++ [newline]) (b ++ s.unread c) ?_ ⟨a, ha, rfl⟩
      rw [← h.text, hdata]
      simp
    refine .inr ⟨a ++ [newline], ?_⟩
    rw [SyncCtx.binlogRecordReadDo, hcut]
    exact if_pos hlong
  · exact .inl (binlogRecordReadDo_nodata hnl)

/-- Without a line there is no data, or an error, or the end of the file. -/
lemma Ahead.binlogRecordRead_noLine (h : Ahead c s text) (hno : NoLine text) :
    (∃ record s', s.binlogRecordRead (some k) c = (.nodata, record, s') ∨
        s.binlogRecordRead (some k) c = (.error, record, s')) ∨
      s.binlogRecordRead (some k) c = (.fileEnd, [], s.compact.setEndFlag) ∧ s.chunk k c = [] := by
  rw [SyncCtx.binlogRecordRead]
  rcases h.binlogRecordReadDo_noLine hno with hdo | ⟨record, hdo⟩
  · rw [hdo]
    dsimp only
    rw [h.binlogFileRead]
    by_cases hend : (s.chunk k c).length = 0
    · rw [if_pos hend]
      by_cases hcurr : s.bIndex = c.currBinlogFileIndex
      · rw [if_pos hcurr]
        exact .inl ⟨[], s.compact, .inl rfl⟩
      · rw [if_neg hcurr]
        exact .inr ⟨rfl, length_eq_zero_iff.1 hend⟩
    · rw [if_neg hend]
      rcases (h.fill k).binlogRecordReadDo_noLine hno with hdo | ⟨record, hdo⟩
      · exact .inl ⟨_, _, .inl hdo⟩
      · exact .inl ⟨_, _, .inr hdo⟩
  · rw [hdo]
    exact .inl ⟨record, s, .inr rfl⟩

lemma Ahead.binlogReadLoop_noLine (sizes : ℕ → ℕ) (hfd : c.binlogFd = some c.currBinlogFileIndex) (gap j : ℕ)
    (h : Ahead c s text) (hno : NoLine text) :
    (s.binlogReadLoop (readSizes sizes) gap j c).1 = .nodata ∨
      (s.binlogReadLoop (readSizes sizes) gap j c).1 = .error := by
  -- by induction on the number of files that are still ahead
  induction gap generalizing s j text with
  | zero =>
    rw [binlogReadLoop, readSizes_read]
    rcases h.binlogRecordRead_noLine hno with ⟨record, s', hread | hread⟩ | ⟨hread, -⟩
    · rw [hread]
      exact .inl rfl
    · rw [hread]
      exact .inr rfl
    · rw [hread]
      exact .inr rfl
  | succ gap ih =>
    rcases h.binlogRecordRead_noLine hno with ⟨record, s', hread | hread⟩ | ⟨hread, hchunk⟩
    · rw [binlogReadLoop_of_ne_end (by decide) hread]
      exact .inl rfl
    · rw [binlogReadLoop_of_ne_end (by decide) hread]
      exact .inr rfl
    · by_cases hdata : s.bBuff.data = []
      · -- nothing is left, and the next round finds the same
        have hend : s.unread c = [] := (chunk_eq_nil_iff (by rw [hdata]; decide)).1 hchunk
        have htext : s.bBuff.data ++ s.unread c = [] := by rw [hdata, hend, append_nil]
        rw [binlogReadLoop_of_end hfd hread hdata]
        exact ih (j + 1) ⟨h.fd, rfl, htext⟩ noLine_nil
      · have hunfinished : s.compact.setEndFlag.bBuff.data ≠ [] := hdata
        rw [binlogReadLoop_of_unfinished hread hunfinished]
        exact .inr rfl

/-- **A call where there is no line** returns no record, and says that there is none or an error. -/
lemma Ahead.binlogRead_noLine (mounts : Mounts) (hfd : c.binlogFd = some c.currBinlogFileIndex)
    (h : Ahead c s text) (hno : NoLine text) :
    (binlogRead mounts (readSizes sizes) c s).record = none ∧
      ((binlogRead mounts (readSizes sizes) c s).state = some .nodata ∨
        (binlogRead mounts (readSizes sizes) c s).state = some .error) := by
  have hloop := h.binlogReadLoop_noLine sizes hfd (c.currBinlogFileIndex + 1 - s.bIndex) 0 hno
  rw [binlogRead]
  generalize s.binlogReadLoop (readSizes sizes) (c.currBinlogFileIndex + 1 - s.bIndex) 0 c = r
    at hloop ⊢
  obtain ⟨st, record, c', s'⟩ := r
  rcases hloop with hst | hst
  · obtain rfl : st = .nodata := hst
    exact ⟨rfl, .inl rfl⟩
  · obtain rfl : st = .error := hst
    exact ⟨rfl, .inr rfl⟩

end SyncCtx

end Lfs.Binlog
