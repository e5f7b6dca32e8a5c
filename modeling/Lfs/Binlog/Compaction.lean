/-
The `memcpy` in `__binlog_file_read`.

Before it reads, `__binlog_file_read` moves the bytes that are left in the buffer to its start.  It does so
with `memcpy`, whose arguments must not overlap: the bytes must not be more than the bytes consumed in front
of them.  A call of `binlog_read` reads only if there is no whole line in the buffer, so what is moved is
the part of a line that the last `read` ended in, and what lies in front of it are the lines that this `read`
completed.
-/
import Lfs.Binlog.ReaderText
import Lfs.Lib.Run

namespace Lfs.Binlog

open Lfs.Lib List Option

/-- The number of bytes in the whole lines of a text. -/
def wholeLength (text : List Byte) : ℕ := (linesOf newline text).flatten.length

namespace SyncCtx

/-- The `memcpy` of `__binlog_file_read`, if it is reached: how many bytes it moves and how far. -/
def fileReadMove (s : SyncCtx) : Option (ℕ × ℕ) :=
  if s.bBuff.flag ∧ s.bBuff.data.length = 0 then none
  else if s.bBuff.cbuff ≠ 0 then
    if 0 < s.bBuff.data.length then some (s.bBuff.data.length, s.bBuff.cbuff) else none
  else none

/-- Source and destination of the `memcpy` do not overlap. -/
def MovesApart (s : SyncCtx) : Prop := ∀ p ∈ s.fileReadMove, p.1 ≤ p.2

instance (s : SyncCtx) : Decidable s.MovesApart :=
  inferInstanceAs (Decidable (∀ p ∈ s.fileReadMove, p.1 ≤ p.2))

/-- If there is a newline in what the `read` returns, then the part of a line that the buffer and these bytes
end in is not longer than the lines in front of it. -/
def EndsShort (io : Option ℕ) (c : BinlogCtx) (s : SyncCtx) : Prop :=
  ∀ k ∈ io, newline ∈ s.chunk k c →
    (s.bBuff.data ++ s.chunk k c).length ≤ 2 * wholeLength (s.bBuff.data ++ s.chunk k c)

instance (io : Option ℕ) (c : BinlogCtx) (s : SyncCtx) : Decidable (s.EndsShort io c) :=
  inferInstanceAs (Decidable (∀ k ∈ io, _))

/-- The contexts with which the loop of `binlog_read` goes on to the next round, if it does. -/
def nextRound (io : ReadIo) (c : BinlogCtx) (s : SyncCtx) : Option (BinlogCtx × SyncCtx) :=
  match s.binlogRecordRead io.read c with
  | (.fileEnd, _, s) =>
    if s.bBuff.data.length ≠ 0 then none
    else
      match c.openNewBinlogFile io.openNew with
      | (.ok, c) =>
        match s.nextIndex.syncMarkFileBatdataWrite io with
        | (ret, s) => if ret = lfsOk then some (c, s) else none
      | _ => none
  | _ => none

/-- The rounds of `binlogReadLoop`: the contexts at the start of each, and what its `read` returns. -/
def loopRounds (io : ℕ → ReadIo) : ℕ → ℕ → BinlogCtx → SyncCtx → List (Option ℕ × BinlogCtx × SyncCtx)
  | 0, i, c, s => [((io i).read, c, s)]
  | gap + 1, i, c, s => ((io i).read, c, s) ::
      (nextRound (io i) c s).elim [] fun p => loopRounds io gap (i + 1) p.1 p.2

/-- The rounds of a call of `binlog_read` that call `__binlog_file_read`. -/
def fileReads (io : ℕ → ReadIo) (c : BinlogCtx) (s : SyncCtx) : List (Option ℕ × BinlogCtx × SyncCtx) :=
  (loopRounds io (c.currBinlogFileIndex + 1 - s.bIndex) 0 c s).filter
    fun r => r.2.2.binlogRecordReadDo.1 = .nodata

end SyncCtx

/-- A call of `binlog_read` in a run of calls on one log; after `B_FILE_OK` the caller adds the length of the
record to `b_offset`. -/
def readCall (mounts : Mounts) (p : BinlogCtx × SyncCtx) (io : ℕ → ReadIo) : BinlogCtx × SyncCtx :=
  let res := binlogRead mounts io p.1 p.2
  let bOffset :=
    if res.state = some .ok then res.sctx.bOffset + res.brecordSize else res.sctx.bOffset
  (res.ctx, { res.sctx with bOffset := bOffset })

/-- Every `memcpy` of the call moves its bytes to a place where they do not overlap. -/
def CallApart (p : BinlogCtx × SyncCtx) (io : ℕ → ReadIo) : Prop :=
  ∀ r ∈ p.2.fileReads io p.1, r.2.2.MovesApart

/-- Every `read` of the call ends in a part of a line that is short enough. -/
def CallShort (p : BinlogCtx × SyncCtx) (io : ℕ → ReadIo) : Prop :=
  ∀ r ∈ p.2.fileReads io p.1, r.2.2.EndsShort r.1 r.2.1

instance (p : BinlogCtx × SyncCtx) (io : ℕ → ReadIo) : Decidable (CallApart p io) :=
  inferInstanceAs (Decidable (∀ r ∈ _, _))

instance (p : BinlogCtx × SyncCtx) (io : ℕ → ReadIo) : Decidable (CallShort p io) :=
  inferInstanceAs (Decidable (∀ r ∈ _, _))

namespace SyncCtx

variable {io : ℕ → ReadIo} {c c' : BinlogCtx} {s s' : SyncCtx} {gap i : ℕ}

/-! ### The buffer -/

/-- The part of a line at the end of the buffer is not longer than the lines in front of it, consumed or
not, if there are any. -/
def Room (s : SyncCtx) : Prop :=
  s.bBuff.cbuff = 0 ∧ newline ∉ s.bBuff.data ∨
    s.bBuff.data.length ≤ s.bBuff.cbuff + 2 * wholeLength s.bBuff.data

lemma wholeLength_of_not_mem {text : List Byte} (h : newline ∉ text) : wholeLength text = 0 := by
  rw [wholeLength, linesOf_of_not_mem h]
  rfl

lemma wholeLength_append {line rest : List Byte} (h : IsLine newline line) :
    wholeLength (line ++ rest) = line.length + wholeLength rest := by
  rw [wholeLength, linesOf_append_of_isLine h, flatten_cons, length_append, wholeLength]

lemma Room.congr (h : s.Room) (hcbuff : s'.bBuff.cbuff = s.bBuff.cbuff)
    (hdata : s'.bBuff.data = s.bBuff.data) : s'.Room := by
  rw [Room, hcbuff, hdata]
  exact h

lemma room_of_data (h : s.bBuff.data = []) : s.Room := by
  rw [Room, h]
  exact .inr (Nat.zero_le _)

lemma Room.movesApart (h : s.Room) (hnl : newline ∉ s.bBuff.data) : s.MovesApart := by
  rintro ⟨n, d⟩ hmove
  rw [Room, wholeLength_of_not_mem hnl] at h
  rw [fileReadMove, mem_def] at hmove
  split_ifs at hmove with hend hcbuff
  obtain ⟨rfl, rfl⟩ := Prod.mk.inj (some.inj hmove)
  rcases h with ⟨hzero, -⟩ | hle
  · exact absurd hzero hcbuff
  · exact hle

lemma Room.binlogRecordReadDo (h : s.Room) : s.binlogRecordReadDo.2.2.Room := by
  by_cases hnl : newline ∈ s.bBuff.data
  · obtain ⟨a, b, hcut, ha, hdata⟩ := exists_cut hnl
    rw [SyncCtx.binlogRecordReadDo, hcut]
    dsimp only
    split_ifs
    · exact h
    · have hline : IsLine newline (a ++ [newline]) := ⟨a, ha, rfl⟩
      have hsplit : s.bBuff.data = (a ++ [newline]) ++ b := by rw [hdata, append_assoc]; rfl
      have hle := h.resolve_left fun hzero => hzero.2 hnl
      rw [hsplit, wholeLength_append hline, length_append] at hle
      right
      show b.length ≤ s.bBuff.cbuff + (a ++ [newline]).length + 2 * wholeLength b
      omega
  · rw [binlogRecordReadDo_nodata hnl]
    exact h

/-- `__binlog_file_read` moves what is left to the start of the buffer, and what it reads comes behind. -/
lemma bBuff_binlogFileRead (io : Option ℕ) (c : BinlogCtx) (s : SyncCtx) :
    (s.binlogFileRead io c).2.bBuff.data = [] ∨ (s.binlogFileRead io c).2.bBuff.cbuff = 0 ∧
      ((s.binlogFileRead io c).2.bBuff.data = s.bBuff.data ∨
        ∃ k ∈ io, (s.binlogFileRead io c).2.bBuff.data = s.bBuff.data ++ s.chunk k c) := by
  unfold SyncCtx.binlogFileRead
  by_cases hend : s.bBuff.flag ∧ s.bBuff.data.length = 0
  · rw [if_pos hend]
    exact .inl (length_eq_zero_iff.1 hend.2)
  · rw [if_neg hend]
    right
    cases s.bFd with
    | none => exact ⟨rfl, .inl rfl⟩
    | some f =>
      cases io with
      | none => exact ⟨rfl, .inl rfl⟩
      | some k =>
        dsimp only
        split_ifs
        · exact ⟨rfl, .inl rfl⟩
        · exact ⟨rfl, .inl rfl⟩
        · exact ⟨rfl, .inr ⟨k, rfl, rfl⟩⟩

lemma room_binlogFileRead {io : Option ℕ} (hnl : newline ∉ s.bBuff.data) (hshort : s.EndsShort io c) :
    (s.binlogFileRead io c).2.Room := by
  rcases bBuff_binlogFileRead io c s with hdata | ⟨hcbuff, hdata | ⟨k, hk, hdata⟩⟩
  · exact room_of_data hdata
  · exact .inl ⟨hcbuff, hdata ▸ hnl⟩
  · rw [Room, hcbuff, hdata]
    by_cases hmem : newline ∈ s.chunk k c
    · exact .inr ((hshort k hk hmem).trans (Nat.le_add_left _ _))
    · exact .inl ⟨rfl, not_mem_append hnl hmem⟩

lemma Room.binlogRecordRead {io : Option ℕ} (h : s.Room)
    (hshort : s.binlogRecordReadDo.1 = .nodata → s.EndsShort io c) :
    (s.binlogRecordRead io c).2.2.Room := by
  by_cases hnl : newline ∈ s.bBuff.data
  · have hdo := h.binlogRecordReadDo
    obtain ⟨a, b, hcut, -⟩ := exists_cut hnl
    rw [SyncCtx.binlogRecordRead]
    rw [SyncCtx.binlogRecordReadDo, hcut] at hdo ⊢
    dsimp only at hdo ⊢
    split_ifs at hdo ⊢ <;> exact hdo
  · have hnodata := binlogRecordReadDo_nodata hnl
    have hread := room_binlogFileRead hnl (hshort (by rw [hnodata]))
    rw [SyncCtx.binlogRecordRead, hnodata]
    dsimp only
    generalize s.binlogFileRead io c = r at hread ⊢
    obtain ⟨st, s₁⟩ := r
    cases st with
    | ok => exact Room.binlogRecordReadDo hread
    | error | nodata | fileEnd | lfsError => exact hread

/-! ### The loop -/

lemma bBuff_syncMarkFileBatdataWrite (io : ReadIo) (s : SyncCtx) :
    (s.syncMarkFileBatdataWrite io).2.bBuff = s.bBuff := by
  rw [syncMarkFileBatdataWrite]
  split_ifs <;> rfl

/-- A round that is followed by another one has met the end of a file, with nothing left in the buffer. -/
lemma binlogReadLoop_of_nextRound {p : BinlogCtx × SyncCtx} (gap : ℕ)
    (hnext : nextRound (io i) c s = some p) :
    s.binlogReadLoop io (gap + 1) i c = p.2.binlogReadLoop io gap (i + 1) p.1 ∧ p.2.bBuff.data = [] := by
  rw [binlogReadLoop]
  rw [nextRound] at hnext
  generalize s.binlogRecordRead (io i).read c = r at hnext ⊢
  obtain ⟨st, record, s₁⟩ := r
  cases st with
  | fileEnd =>
    by_cases hlen : s₁.bBuff.data.length = 0
    · have hmark := bBuff_syncMarkFileBatdataWrite (io i) s₁.nextIndex
      simp only [hlen, ne_eq, not_true_eq_false, if_false] at hnext ⊢
      generalize c.openNewBinlogFile (io i).openNew = q at hnext ⊢
      obtain ⟨st', c₁⟩ := q
      cases st' with
      | ok =>
        generalize s₁.nextIndex.syncMarkFileBatdataWrite (io i) = w at hnext hmark ⊢
        obtain ⟨ret, s₂⟩ := w
        simp only [ite_none_right_eq_some, Option.some.injEq] at hnext
        obtain ⟨hret, rfl⟩ := hnext
        dsimp only at hmark ⊢
        rw [if_pos hret, hmark]
        exact ⟨rfl, length_eq_zero_iff.1 hlen⟩
      | error | nodata | fileEnd | lfsError => cases hnext
    · simp [hlen] at hnext
  | ok | error | nodata | lfsError => cases hnext

lemma Room.lastRound (h : (s.binlogRecordRead (io i).read c).2.2.Room)
    (hlast : gap = 0 ∨ nextRound (io i) c s = none) : (s.binlogReadLoop io gap i c).2.2.2.Room := by
  rw [binlogReadLoop]
  rw [nextRound] at hlast
  generalize s.binlogRecordRead (io i).read c = r at h hlast ⊢
  obtain ⟨st, record, s₁⟩ := r
  cases st with
  | fileEnd =>
    cases gap with
    | zero => exact h
    | succ gap =>
      have hnext := hlast.resolve_left (Nat.succ_ne_zero gap)
      by_cases hlen : s₁.bBuff.data.length = 0
      · have hmark := bBuff_syncMarkFileBatdataWrite (io i) s₁.nextIndex
        have hdata : s₁.nextIndex.bBuff.data = [] := length_eq_zero_iff.1 hlen
        simp only [hlen, ne_eq, not_true_eq_false, if_false] at hnext ⊢
        generalize c.openNewBinlogFile (io i).openNew = q at hnext ⊢
        obtain ⟨st', c₁⟩ := q
        cases st' with
        | ok =>
          by_cases hret : (s₁.nextIndex.syncMarkFileBatdataWrite (io i)).1 = lfsOk
          · simp [hret] at hnext
          · simp only [hret, if_false]
            exact room_of_data (by rw [hmark, hdata])
        | error | nodata | fileEnd | lfsError => exact room_of_data hdata
      · simp only [ne_eq, hlen, not_false_eq_true, if_true]
        exact h
  | ok | error | nodata | lfsError => exact h

lemma Room.movesApart_of_nodata (h : s.Room) (hnodata : s.binlogRecordReadDo.1 = .nodata) :
    s.MovesApart := by
  refine h.movesApart fun hnl => ?_
  obtain ⟨a, b, hcut, -⟩ := exists_cut hnl
  rw [SyncCtx.binlogRecordReadDo, hcut] at hnodata
  dsimp only at hnodata
  split_ifs at hnodata

lemma Room.binlogReadLoop (h : s.Room) (gap i : ℕ)
    (hshort : ∀ r ∈ loopRounds io gap i c s, r.2.2.binlogRecordReadDo.1 = .nodata →
      r.2.2.EndsShort r.1 r.2.1) :
    (s.binlogReadLoop io gap i c).2.2.2.Room ∧
      ∀ r ∈ loopRounds io gap i c s, r.2.2.binlogRecordReadDo.1 = .nodata → r.2.2.MovesApart := by
  -- by induction on the number of indices that are still ahead
  induction gap generalizing i c s with
  | zero =>
    have hread := h.binlogRecordRead (hshort _ mem_cons_self)
    refine ⟨Room.lastRound hread (.inl rfl), fun r hr hnodata => ?_⟩
    obtain rfl := mem_singleton.1 hr
    exact h.movesApart_of_nodata hnodata
  | succ gap ih =>
    have hread := h.binlogRecordRead (hshort _ mem_cons_self)
    rw [loopRounds] at hshort ⊢
    cases hnext : nextRound (io i) c s with
    | none =>
      refine ⟨Room.lastRound hread (.inr hnext), fun r hr hnodata => ?_⟩
      obtain rfl := mem_singleton.1 hr
      exact h.movesApart_of_nodata hnodata
    | some p =>
      obtain ⟨hloop, hdata⟩ := binlogReadLoop_of_nextRound gap hnext
      rw [hnext] at hshort
      obtain ⟨hroom, hapart⟩ := ih (room_of_data hdata) _ fun r hr => hshort r (mem_cons_of_mem _ hr)
      rw [hloop]
      refine ⟨hroom, fun r hr hnodata => ?_⟩
      rcases mem_cons.1 hr with rfl | hr
      · exact h.movesApart_of_nodata hnodata
      · exact hapart r hr hnodata

end SyncCtx

/-- **When the `memcpy` in the reader is sound.**  On every log, from an empty buffer and whatever the system
calls return: in a run of calls of `binlog_read` in which every `read` that completes a line ends in a part of
a line that is not longer than the lines it completes, no `memcpy` of `__binlog_file_read` moves more bytes
than the distance `cbuff - buff`. -/
theorem compaction_apart (mounts : Mounts) (c : BinlogCtx) (s : SyncCtx) (hbuff : s.bBuff = ⟨0, false, []⟩)
    (ios : List (ℕ → ReadIo))
    (hshort : Along (readCall mounts) (fun p io _ => CallShort p io) (c, s) ios) :
    Along (readCall mounts) (fun p io _ => CallApart p io) (c, s) ios := by
  refine Along.of_inv (I := fun p => p.2.Room) (SyncCtx.room_of_data (by rw [hbuff])) hshort ?_
  rintro ⟨c, s⟩ io hroom hcall
  obtain ⟨hafter, hapart⟩ := SyncCtx.Room.binlogReadLoop hroom (c.currBinlogFileIndex + 1 - s.bIndex) 0
    fun r hr hnodata => hcall r (mem_filter.2 ⟨hr, by simpa using hnodata⟩)
  refine ⟨?_, fun r hr => ?_⟩
  · have hres := SyncCtx.binlogRead_ctx_sctx mounts io c s
    rw [← hres] at hafter
    exact hafter.congr rfl rfl
  · obtain ⟨hr, hnodata⟩ := mem_filter.1 hr
    exact hapart r hr (by simpa using hnodata)

def logOf (text : List Byte) : BinlogCtx :=
  { BinlogCtx.fresh with files := fun i => if i = 0 then text else [] }

/-- A reader that has opened the first file. -/
def newReader : SyncCtx := (zeroSyncCtx none).openSettingBinlog

/-- Two records of 13 bytes, of which a `read` returns 20 bytes at most: the second call of `binlog_read`
moves 7 bytes over a distance of 13. -/
theorem compaction_apart_twoRecords : newReader.bBuff = ⟨0, false, []⟩ ∧
    (readCall [[47, 109]] (logOf (textOf [lineA, lineB]), newReader) (readSizes fun _ => 20)).2.fileReadMove =
      some (7, 13) ∧
    Along (readCall [[47, 109]]) (fun p io _ => CallApart p io) (logOf (textOf [lineA, lineB]), newReader)
      (List.replicate 4 (readSizes fun _ => 20)) :=
  ⟨rfl, by decide,
    compaction_apart [[47, 109]] (logOf (textOf [lineA, lineB])) newReader rfl _ (by decide)⟩

/-- The line `1|C|g/v/B0/aaaaaaaa`. -/
def lineLong : RecordLine [[47, 109]] where
  text := [49, 124, 67, 124, 103, 47, 118, 47, 66, 48, 47, 97, 97, 97, 97, 97, 97, 97, 97, 10]
  isLine := ⟨[49, 124, 67, 124, 103, 47, 118, 47, 66, 48, 47, 97, 97, 97, 97, 97, 97, 97, 97],
    by decide, rfl⟩
  noNul := by decide
  length_lt := by decide
  record := ⟨67, [97, 97, 97, 97, 97, 97, 97, 97], [47, 109, 47, 97, 97, 97, 97, 97, 97, 97, 97],
    [103, 47, 118, 47, 66, 48, 47, 97, 97, 97, 97, 97, 97, 97, 97], 1, 0⟩
  parse_eq := by rfl

/-- A record of 13 bytes and one of 20, of which the first `read` returns 27 bytes: the second call of
`binlog_read` moves 14 bytes over a distance of 13. -/
theorem compaction_overlaps :
    ¬ Along (readCall [[47, 109]]) (fun p io _ => CallApart p io) (logOf (textOf [lineA, lineLong]), newReader)
      (List.replicate 2 (readSizes fun _ => 27)) := by
  decide

end Lfs.Binlog
