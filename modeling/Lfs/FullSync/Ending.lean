/-
Whether a full synchronisation comes to its end when the master answers (`ds_sync.c`).

Every connection succeeds and every request is answered.  A master that does not have a data file answers
with an error status, which `client_recvheader` returns as it returns a failure of the network; so
`full_sync_from_master` connects again and requests the same file.

Which data files are requested depends on the first file of the slave's remote binlog (`requests`), and
this on the binlogs of the master (`Master.firstFileText`), which may be of any bytes.
-/
import Lfs.Binlog.BatMark
import Lfs.FullSync.Received
import Lfs.Lib.Reach
import Lfs.Server.Machine

namespace Lfs.FullSync

open Lfs.Binlog Lfs.Lib List Slave

/-! ### The answers of the master -/

/-- The status with which `handle_cmd_copymasterdata` answers where `stat` finds a file of this size, or
none. -/
def copyStatus (size : Option ℕ) : Server.RespStatus :=
  ((Server.Conn.connNew 0 []).handleCmdCopymasterdata { Server.StepEnv.ok .nio with stat := size }).2

lemma copyStatus_eq_success {size : Option ℕ} : copyStatus size = .success ↔ size ≠ none := by
  cases size with
  | none => exact iff_of_false (fun h => nomatch h) (fun h => h rfl)
  | some n => exact iff_of_true rfl (Option.some_ne_none n)

namespace Slave

/-- The data file that the slave requests next, if it is in the loop of `__full_sync_data_from_master` and
reads a record. -/
def wants (mounts : Mounts) (s : Slave) : Option (List Byte) :=
  if s.pc = .data then
    (binlogRead mounts readFull s.rbctx s.sctx).record.map BinlogRecord.fBlockMapName
  else none

/-- How the next network operation ends with a master that has the data files `disk`, given with their
sizes.  `client_recvheader` returns `LFS_OK` for no status but success. -/
def answer (mounts : Mounts) (disk : List Byte → Option ℕ) (s : Slave) : Outcome :=
  match s.wants mounts with
  | none => .ok
  | some name => if copyStatus (disk name) = .success then .ok else .refused

/-- One step with a master that answers. -/
def answered (mounts : Mounts) (m : Master) (disk : List Byte → Option ℕ) (s : Slave) : Slave :=
  s.step mounts m (.next (s.answer mounts disk))

variable {mounts : Mounts} {m : Master} {disk : List Byte → Option ℕ} {s : Slave}

lemma answered_of_ne (h : s.pc ≠ .data) :
    s.answered mounts m disk = s.step mounts m (.next .ok) := by
  rw [answered, answer, wants, if_neg h]

lemma answered_of_data (h : s.pc = .data) :
    s.answered mounts m disk = s.fullSyncData mounts (s.answer mounts disk) := by
  simp only [answered, Slave.step, h]

lemma answer_of_record {brecord : BinlogRecord} (hpc : s.pc = .data)
    (h : (binlogRead mounts readFull s.rbctx s.sctx).record = some brecord) :
    s.answer mounts disk = if disk brecord.fBlockMapName = none then .refused else .ok := by
  rw [answer, wants, if_pos hpc, h]
  dsimp only [Option.map_some]
  by_cases hnone : disk brecord.fBlockMapName = none
  · rw [if_pos hnone, if_neg fun hstatus => copyStatus_eq_success.1 hstatus hnone]
  · rw [if_neg hnone, if_pos (copyStatus_eq_success.2 hnone)]

end Slave

/-! ### The requests for a file -/

/-- The data files that `__full_sync_data_from_master` requests when it reads these lines.  It ends at a line
that is too long or that `B_FILE_ERROR` is returned for, and steps over every other line that is not a
record. -/
def requests (mounts : Mounts) : List (List Byte) → List (List Byte)
  | [] => []
  | line :: lines =>
    if binlogRecordSize ≤ line.length then []
    else match binlogRecordParse mounts line with
      | .ok brecord => brecord.fBlockMapName :: requests mounts lines
      | .error .fileError => []
      | .error _ => requests mounts lines

/-- The master has every data file that is requested for a binlog file with these bytes. -/
def Available (mounts : Mounts) (disk : List Byte → Option ℕ) (text : List Byte) : Prop :=
  ∀ name ∈ requests mounts (linesOf newline text), disk name ≠ none

instance (mounts : Mounts) (disk : List Byte → Option ℕ) (text : List Byte) :
    Decidable (Available mounts disk text) :=
  inferInstanceAs (Decidable (∀ name ∈ _, _))

section Requests

variable {mounts : Mounts} {disk : List Byte → Option ℕ} {text line rest : List Byte}
  {brecord : BinlogRecord} {e : ParseError}

lemma available_of_noLine (h : NoLine text) : Available mounts disk text := by
  have hnil : requests mounts (linesOf newline text) = [] := by
    cases hcut : cut newline text with
    | none => rw [linesOf_of_not_mem (cut_eq_none.1 hcut), requests]
    | some p =>
      obtain ⟨ha, htext⟩ := cut_eq_some.1 hcut
      have hline : IsLine newline (p.1 ++ [newline]) := ⟨p.1, ha, rfl⟩
      have heq : text = p.1 ++ [newline] ++ p.2 := by simpa using htext
      rw [heq, linesOf_append_of_isLine hline, requests, if_pos (h _ _ heq hline)]
  intro name hmem
  rw [hnil] at hmem
  exact absurd hmem not_mem_nil

lemma available_record (hline : IsLine newline line) (hlen : line.length < binlogRecordSize)
    (hparse : binlogRecordParse mounts line = .ok brecord) :
    Available mounts disk (line ++ rest) ↔
      disk brecord.fBlockMapName ≠ none ∧ Available mounts disk rest := by
  rw [Available, linesOf_append_of_isLine hline, requests, if_neg (Nat.not_le.2 hlen), hparse]
  exact forall_mem_cons

lemma available_fileError (hline : IsLine newline line) (hlen : line.length < binlogRecordSize)
    (hparse : binlogRecordParse mounts line = .error .fileError) :
    Available mounts disk (line ++ rest) := by
  rw [Available, linesOf_append_of_isLine hline, requests, if_neg (Nat.not_le.2 hlen), hparse]
  exact forall_mem_nil _

lemma available_skipped (hline : IsLine newline line) (hlen : line.length < binlogRecordSize)
    (hparse : binlogRecordParse mounts line = .error e) (he : e ≠ .fileError) :
    Available mounts disk (line ++ rest) ↔ Available mounts disk rest := by
  rw [Available, linesOf_append_of_isLine hline, requests, if_neg (Nat.not_le.2 hlen), hparse]
  cases e with
  | fileError => exact absurd rfl he
  | lfsError | undefined => exact Iff.rfl

end Requests

/-! ### The position of the reader -/

def loaded (markFile : Option (List Byte)) : SyncCtx := (zeroSyncCtx markFile).markFileBatdataLoad

/-- A position in a file `text` that can be written to a mark: the master has the data files that are
requested from here on if it has all of them. -/
structure Position (mounts : Mounts) (disk : List Byte → Option ℕ) (text : List Byte) (r : SyncCtx) :
    Prop where
  index : r.bIndex = 0
  timestamp : r.lastTimestamp = 0
  offset : r.bOffset < 2 ^ 63
  count : r.syncCount ≤ r.bOffset
  left : Available mounts disk (text.drop r.bOffset) ↔ Available mounts disk text

section Reader

variable {mounts : Mounts} {disk : List Byte → Option ℕ} {text : List Byte} {c : BinlogCtx} {r : SyncCtx}
  {s : Slave} {n : ℕ}

lemma position_loaded_none : Position mounts disk text (loaded none) :=
  ⟨rfl, rfl, by decide, le_refl 0, Iff.rfl⟩

lemma Position.loaded_batdata (h : Position mounts disk text r) :
    Position mounts disk text (loaded (some r.batdata)) := by
  have hmarkable : r.Markable := by
    refine ⟨?_, ?_, h.offset, h.count.trans_lt h.offset⟩
    · rw [h.index]
      decide
    · rw [h.timestamp]
      decide
  rw [loaded, SyncCtx.markFileBatdataLoad_batdata hmarkable]
  exact ⟨h.index, h.timestamp, h.offset, h.count, h.left⟩

lemma loaded_bBuff (markFile : Option (List Byte)) : (loaded markFile).bBuff = ⟨0, false, []⟩ := by
  cases markFile with
  | none => rfl
  | some data => exact (SyncCtx.loadBatdata_frame _ _).1

lemma loaded_markFile (markFile : Option (List Byte)) : (loaded markFile).markFile = markFile := by
  cases markFile with
  | none => rfl
  | some data => exact (SyncCtx.loadBatdata_frame _ _).2

lemma Position.ahead_openSettingBinlog {markFile : Option (List Byte)}
    (h : Position mounts disk text (loaded markFile)) :
    SyncCtx.Ahead c (loaded markFile).openSettingBinlog
      ((c.files 0).drop (loaded markFile).openSettingBinlog.bOffset) := by
  refine ⟨⟨_, rfl⟩, ?_, ?_⟩
  · rw [SyncCtx.openSettingBinlog, loaded_bBuff]
  · simp only [SyncCtx.openSettingBinlog, SyncCtx.unread, loaded_bBuff, h.index, nil_append]

lemma Position.countRecord {rest : List Byte} (h : Position mounts disk text (counted n s.sctx))
    (hmark : Position mounts disk text (loaded s.sctx.markFile))
    (hahead : SyncCtx.Ahead c (counted n s.sctx) rest) :
    ∃ r, s.countRecord n = { s with sctx := r } ∧ r.bOffset = s.sctx.bOffset + n ∧
      Position mounts disk text r ∧ Position mounts disk text (loaded r.markFile) ∧
      SyncCtx.Ahead c r rest := by
  rcases s.countRecord_cases n with heq | heq
  · exact ⟨_, heq, rfl, h, hmark, hahead⟩
  · exact ⟨_, heq, rfl, ⟨h.index, h.timestamp, h.offset, h.count, h.left⟩, h.loaded_batdata,
      hahead.fd, hahead.flag, hahead.text⟩

end Reader

/-! ### The stages of the synchronisation -/

/-- All files have been copied, and the mark file of the reader gives a position in the first file. -/
structure Copied (mounts : Mounts) (m : Master) (disk : List Byte → Option ℕ) (s : Slave) : Prop where
  linked : s.linked = true
  fmark : s.fmark = ⟨m.locals.length, m.locals.length, m.remotes.length, m.remotes.length⟩
  markFile : s.markFile = some s.fmark
  rbctx : s.rbctx = m.binlog
  mark : Position mounts disk m.firstFileText (loaded s.sctx.markFile)

/-- The slave is in the data phase: all files have been copied, and what is ahead of the reader is the first
file from its offset on. -/
structure InData (mounts : Mounts) (m : Master) (disk : List Byte → Option ℕ) (s : Slave) : Prop where
  pc : s.pc = .data
  alive : s.alive = true
  sum : 0 < m.locals.length + m.remotes.length
  copied : Copied mounts m disk s
  position : Position mounts disk m.firstFileText s.sctx
  ahead : SyncCtx.Ahead m.binlog s.sctx (m.firstFileText.drop s.sctx.bOffset)

/-- The states of a full synchronisation from a master that answers.  It connects again only if a data
file is missing, and it has returned only if none is. -/
inductive Stage (mounts : Mounts) (m : Master) (disk : List Byte → Option ℕ) (s : Slave) : Prop
  | copy (h : InCopy m s)
  | data (h : InData mounts m disk s)
  | again (hpc : s.pc = .connect ∨
        s.alive = true ∧ (s.pc = .binlogs ∨ s.pc = .remoteFiles ∨ s.pc = .localFiles))
      (hsum : 0 < m.locals.length + m.remotes.length)
      (h : Copied mounts m disk s)
      (hmissing : ¬ Available mounts disk m.firstFileText)
  | returned (st : FullSyncState) (hpc : s.pc = .returned st)
      (h : Available mounts disk m.firstFileText)

/-- How many steps the synchronisation takes at most. -/
def weight (m : Master) (s : Slave) : ℕ :=
  match s.pc with
  | .data => m.firstFileText.length - s.sctx.bOffset + 1
  | .returned _ => 0
  | _ => m.firstFileText.length + 2 + copyTodo m s

/-- A step leads to a stage again, and nearer to the end if no data file is missing. -/
structure Advances (mounts : Mounts) (m : Master) (disk : List Byte → Option ℕ) (s s' : Slave) : Prop where
  stage : Stage mounts m disk s'
  weight_lt : Available mounts disk m.firstFileText → weight m s' < weight m s

section Steps

variable {mounts : Mounts} {m : Master} {disk : List Byte → Option ℕ} {s : Slave} {n : ℕ}
  {r : SyncCtx} {brecord : BinlogRecord}

lemma weight_of_inCopy (h : InCopy m s) : weight m s = m.firstFileText.length + 2 + copyTodo m s := by
  unfold weight
  split
  · exact absurd ‹_› h.pc_ne.1
  · exact absurd ‹_› (h.pc_ne.2 _)
  · rfl

lemma stage_fullsyncctxInit (halive : s.alive = true) (hsum : 0 < m.locals.length + m.remotes.length)
    (h : Copied mounts m disk s) :
    s.syncLocalBinlogData m .ok = { s with pc := .data, sctx := (loaded s.sctx.markFile).openSettingBinlog } ∧
      Stage mounts m disk (s.syncLocalBinlogData m .ok) := by
  have hstep : s.syncLocalBinlogData m .ok =
      { s with pc := .data, sctx := (loaded s.sctx.markFile).openSettingBinlog } := by
    simp [syncLocalBinlogData, h.fmark, hsum, fullsyncctxInit, loaded]
  have hmark := h.mark
  refine ⟨hstep, ?_⟩
  rw [hstep]
  refine .data ⟨rfl, halive, hsum, ⟨h.linked, h.fmark, h.markFile, h.rbctx, ?_⟩,
    ⟨hmark.index, hmark.timestamp, hmark.offset, hmark.count, hmark.left⟩, ?_⟩
  · show Position mounts disk m.firstFileText (loaded (loaded s.sctx.markFile).markFile)
    rw [loaded_markFile]
    exact hmark
  · have hahead := hmark.ahead_openSettingBinlog (c := m.binlog)
    rwa [m.binlog_files_zero] at hahead

lemma InCopy.advances (h : InCopy m s) : Advances mounts m disk s (s.step mounts m (.next .ok)) := by
  rcases (h.copies_or_copied : Copies m s (s.step mounts m (.next .ok)) ∨ _) with
    hcopies | ⟨hpc, hcopying⟩
  · refine ⟨.copy hcopies.next, fun _ => ?_⟩
    rw [weight_of_inCopy h, weight_of_inCopy hcopies.next]
    exact Nat.add_lt_add_left hcopies.todo_lt _
  · have hweight := weight_of_inCopy h
    simp only [Slave.step, hpc]
    rcases eq_zero_or_pos (m.locals.length + m.remotes.length) with hzero | hsum
    · -- there are no files at all
      have hl : m.locals = [] := length_eq_zero_iff.1 (by omega)
      have hr : m.remotes = [] := length_eq_zero_iff.1 (by omega)
      have hstep : s.syncLocalBinlogData m .ok = { s with pc := .returned .finish } := by
        simp [syncLocalBinlogData, hcopying.fmark, hzero]
      rw [hstep]
      refine ⟨.returned .finish rfl ?_, fun _ => ?_⟩
      · rw [Master.firstFileText_eq_nil hl hr]
        exact available_of_noLine noLine_nil
      · rw [hweight]
        simp only [weight]
        omega
    · have hmark : Position mounts disk m.firstFileText (loaded s.sctx.markFile) := by
        rw [hcopying.sctx]
        exact position_loaded_none
      obtain ⟨hstep, hstage⟩ := stage_fullsyncctxInit hcopying.alive hsum
        ⟨hcopying.linked, hcopying.fmark, hcopying.markFile, hcopying.rbctx, hmark⟩
      refine ⟨hstage, fun _ => ?_⟩
      rw [hweight, hstep]
      simp only [weight]
      omega

lemma stage_again (hpc : s.pc = .connect ∨
      s.alive = true ∧ (s.pc = .binlogs ∨ s.pc = .remoteFiles ∨ s.pc = .localFiles))
    (hsum : 0 < m.locals.length + m.remotes.length)
    (h : Copied mounts m disk s)
    (hmissing : ¬ Available mounts disk m.firstFileText) :
    Stage mounts m disk (s.step mounts m (.next .ok)) := by
  rcases hpc with hpc | ⟨halive, hpc | hpc | hpc⟩
  · have hstep : s.step mounts m (.next .ok) = { s with pc := .binlogs, alive := true } := by
      simp [Slave.step, hpc, connectMaster]
    rw [hstep]
    exact .again (.inr ⟨rfl, .inl rfl⟩) hsum ⟨h.linked, h.fmark, h.markFile, h.rbctx, h.mark⟩ hmissing
  · have hstep : s.step mounts m (.next .ok) = { s with pc := .remoteFiles } := by
      have hne : m.locals.length + m.remotes.length ≠ 0 := hsum.ne'
      simp only [Slave.step, hpc, binlogFromMaster, markInitload, h.markFile, h.fmark, if_neg hne]
    rw [hstep]
    exact .again (.inr ⟨halive, .inr (.inl rfl)⟩) hsum
      ⟨h.linked, h.fmark, h.markFile, h.rbctx, h.mark⟩ hmissing
  · have hstep : s.step mounts m (.next .ok) = { s with pc := .localFiles } := by
      simp [Slave.step, hpc, syncRemoteBinlogData, h.fmark]
    rw [hstep]
    exact .again (.inr ⟨halive, .inr (.inr rfl)⟩) hsum
      ⟨h.linked, h.fmark, h.markFile, h.rbctx, h.mark⟩ hmissing
  · have hstep : s.step mounts m (.next .ok) = s.syncLocalBinlogData m .ok := by
      simp only [Slave.step, hpc]
    rw [hstep]
    exact (stage_fullsyncctxInit halive hsum h).2

/-! ### The data phase -/

lemma fullSyncData_ended {o : Outcome}
    (h : (binlogRead mounts readFull s.rbctx s.sctx).state = some .nodata ∨
      (binlogRead mounts readFull s.rbctx s.sctx).state = some .error) :
    ∃ st, (s.fullSyncData mounts o).pc = .returned st := by
  unfold fullSyncData
  rcases h with hstate | hstate
  · simp only [hstate]
    exact ⟨_, rfl⟩
  · simp only [hstate]
    exact ⟨_, rfl⟩

lemma fullSyncData_skipped {o : Outcome} {e : ParseError} (he : e ≠ .fileError)
    (h : binlogRead mounts readFull s.rbctx s.sctx = ⟨e.toState, none, n, s.rbctx, r⟩) :
    s.fullSyncData mounts o = { s with sctx := r }.countRecord n := by
  unfold fullSyncData
  cases e with
  | fileError => exact absurd rfl he
  | lfsError | undefined => simp only [h, ParseError.toState]

lemma fullSyncData_refused
    (h : binlogRead mounts readFull s.rbctx s.sctx = ⟨some .ok, some brecord, n, s.rbctx, r⟩) :
    s.fullSyncData mounts .refused = ({ s with sctx := r }.endData).reconnect := by
  unfold fullSyncData
  simp only [h]
  exact if_neg fun hok => nomatch hok.1

section

variable (h : InData mounts m disk s)
include h

lemma InData.countRecord {line rest : List Byte} {off : ℕ} {buff : BinlogBuff}
    (hsize : m.firstFileText.length < 2 ^ 63)
    (htext : m.firstFileText.drop s.sctx.bOffset = line ++ rest) (hline : line ≠ [])
    (hahead : SyncCtx.Ahead m.binlog { s.sctx with fdOffset := off, bBuff := buff } rest)
    (hleft : Available mounts disk (line ++ rest) ↔ Available mounts disk rest)
    (requested : List (List Byte)) (sequence : ℤ) :
    Advances mounts m disk s ({ s with
      sctx := { s.sctx with fdOffset := off, bBuff := buff }
      requested := requested
      lastSyncSequence := sequence }.countRecord line.length) := by
  have hrest : m.firstFileText.drop (s.sctx.bOffset + line.length) = rest := by
    rw [← drop_drop, htext, drop_left]
  have hpos : 0 < line.length := length_pos_iff.2 hline
  have hlen := congrArg List.length htext
  rw [length_drop, length_append] at hlen
  -- the position behind the line
  have hnext : Position mounts disk m.firstFileText
      (counted line.length { s.sctx with fdOffset := off, bBuff := buff }) := by
    refine ⟨h.position.index, h.position.timestamp, ?_, ?_, ?_⟩
    · show s.sctx.bOffset + line.length < 2 ^ 63
      omega
    · show s.sctx.syncCount + 1 ≤ s.sctx.bOffset + line.length
      have hcount := h.position.count
      omega
    · show Available mounts disk (m.firstFileText.drop (s.sctx.bOffset + line.length)) ↔ _
      rw [hrest, ← hleft, ← htext]
      exact h.position.left
  obtain ⟨r, hstep, hoffset, hr, hmark, hahead'⟩ := hnext.countRecord
    (s := { s with
      sctx := { s.sctx with fdOffset := off, bBuff := buff }
      requested := requested
      lastSyncSequence := sequence })
    (c := m.binlog) h.copied.mark ⟨hahead.fd, hahead.flag, hahead.text⟩
  have hoffset' : r.bOffset = s.sctx.bOffset + line.length := hoffset
  have hcopied := h.copied
  rw [hstep]
  refine ⟨.data ⟨h.pc, h.alive, h.sum,
    ⟨hcopied.linked, hcopied.fmark, hcopied.markFile, hcopied.rbctx, hmark⟩, hr, ?_⟩, fun _ => ?_⟩
  · show SyncCtx.Ahead m.binlog r (m.firstFileText.drop r.bOffset)
    rw [hoffset', hrest]
    exact hahead'
  · simp only [weight, h.pc, hoffset']
    omega

/-- A data file is missing: the mark is written if it is behind, and the connection is closed. -/
lemma InData.reconnect (hmissing : ¬ Available mounts disk m.firstFileText)
    (off : ℕ) (buff : BinlogBuff) :
    Stage mounts m disk
      ({ s with sctx := { s.sctx with fdOffset := off, bBuff := buff } }.endData).reconnect := by
  have hcopied := h.copied
  have hmoved : Position mounts disk m.firstFileText { s.sctx with fdOffset := off, bBuff := buff } :=
    ⟨h.position.index, h.position.timestamp, h.position.offset, h.position.count, h.position.left⟩
  rcases endData_cases { s with sctx := { s.sctx with fdOffset := off, bBuff := buff } } with heq | heq
  · rw [heq]
    exact .again (.inl rfl) h.sum
      ⟨hcopied.linked, hcopied.fmark, hcopied.markFile, hcopied.rbctx, hcopied.mark⟩ hmissing
  · rw [heq]
    exact .again (.inl rfl) h.sum
      ⟨hcopied.linked, hcopied.fmark, hcopied.markFile, hcopied.rbctx, hmoved.loaded_batdata⟩ hmissing

lemma InData.ended (havailable : Available mounts disk (m.firstFileText.drop s.sctx.bOffset))
    (hstate : (binlogRead mounts readFull s.rbctx s.sctx).state = some .nodata ∨
      (binlogRead mounts readFull s.rbctx s.sctx).state = some .error) (o : Outcome) :
    Advances mounts m disk s (s.fullSyncData mounts o) := by
  obtain ⟨st, hst⟩ := fullSyncData_ended (o := o) hstate
  refine ⟨.returned st hst (h.position.left.1 havailable), fun _ => ?_⟩
  simp only [weight, h.pc, hst]
  omega

lemma InData.line {line rest : List Byte} (hsize : m.firstFileText.length < 2 ^ 63)
    (htext : m.firstFileText.drop s.sctx.bOffset = line ++ rest) (hline : IsLine newline line)
    (hlen : line.length < binlogRecordSize) :
    Advances mounts m disk s (s.fullSyncData mounts (s.answer mounts disk)) := by
  have hahead := h.ahead
  rw [htext] at hahead
  obtain ⟨off, buff, hahead', hread⟩ :=
    @SyncCtx.Ahead.binlogRead_line m.binlog s.sctx (fun _ => binlogBufferSize) line rest hahead hline
      hlen mounts le_rfl
  rw [← h.copied.rbctx, lineResult] at hread
  cases hparse : binlogRecordParse mounts line with
  | ok brecord =>
    rw [hparse] at hread
    have hleft : Available mounts disk (line ++ rest) ↔
        disk brecord.fBlockMapName ≠ none ∧ Available mounts disk rest :=
      available_record hline hlen hparse
    have hanswer : s.answer mounts disk = if disk brecord.fBlockMapName = none then .refused else .ok :=
      answer_of_record h.pc (by rw [readFull, hread])
    rw [hanswer]
    by_cases hnone : disk brecord.fBlockMapName = none
    · have hmissing : ¬ Available mounts disk m.firstFileText := by
        rw [← h.position.left, htext, hleft]
        exact fun hboth => hboth.1 hnone
      rw [if_pos hnone, fullSyncData_refused hread]
      exact ⟨h.reconnect hmissing off buff, fun havailable => absurd havailable hmissing⟩
    · rw [if_neg hnone, fullSyncData_ok h.alive hread]
      exact h.countRecord hsize htext hline.ne_nil hahead' (hleft.trans (and_iff_right hnone)) _ _
  | error e =>
    rw [hparse] at hread
    by_cases he : e = .fileError
    · subst he
      refine h.ended ?_ (.inr ?_) _
      · rw [htext]
        exact available_fileError hline hlen hparse
      · rw [readFull, hread]
        rfl
    · rw [fullSyncData_skipped he hread]
      exact h.countRecord hsize htext hline.ne_nil hahead' (available_skipped hline hlen hparse he) _ _

lemma InData.advances (hsize : m.firstFileText.length < 2 ^ 63) :
    Advances mounts m disk s (s.fullSyncData mounts (s.answer mounts disk)) := by
  by_cases hno : NoLine (m.firstFileText.drop s.sctx.bOffset)
  · refine h.ended (available_of_noLine hno) ?_ _
    rw [h.copied.rbctx]
    exact (h.ahead.binlogRead_noLine mounts (m.received_fd _) hno).2
  · simp only [NoLine, not_forall, not_le] at hno
    obtain ⟨line, rest, htext, hline, hlen⟩ := hno
    exact h.line hsize htext hline hlen

end

lemma Stage.advances (h : Stage mounts m disk s) (hsize : m.firstFileText.length < 2 ^ 63)
    (hnot : ∀ st, s.pc ≠ .returned st) : Advances mounts m disk s (s.answered mounts m disk) := by
  cases h with
  | copy h =>
    rw [answered_of_ne h.pc_ne.1]
    exact h.advances
  | data h =>
    rw [answered_of_data h.pc]
    exact h.advances hsize
  | again hpc hsum h hmissing =>
    have hne : s.pc ≠ .data := by
      rintro hdata
      simp [hdata] at hpc
    rw [answered_of_ne hne]
    exact ⟨stage_again hpc hsum h hmissing, fun havailable => absurd havailable hmissing⟩
  | returned st hpc h => exact absurd hpc (hnot st)

lemma Stage.answered (h : Stage mounts m disk s) (hsize : m.firstFileText.length < 2 ^ 63) :
    Stage mounts m disk (s.answered mounts m disk) := by
  by_cases hnot : ∀ st, s.pc ≠ .returned st
  · exact (h.advances hsize hnot).stage
  · obtain ⟨st, hpc⟩ := not_forall_not.1 hnot
    have hstep : s.answered mounts m disk = s := by simp only [Slave.answered, Slave.step, hpc]
    rwa [hstep]

lemma Stage.available {st : FullSyncState} (h : Stage mounts m disk s) (hpc : s.pc = .returned st) :
    Available mounts disk m.firstFileText := by
  cases h with
  | returned _ _ h => exact h
  | copy h => exact absurd hpc (h.pc_ne.2 _)
  | data h => rw [h.pc] at hpc; exact nomatch hpc
  | again hpc' => simp [hpc] at hpc'

lemma stage_iterate (hsize : m.firstFileText.length < 2 ^ 63) (n : ℕ) :
    Stage mounts m disk ((Slave.answered mounts m disk)^[n] fresh) :=
  Reaches.inv ⟨n, rfl⟩ (fun _ h => h.answered hsize) (.copy (.connect rfl))

end Steps

/-- **When a full synchronisation returns.**  A slave that has no data yet synchronises from a master with
any binlogs and any data files; every connection succeeds and every request is answered.  Then
`full_sync_from_master` returns if and only if the master has every data file that is requested for the file
that its binlogs are copied to. -/
theorem fullSync_returns_iff (mounts : Mounts) (m : Master) (disk : List Byte → Option ℕ)
    (hsize : m.firstFileText.length < 2 ^ 63) :
    (∃ n st, ((Slave.answered mounts m disk)^[n] fresh).pc = .returned st) ↔
      Available mounts disk m.firstFileText := by
  constructor
  · rintro ⟨n, st, hpc⟩
    exact (stage_iterate hsize n).available hpc
  · intro havailable
    obtain ⟨t, ⟨n, rfl⟩, st, hpc⟩ := Reaches.of_measure (f := Slave.answered mounts m disk)
      (I := fun s => Stage mounts m disk s ∧ ∀ st, s.pc ≠ .returned st)
      (D := fun s => ∃ st, s.pc = .returned st) (s := fresh) (weight m)
      (by
        rintro s ⟨hstage, hnot⟩
        have hnext := hstage.advances hsize hnot
        by_cases hret : ∃ st, (s.answered mounts m disk).pc = .returned st
        · exact .inr hret
        · exact .inl ⟨⟨hnext.stage, not_exists.1 hret⟩, hnext.weight_lt havailable⟩)
      ⟨.copy (.connect rfl), fun st heq => nomatch heq⟩
    exact ⟨n, st, hpc⟩

/-- A master with the record of one data file in its local binlog, and that of another in its remote one. -/
def twoLineMaster : Master := ⟨[lineA.text], [lineB.text]⟩

lemma twoLineMaster_firstFileText : twoLineMaster.firstFileText = lineB.text ++ lineA.text := by
  have hpieces : pieces binlogCacheBufferSize lineA.text = [lineA.text] := by
    rw [pieces_of_ne_nil (by decide) (by decide)]
    show lineA.text :: pieces binlogCacheBufferSize [] = [lineA.text]
    rw [pieces_nil]
  have hlocals : twoLineMaster.localPieces twoLineMaster.locals.length = [lineA.text] := by
    show pieces binlogCacheBufferSize lineA.text ++ [] = [lineA.text]
    rw [hpieces, append_nil]
  rw [Master.firstFileText, hlocals]
  rfl

theorem fullSync_returns_twoLineMaster :
    Available [[47, 109]] (fun _ => some 1) twoLineMaster.firstFileText ∧
      ∃ n st, ((Slave.answered [[47, 109]] twoLineMaster fun _ => some 1)^[n] fresh).pc =
        .returned st := by
  have havailable : Available [[47, 109]] (fun _ => some 1) twoLineMaster.firstFileText := by
    rw [twoLineMaster_firstFileText]
    decide
  refine ⟨havailable, (fullSync_returns_iff [[47, 109]] twoLineMaster (fun _ => some 1) ?_).2 havailable⟩
  rw [twoLineMaster_firstFileText]
  decide

/-- The data file of the remote binlog is there, that of the local one is missing: every step is answered, and
the synchronisation never returns. -/
theorem fullSync_not_returns : ¬ ∃ n st, ((Slave.answered [[47, 109]] twoLineMaster fun name =>
      if name = lineB.record.fBlockMapName then some 1 else none)^[n] fresh).pc = .returned st := by
  rintro ⟨n, st, hpc⟩
  have hsize : twoLineMaster.firstFileText.length < 2 ^ 63 := by
    rw [twoLineMaster_firstFileText]
    decide
  have havailable := (stage_iterate hsize n).available hpc
  rw [twoLineMaster_firstFileText] at havailable
  exact absurd havailable (by decide)

end Lfs.FullSync
