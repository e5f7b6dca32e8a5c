/-
What a full synchronisation without failures requests.

The remote files of the master are copied under their own indices, while `rbctx` stays at
its first file, to which the bytes of the local files are appended until its size, counted
from zero, reaches the limit.  The data phase then reads the first file only, because
`binlog_read` never opens another one.
-/
import Lfs.FullSync.Received

namespace Lfs.FullSync

open Lfs.Binlog Lfs.Lib List Master Slave

/-- A master all of whose binlog files are made of well-formed records. -/
structure RecordMaster (mounts : Mounts) where
  locals : List (List (RecordLine mounts))
  remotes : List (List (RecordLine mounts))

namespace RecordMaster

variable {mounts : Mounts}

def toMaster (m : RecordMaster mounts) : Master := ⟨m.locals.map textOf, m.remotes.map textOf⟩

def records (m : RecordMaster mounts) : List BinlogRecord :=
  (m.locals.flatten ++ m.remotes.flatten).map RecordLine.record

/-- The records of the first file of the slave's remote binlog after the copy. -/
def firstFileRecords (m : RecordMaster mounts) : List BinlogRecord :=
  (linesOf newline m.toMaster.firstFileText).filterMap (recordOf mounts)

/-- The data file of every record has been requested. -/
def Requested (m : RecordMaster mounts) (s : Slave) : Prop :=
  ∀ r ∈ m.records, r.fBlockMapName ∈ s.requested

/-- The data file of every record is named in the first file. -/
def NamedInFirstFile (m : RecordMaster mounts) : Prop :=
  ∀ r ∈ m.records, r.fBlockMapName ∈ m.firstFileRecords.map BinlogRecord.fBlockMapName

instance (m : RecordMaster mounts) (s : Slave) : Decidable (m.Requested s) :=
  inferInstanceAs (Decidable (∀ r ∈ _, _))

lemma flatten_locals (m : RecordMaster mounts) : m.toMaster.locals.flatten = textOf m.locals.flatten := by
  show (m.locals.map textOf).flatten = _
  induction m.locals with
  | nil => rfl
  | cons ls lss ih => rw [map_cons, flatten_cons, flatten_cons, textOf_append, ih]

lemma remoteFile_zero (m : RecordMaster mounts) :
    m.toMaster.remoteFile 0 = textOf ((m.remotes[0]?).getD []) := by
  rw [remoteFile, toMaster, getElem?_map]
  cases m.remotes[0]? <;> rfl

lemma firstFileText_eq (m : RecordMaster mounts) :
    ∃ (ls : List (RecordLine mounts)) (t : List Byte), m.toMaster.firstFileText = textOf ls ++ t ∧
      newline ∉ t ∧ t.length < binlogRecordSize := by
  obtain ⟨u, hu⟩ := beforeRotation_prefix 0 (m.toMaster.localPieces m.toMaster.locals.length)
  rw [localPieces_flatten, flatten_locals] at hu
  have htext : textOf ((m.remotes[0]?).getD [] ++ m.locals.flatten) =
      m.toMaster.firstFileText ++ u := by
    rw [firstFileText, textOf_append, append_assoc, hu, remoteFile_zero]
  obtain ⟨ls, -, t, -, hd, ht, hlen⟩ := exists_records_of_append htext
  exact ⟨ls, t, hd, ht, hlen⟩

end RecordMaster

/-- The states of a full synchronisation without failures. -/
inductive Clean {mounts : Mounts} (m : RecordMaster mounts) (s : Slave) : Prop
  | copy (h : InCopy m.toMaster s)
  | data (done rest : List (RecordLine mounts)) (tail : List Byte) (hpc : s.pc = .data)
      (halive : s.alive = true)
      (hctx : s.rbctx = m.toMaster.binlog) (hindex : s.sctx.bIndex = 0)
      (hreads : SyncCtx.Reads s.rbctx s.sctx 0 done rest tail)
      (happ : s.appended = textOf m.locals.flatten)
      (hreq : s.requested = done.map fun l => l.record.fBlockMapName)
  | finish (hpc : s.pc = .returned .finish) (happ : s.appended = textOf m.locals.flatten)
      (hreq : s.requested = m.firstFileRecords.map BinlogRecord.fBlockMapName)
  | error (hpc : s.pc = .returned .error)

namespace Clean

variable {mounts : Mounts} {m : RecordMaster mounts} {s : Slave}

lemma step_copied (h : Copying m.toMaster s m.toMaster.locals.length m.toMaster.remotes.length
      m.toMaster.binlog m.toMaster.locals.flatten) :
    Clean m (s.syncLocalBinlogData m.toMaster .ok) := by
  have happ : s.appended = textOf m.locals.flatten := by rw [h.appended, m.flatten_locals]
  unfold syncLocalBinlogData
  rw [h.fmark]
  dsimp only
  rw [if_neg (lt_irrefl _)]
  split_ifs with hsum
  · obtain ⟨ls, t, htext, ht, hlen⟩ := m.firstFileText_eq
    have hfile : s.rbctx.files 0 = textOf ([] ++ ls) ++ t := by
      rw [h.rbctx, m.toMaster.binlog_files_zero, htext]
      rfl
    have hreads : SyncCtx.Reads s.rbctx s.fullsyncctxInit 0 [] ls t := by
      rw [fullsyncctxInit, h.sctx]
      exact ⟨rfl, rfl, hfile, hfile.symm, Nat.zero_le _, ht, hlen⟩
    refine .data [] ls t rfl h.alive h.rbctx ?_ hreads happ h.requested
    show s.fullsyncctxInit.bIndex = 0
    rw [fullsyncctxInit, h.sctx]
    rfl
  · -- there are no files at all
    have hl : m.toMaster.locals = [] := length_eq_zero_iff.1 (by omega)
    have hr : m.toMaster.remotes = [] := length_eq_zero_iff.1 (by omega)
    refine .finish rfl happ ?_
    simp [h.requested, RecordMaster.firstFileRecords, firstFileText_eq_nil hl hr, linesOf]

lemma fullSyncData_nodata {r : SyncCtx} {c : BinlogCtx} {o : Outcome}
    (h : binlogRead mounts readFull s.rbctx s.sctx = ⟨some .nodata, none, 0, c, r⟩) :
    (s.fullSyncData mounts o).pc = .returned .finish ∧
      (s.fullSyncData mounts o).appended = s.appended ∧
      (s.fullSyncData mounts o).requested = s.requested := by
  obtain ⟨sctx, heq⟩ := endData_eq { s with rbctx := c, sctx := r }
  unfold fullSyncData
  simp only [h, heq, and_self]

/-- The end of the data phase: everything in the first file has been requested. -/
lemma step_data_end {done : List (RecordLine mounts)} {tail : List Byte}
    (hctx : s.rbctx = m.toMaster.binlog) (hindex : s.sctx.bIndex = 0)
    (hreads : SyncCtx.Reads s.rbctx s.sctx 0 done [] tail)
    (happ : s.appended = textOf m.locals.flatten)
    (hreq : s.requested = done.map fun l => l.record.fBlockMapName) :
    Clean m (s.fullSyncData mounts .ok) := by
  have hfd : s.rbctx.binlogFd = some s.rbctx.currBinlogFileIndex := by
    rw [hctx]
    exact m.toMaster.received_fd _
  have hall : s.requested = m.firstFileRecords.map BinlogRecord.fBlockMapName := by
    rw [RecordMaster.firstFileRecords, ← m.toMaster.binlog_files_zero, ← hctx, hreads.file,
      append_nil, filterMap_recordOf_textOf_append hreads.tail_line, hreq, List.map_map]
    rfl
  have hnl : newline ∉ s.sctx.bBuff.data ++ s.sctx.unread s.rbctx := by
    rw [← hreads.text]
    exact hreads.tail_line
  by_cases hcut : s.sctx.unread s.rbctx = [] →
      s.sctx.bIndex = s.rbctx.currBinlogFileIndex ∨ tail = []
  · have hchunk : newline ∉ s.sctx.bBuff.data ++ s.sctx.chunk binlogBufferSize s.rbctx := by
      intro hmem
      refine hnl (mem_append.2 ((mem_append.1 hmem).imp_right ?_))
      exact fun hc => mem_of_mem_take hc
    obtain ⟨r, hread, -, -⟩ :=
      hreads.binlogRead_noRecord (fun _ => binlogBufferSize) hchunk hfd (by omega) hcut
    obtain ⟨hpc, happended, hrequested⟩ := fullSyncData_nodata hread
    exact .finish hpc (happended.trans happ) (hrequested.trans hall)
  · -- the rotation cut the last line
    obtain ⟨hend, hcut⟩ := Classical.not_imp.1 hcut
    obtain ⟨hlt, htail⟩ := not_or.1 hcut
    have hbuff : newline ∉ s.sctx.bBuff.data := fun hmem => hnl (mem_append_left _ hmem)
    have hstate : (binlogRead mounts readFull s.rbctx s.sctx).state = some .error :=
      hreads.binlogRead_end_error hbuff hend (by omega) htail
    refine .error ?_
    unfold fullSyncData
    simp only [hstate]

lemma step_data {done rest : List (RecordLine mounts)} {tail : List Byte} (hpc : s.pc = .data)
    (halive : s.alive = true) (hctx : s.rbctx = m.toMaster.binlog)
    (hindex : s.sctx.bIndex = 0) (hreads : SyncCtx.Reads s.rbctx s.sctx 0 done rest tail)
    (happ : s.appended = textOf m.locals.flatten)
    (hreq : s.requested = done.map fun l => l.record.fBlockMapName) :
    Clean m (s.fullSyncData mounts .ok) := by
  rcases eq_or_ne rest [] with rfl | hrest
  · exact step_data_end hctx hindex hreads happ hreq
  · have hnl := hreads.newline_mem hrest (le_refl binlogBufferSize)
    obtain ⟨l, rest', r, -, hread, hr, hi⟩ := hreads.binlogRead_ok (fun _ => binlogBufferSize) hnl
    rw [fullSyncData_ok halive hread]
    obtain ⟨sctx, hstep, hfd, hoff, hbuff, hindex'⟩ := countRecord_eq l.text.length { s with
      sctx := r
      requested := s.requested ++ [l.record.fBlockMapName]
      lastSyncSequence := max s.lastSyncSequence l.record.sequence }
    rw [hstep]
    refine .data (done ++ [l]) rest' tail hpc halive hctx ?_ ?_ happ ?_
    · exact hindex'.trans (hi.trans hindex)
    · exact hr.congr hfd hoff (by rw [hbuff]; exact hr.flag) (by rw [hbuff])
    · simp [hreq]

lemma step (h : Clean m s) : Clean m (s.step mounts m.toMaster (.next .ok)) := by
  cases h with
  | copy h =>
    rcases h.copies_or_copied with h | ⟨hpc, h⟩
    · exact .copy h.next
    · simpa only [Slave.step, hpc] using step_copied h
  | data done rest tail hpc halive hctx hindex hreads happ hreq =>
    simpa only [Slave.step, hpc] using step_data hpc halive hctx hindex hreads happ hreq
  | finish hpc happ hreq =>
    have hstep : s.step mounts m.toMaster (.next .ok) = s := by simp only [Slave.step, hpc]
    rw [hstep]
    exact .finish hpc happ hreq
  | error hpc =>
    have hstep : s.step mounts m.toMaster (.next .ok) = s := by simp only [Slave.step, hpc]
    rw [hstep]
    exact .error hpc

lemma run_ok (n : ℕ) :
    Clean m (run (Slave.step mounts m.toMaster) fresh (replicate n (.next .ok))) := by
  have hall : Along (Slave.step mounts m.toMaster) (fun _ op _ => op = .next .ok) fresh
      (replicate n (.next .ok)) := by
    generalize fresh = s
    induction n generalizing s with
    | zero => trivial
    | succ n ih => exact ⟨rfl, ih _⟩
  refine Along.inv (.copy (.connect rfl)) hall ?_
  rintro s op hs rfl
  exact hs.step

lemma of_finish (h : Clean m s) (hpc : s.pc = .returned .finish) :
    s.appended = textOf m.locals.flatten ∧
      s.requested = m.firstFileRecords.map BinlogRecord.fBlockMapName := by
  cases h with
  | finish _ happ hreq => exact ⟨happ, hreq⟩
  | copy h => exact absurd hpc (h.pc_ne.2 _)
  | data done rest tail hpc' | error hpc' => rw [hpc'] at hpc; simp at hpc

end Clean

/-- **What a full synchronisation requests.**  When a full synchronisation of a fresh slave
in which every operation succeeds returns `F_SYNC_FINISH`, the data file of every record of
the master's local and remote binlogs has been requested if and only if each is named in the
part of them that is copied to the slave's first file. -/
theorem fullSync_complete_iff {mounts : Mounts} (m : RecordMaster mounts) (n : ℕ)
    (hfinish : (run (Slave.step mounts m.toMaster) fresh
      (replicate n (.next .ok))).pc = .returned .finish) :
    m.Requested (run (Slave.step mounts m.toMaster) fresh (replicate n (.next .ok))) ↔
      m.NamedInFirstFile := by
  have hreq := ((Clean.run_ok (m := m) n).of_finish hfinish).2
  rw [RecordMaster.Requested, RecordMaster.NamedInFirstFile, hreq]

/-- A master with one remote file and one local one. -/
def oneRemoteMaster : RecordMaster [[47, 109]] := ⟨[[lineA]], [[lineB]]⟩

theorem fullSync_complete_oneRemoteMaster :
    oneRemoteMaster.Requested (run (Slave.step [[47, 109]] oneRemoteMaster.toMaster) fresh
        (replicate 11 (.next .ok))) ∧
      oneRemoteMaster.NamedInFirstFile := by
  have hreq : oneRemoteMaster.Requested (run (Slave.step [[47, 109]] oneRemoteMaster.toMaster)
      fresh (replicate 11 (.next .ok))) := by decide
  exact ⟨hreq, (fullSync_complete_iff oneRemoteMaster 11 (by decide)).1 hreq⟩

def twoRemotesMaster : RecordMaster [[47, 109]] := ⟨[[lineA]], [[lineA], [lineB]]⟩

/-- The data file of the second remote file is never requested. -/
theorem twoRemotesMaster_not_requested :
    (run (Slave.step [[47, 109]] twoRemotesMaster.toMaster) fresh
        (replicate 12 (.next .ok))).pc = .returned .finish ∧
      ¬ twoRemotesMaster.Requested (run (Slave.step [[47, 109]] twoRemotesMaster.toMaster)
        fresh (replicate 12 (.next .ok))) := by
  decide

end Lfs.FullSync
