/-
The handover from the full synchronisation to the asynchronous copy.

While the slave copies the master's binlog and fetches the files named in it, the master goes
on writing: records are in its cache, then in its file, and some of them come after the part
that the slave has copied.  The asynchronous reader of the master then starts behind the
records whose sequence is at most the one that the slave has reported.  A record that was
flushed after the copy and has such a sequence falls between the two.
-/
import Lfs.Binlog.Async
import Lfs.FullSync.Complete

namespace Lfs.FullSync

open Lfs.Binlog Lfs.Lib List BinlogCtx RecordMaster

structure Handover (mounts : Mounts) where
  bctx : BinlogCtx
  /-- Every record that was ever appended to it. -/
  lines : List (RecordLine mounts)
  remotes : List (List (RecordLine mounts))
  slave : Slave
  /-- `last_sync_sequence` of the slave, as the master has it from the tracker. -/
  lastSyncSequence : ℤ
  /-- The asynchronous reader of the master for the slave. -/
  reader : Option SyncCtx

/-- What can happen: an upload on the master, a flush of its binlog, a step of the full
synchronisation, the report of the slave, and the start of the asynchronous reader. -/
inductive HandoverOp (mounts : Mounts) where
  | upload (line : RecordLine mounts)
  | flush
  | fullSync
  | report
  | asyncStart

namespace Handover

variable {mounts : Mounts}

/-- A master with these records in its local binlog and a slave that has no data yet. -/
def start (flushed : List (RecordLine mounts)) (remotes : List (List (RecordLine mounts))) :
    Handover mounts where
  bctx := { BinlogCtx.fresh with
    binlogFileSize := (textOf flushed).length
    files := fun i => if i = 0 then textOf flushed else [] }
  lines := flushed
  remotes := remotes
  slave := .fresh
  lastSyncSequence := 0
  reader := none

/-- The binlog files that the master serves: what is in its cache is not served. -/
def master (h : Handover mounts) : Master where
  locals := (range (h.bctx.currBinlogFileIndex + 1)).map h.bctx.files
  remotes := h.remotes.map textOf

/-- One step.  The slave reports and sends heartbeats only after the full synchronisation
has finished, and only then does the master start its reader. -/
def step (h : Handover mounts) : HandoverOp mounts → Handover mounts
  | .upload line =>
    match h.bctx.binlogWrite .ok line.cstring with
    | some (_, bctx) => { h with bctx := bctx, lines := h.lines ++ [line] }
    | none => h
  | .flush => { h with bctx := (h.bctx.binlogFlush .ok).2 }
  | .fullSync => { h with slave := h.slave.step mounts h.master (.next .ok) }
  | .report =>
    if h.slave.pc = .returned .finish then
      { h with lastSyncSequence := h.slave.lastSyncSequence }
    else h
  | .asyncStart =>
    if h.slave.pc = .returned .finish ∧ h.reader = none then
      { h with reader := some (asyncctxInit h.lastSyncSequence h.bctx none) }
    else h

/-- The record `i` of the master's local binlog was copied by the full synchronisation, and
its data file was requested. -/
def Fetched (h : Handover mounts) (i : ℕ) : Prop :=
  (textOf (h.lines.take (i + 1))).length ≤ h.slave.appended.length ∧
    ∀ l ∈ h.lines[i]?, l.record.fBlockMapName ∈ h.slave.requested

/-- Every record was fetched or is at or after the position at which the reader started. -/
def NoGap (h : Handover mounts) : Prop :=
  ∀ r ∈ h.reader, ∀ i < h.lines.length,
    h.Fetched i ∨ r.bOffset ≤ (textOf (h.lines.take i)).length

def flushedRecords (h : Handover mounts) : List BinlogRecord :=
  (linesOf newline (h.bctx.files 0)).filterMap (recordOf mounts)

/-- The number of records of the master's local binlog that the slave has copied. -/
def copiedCount (h : Handover mounts) : ℕ := (linesOf newline h.slave.appended).length

/-- The condition for the start of the reader: no record has been flushed after the copy,
or one of the records up to the first such one has a greater sequence than was reported. -/
def HandedOver (h : Handover mounts) : Prop :=
  h.flushedRecords.length ≤ h.copiedCount ∨
    ∃ r ∈ h.flushedRecords.take (h.copiedCount + 1), h.lastSyncSequence < r.sequence

def Covered (h : Handover mounts) : HandoverOp mounts → Prop
  | .asyncStart => h.slave.pc = .returned .finish ∧ h.reader = none → h.HandedOver
  | _ => True

instance (h : Handover mounts) (i : ℕ) : Decidable (h.Fetched i) :=
  inferInstanceAs (Decidable (_ ∧ ∀ l ∈ _, _))

instance (h : Handover mounts) : Decidable h.NoGap :=
  inferInstanceAs (Decidable (∀ r ∈ _, ∀ i < _, _))

instance (h : Handover mounts) : Decidable h.HandedOver :=
  inferInstanceAs (Decidable (_ ∨ ∃ r ∈ _, _))

instance (h : Handover mounts) : (op : HandoverOp mounts) → Decidable (h.Covered op)
  | .asyncStart => inferInstanceAs (Decidable (_ → _))
  | .upload _ | .flush | .fullSync | .report => isTrue trivial

/-! ### The binlog of the master -/

/-- The master's local binlog with `d` records in its file and the rest of `lines` in the
cache. -/
structure Logs (c : BinlogCtx) (lines : List (RecordLine mounts)) (d : ℕ) : Prop where
  index : c.currBinlogFileIndex = 0
  fd : c.binlogFd = some 0
  size : c.binlogFileSize = (c.files 0).length
  size_lt : c.binlogFileSize < binlogMaxFileSize
  file : c.files 0 = textOf (lines.take d)
  cache : c.wcacheBuff = textOf (lines.drop d)

variable {c : BinlogCtx} {lines : List (RecordLine mounts)} {d i j k : ℕ}

lemma Logs.fd_eq (h : Logs c lines d) : c.binlogFd = some c.currBinlogFileIndex := by
  rw [h.index]
  exact h.fd

lemma Logs.file_curr (h : Logs c lines d) :
    c.files c.currBinlogFileIndex = textOf (lines.take d) := by
  rw [h.index]
  exact h.file

lemma Logs.flush (h : Logs c lines d) (hrot : (c.binlogFlush .ok).2.currBinlogFileIndex = 0) :
    Logs (c.binlogFlush .ok).2 lines lines.length ∧ (c.binlogFlush .ok).2.wcacheBuff = [] := by
  by_cases hnil : c.wcacheBuff = []
  · rw [binlogFlush_of_nil hnil]
    have hdrop : lines.drop d = [] := by
      rw [← textOf_eq_nil, ← h.cache, hnil]
    have htake : lines.take d = lines := take_of_length_le (drop_eq_nil_iff.1 hdrop)
    refine ⟨⟨h.index, h.fd, h.size, h.size_lt, ?_, ?_⟩, hnil⟩
    · rw [h.file, htake, take_length]
    · rw [hnil, drop_length, textOf_nil]
  · have hflushed := binlogFlush_of_complete hnil (complete_ok (by simp [h.fd]))
    obtain ⟨⟨-, hopen⟩, ⟨-, hfull⟩ | ⟨hlt, -, hsize⟩⟩ :=
      binlogFlush_ok_cases h.fd_eq hnil
    · exact absurd (hrot.symm.trans hfull) (by omega)
    have hfile : (c.binlogFlush .ok).2.files 0 = c.files 0 ++ c.wcacheBuff := by
      rw [hflushed.files, appendFd_some h.fd]
      simp only [Function.update_self]
    have hfd : (c.binlogFlush .ok).2.binlogFd = some 0 := by
      rw [hopen, hrot]
    refine ⟨⟨hrot, hfd, ?_, by omega, ?_, ?_⟩, hflushed.cache⟩
    · rw [hsize, hfile, length_append, h.size]
    · rw [hfile, h.file, h.cache, ← textOf_append, take_append_drop, take_length]
    · rw [hflushed.cache, drop_length, textOf_nil]

/-- A record is written: there is room for it in the cache, and a flush may follow. -/
lemma Logs.write (h : Logs c lines d) (hroom : c.wcacheBuff.length + 256 ≤ binlogCacheBufferSize)
    (hd : d ≤ lines.length) (line : RecordLine mounts) :
    ∃ c', c.binlogWrite .ok line.cstring = some (lfsOk, c') ∧
      (c'.currBinlogFileIndex = 0 → ∃ d', d ≤ d' ∧ d' ≤ (lines ++ [line]).length ∧
        Logs c' (lines ++ [line]) d' ∧ c'.wcacheBuff.length + 256 ≤ binlogCacheBufferSize) := by
  have hline := line.length_lt
  have hfits : c.wcacheBuff.length + line.text.length + 1 ≤ binlogCacheBufferSize := by
    simp only [binlogRecordSize] at hline
    omega
  -- the context with the record in its cache
  have happ : c.appendCache line.cstring = some (c.withCache (c.wcacheBuff ++ line.text)) :=
    if_pos hfits
  have hlogs : Logs (c.withCache (c.wcacheBuff ++ line.text)) (lines ++ [line]) d := by
    refine ⟨h.index, h.fd, h.size, h.size_lt, ?_, ?_⟩
    · rw [take_append_of_le_length hd]
      exact h.file
    · rw [drop_append_of_le_length hd, textOf_append, ← h.cache]
      simp
  by_cases hfull : binlogCacheBufferSize < c.wcacheBuff.length + line.text.length + 256
  · refine ⟨((c.withCache (c.wcacheBuff ++ line.text)).binlogFlush .ok).2, ?_, fun hrot => ?_⟩
    · simp [binlogWrite, binlogWriteLocked, happ, hfull]
    · obtain ⟨hlogs', hcache⟩ := hlogs.flush hrot
      refine ⟨_, ?_, le_rfl, hlogs', ?_⟩
      · rw [length_append]
        omega
      · rw [hcache]
        decide
  · refine ⟨c.withCache (c.wcacheBuff ++ line.text), ?_, fun _ => ⟨d, le_rfl, ?_, hlogs, ?_⟩⟩
    · simp [binlogWrite, binlogWriteLocked, happ, hfull]
    · rw [length_append]
      omega
    · rw [withCache_wcacheBuff, length_append]
      omega

/-! ### The slave -/

/-- The slave has not yet asked for the master's local binlog file. -/
def BeforeCopy (s : Slave) : Prop :=
  s.pc = .connect ∨ s.pc = .binlogs ∨ s.pc = .remoteFiles ∨
    (s.pc = .localFiles ∧ s.fmark.bCurrSyncIndex = 0)

variable {s : Slave} {a b : List (RecordLine mounts)} {remotes : List (List (RecordLine mounts))}

lemma clean_of_beforeCopy (h : Clean ⟨[a], remotes⟩ s) (hs : BeforeCopy s) :
    Clean ⟨[b], remotes⟩ s := by
  cases h with
  | copy h =>
    refine .copy ?_
    cases h with
    | connect h => exact .connect h
    | binlogs h => exact .binlogs h
    | remoteFiles j hpc hoff hj h =>
      exact .remoteFiles j hpc hoff hj ⟨h.alive, h.linked, h.fmark, h.markFile, h.rbctx, h.sctx,
        h.appended, h.requested⟩
    | localFiles k hpc hoff hk h =>
      have hzero : k = 0 := by
        simpa [BeforeCopy, hpc, h.fmark] using hs
      subst hzero
      exact .localFiles 0 hpc hoff (Nat.zero_le _) ⟨h.alive, h.linked, h.fmark, h.markFile, h.rbctx,
        h.sctx, h.appended, h.requested⟩
    | appendBinlog k done remain hpc => simp [BeforeCopy, hpc] at hs
  | data done rest tail hpc | finish hpc | error hpc => simp [BeforeCopy, hpc] at hs

lemma step_of_not_beforeCopy (h : Clean ⟨[a], remotes⟩ s) (hs : ¬ BeforeCopy s) (m m' : Master) :
    s.step mounts m (.next .ok) = s.step mounts m' (.next .ok) := by
  cases h with
  | copy h =>
    cases h with
    | connect h => simp [BeforeCopy, h, Slave.fresh] at hs
    | binlogs h => simp [BeforeCopy, h] at hs
    | remoteFiles j hpc => simp [BeforeCopy, hpc] at hs
    | localFiles k hpc hoff hk h =>
      have hne : k ≠ 0 := by
        simpa [BeforeCopy, hpc, h.fmark] using hs
      have hone : ¬ k < 1 := by omega
      simp [Slave.step, hpc, Slave.syncLocalBinlogData, h.fmark, toMaster, hone]
    | appendBinlog k done remain hpc => simp only [Slave.step, hpc]
  | data done rest tail hpc | finish hpc | error hpc => simp only [Slave.step, hpc]

lemma beforeRotation_of_lt {size : ℕ} {cs : List (List Byte)}
    (h : size + cs.flatten.length < binlogMaxFileSize) : beforeRotation size cs = cs.flatten := by
  induction cs generalizing size with
  | nil => rfl
  | cons b cs ih =>
    rw [flatten_cons, length_append] at h
    rw [beforeRotation, if_neg (by omega), ih (by omega), flatten_cons]

/-- A finished synchronisation has copied and requested every record of a file that is below
the limit. -/
lemma requested_of_finish (h : Clean ⟨[a], remotes⟩ s) (hpc : s.pc = .returned .finish)
    (hlen : (textOf a).length < binlogMaxFileSize) :
    s.appended = textOf a ∧ ∀ l ∈ a, l.record.fBlockMapName ∈ s.requested := by
  obtain ⟨happ, hreq⟩ := h.of_finish hpc
  set m : RecordMaster mounts := ⟨[a], remotes⟩ with hm
  have hpieces : (m.toMaster.localPieces m.toMaster.locals.length).flatten = textOf a := by
    rw [Master.localPieces_flatten, m.flatten_locals, hm]
    simp
  have hfile : m.toMaster.firstFileText = textOf ((remotes[0]?).getD [] ++ a) := by
    rw [Master.firstFileText, m.remoteFile_zero, beforeRotation_of_lt (by rw [hpieces]; omega), hpieces,
      textOf_append]
  refine ⟨by simpa [hm] using happ, fun l hl => ?_⟩
  rw [hreq, firstFileRecords, hfile, filterMap_recordOf_textOf]
  exact mem_map_of_mem (mem_map_of_mem (mem_append_right _ hl))

/-! ### The invariant -/

/-- The invariant: `d` records are in the file of the master, the slave copies or has copied
the first `k` of them, a reader has started within the file and only after the full
synchronisation, and there is no gap. -/
structure Inv (h : Handover mounts) (d k : ℕ) : Prop where
  logs : Logs h.bctx h.lines d
  room : h.bctx.wcacheBuff.length + 256 ≤ binlogCacheBufferSize
  le_length : d ≤ h.lines.length
  le_flushed : k ≤ d
  clean : Clean ⟨[h.lines.take k], h.remotes⟩ h.slave
  finished : ∀ r ∈ h.reader, h.slave.pc = .returned .finish ∧ r.bOffset ≤ (h.bctx.files 0).length
  noGap : h.NoGap

variable {h : Handover mounts}

lemma textOf_take_length_le (ls : List (RecordLine mounts)) (hij : i ≤ j) :
    (textOf (ls.take i)).length ≤ (textOf (ls.take j)).length := by
  obtain ⟨u, hu⟩ := take_prefix_take_left (l := ls) hij
  rw [← hu, textOf_append, length_append]
  omega

lemma textOf_take_length_le_iff {ls : List (RecordLine mounts)} (hi : i ≤ ls.length) :
    (textOf (ls.take i)).length ≤ (textOf (ls.take j)).length ↔ i ≤ j := by
  refine ⟨fun hle => ?_, textOf_take_length_le ls⟩
  by_contra hlt
  obtain ⟨u, hu⟩ := take_prefix_take_left (l := ls) (Nat.le_of_not_le hlt)
  have hne : u ≠ [] := by
    rintro rfl
    have := congrArg List.length hu
    simp only [append_nil, length_take] at this
    omega
  have hpos : 0 < (textOf u).length := by
    rw [length_pos_iff, ne_eq, textOf_eq_nil]
    exact hne
  rw [← hu, textOf_append, length_append] at hle
  omega

lemma length_takeWhile_le_iff {α : Type*} (p : α → Bool) (l : List α) (k : ℕ) :
    (l.takeWhile p).length ≤ k ↔ l.length ≤ k ∨ ∃ x ∈ l.take (k + 1), p x = false := by
  induction l generalizing k with
  | nil => simp
  | cons x l ih =>
    by_cases hx : p x = true
    · cases k with
      | zero => simp [hx]
      | succ k => simp [hx, ih]
    · simp [hx]

/-- A finished synchronisation has copied and requested the first `k` records. -/
lemma Inv.copied (hinv : Inv h d k) (hpc : h.slave.pc = .returned .finish) :
    h.slave.appended = textOf (h.lines.take k) ∧
      ∀ l ∈ h.lines.take k, l.record.fBlockMapName ∈ h.slave.requested := by
  refine requested_of_finish hinv.clean hpc ?_
  have hle := textOf_take_length_le h.lines hinv.le_flushed
  have hsize := hinv.logs.size_lt
  rw [hinv.logs.size, hinv.logs.file] at hsize
  omega

lemma Inv.fetched_iff (hinv : Inv h d k) (hpc : h.slave.pc = .returned .finish)
    (hi : i < h.lines.length) : h.Fetched i ↔ i < k := by
  obtain ⟨happ, hreq⟩ := hinv.copied hpc
  rw [Fetched, happ, textOf_take_length_le_iff hi]
  refine ⟨fun hf => hf.1, fun hik => ⟨hik, fun l hl => hreq l ?_⟩⟩
  rw [mem_take_iff_getElem]
  obtain ⟨hlt, rfl⟩ := List.getElem?_eq_some_iff.1 hl
  exact ⟨i, by omega, rfl⟩

lemma Inv.copiedCount (hinv : Inv h d k) (hpc : h.slave.pc = .returned .finish) :
    h.copiedCount = k := by
  have hk : k ≤ h.lines.length := hinv.le_flushed.trans hinv.le_length
  rw [Handover.copiedCount, (hinv.copied hpc).1, linesOf_textOf,
    length_map, length_take, min_eq_left hk]

lemma Inv.flushedRecords (hinv : Inv h d k) :
    h.flushedRecords = (h.lines.take d).map RecordLine.record := by
  rw [Handover.flushedRecords, hinv.logs.file, filterMap_recordOf_textOf]

/-- The start of the reader leaves no gap exactly when the condition holds. -/
lemma Inv.noGap_asyncStart_iff (hinv : Inv h d k)
    (hstart : h.slave.pc = .returned .finish ∧ h.reader = none) :
    (h.step .asyncStart).NoGap ↔ h.HandedOver := by
  have hpc := hstart.1
  -- the reader starts behind the first `n` records of the file
  obtain ⟨n, hn⟩ : ∃ n, n = ((h.lines.take d).takeWhile fun l =>
      l.record.sequence ≤ h.lastSyncSequence).length := ⟨_, rfl⟩
  have hnd : n ≤ h.lines.length := by
    have h₁ := ( takeWhile_prefix (l := h.lines.take d) fun l : RecordLine mounts =>
      decide (l.record.sequence ≤ h.lastSyncSequence)).length_le
    rw [length_take] at h₁
    omega
  have htake : (h.lines.take d).takeWhile (fun l => l.record.sequence ≤ h.lastSyncSequence)
      = h.lines.take n := by
    have hpre := ( takeWhile_prefix (l := h.lines.take d) fun l : RecordLine mounts =>
      decide (l.record.sequence ≤ h.lastSyncSequence)).trans ( take_prefix d h.lines)
    rw [hn]
    exact prefix_iff_eq_take.1 hpre
  have hoffset : (asyncctxInit h.lastSyncSequence h.bctx none).bOffset
      = (textOf (h.lines.take n)).length := by
    rw [asyncctxInit_bOffset hinv.logs.file_curr, htake]
  have hgap : (h.step .asyncStart).NoGap ↔ ∀ i < h.lines.length, i < k ∨ n ≤ i := by
    have hreader : (h.step .asyncStart).reader = some (asyncctxInit h.lastSyncSequence h.bctx none) := by
      rw [step, if_pos hstart]
    have hsame : ∀ i, (h.step .asyncStart).Fetched i ↔ h.Fetched i := by
      intro i
      rw [step, if_pos hstart]
      rfl
    have hlines : (h.step .asyncStart).lines = h.lines := by rw [step, if_pos hstart]
    simp only [NoGap, hreader, Option.mem_some_iff, forall_eq', hsame, hlines, hoffset,
      textOf_take_length_le_iff hnd]
    exact forall₂_congr fun i hi => or_congr_left (hinv.fetched_iff hpc hi)
  have hk : n ≤ k ↔ h.HandedOver := by
    rw [hn, length_takeWhile_le_iff, HandedOver, hinv.copiedCount hpc, hinv.flushedRecords,
      length_map, ← map_take]
    simp only [decide_eq_false_iff_not, not_le, mem_map, exists_exists_and_eq_and]
  rw [hgap, ← hk]
  constructor
  · intro hall
    by_contra hlt
    rcases hall k (by omega) with hkk | hnk
    · exact absurd hkk (lt_irrefl k)
    · exact hlt hnk
  · intro hnk i hi
    omega

/-! ### The steps -/

section

variable (hinv : Inv h d k)
include hinv

/-- Records that are appended later lie behind the start of the reader. -/
lemma Inv.noGap_of_append {h' : Handover mounts} {ls : List (RecordLine mounts)}
    (hlines : h'.lines = h.lines ++ ls) (hslave : h'.slave = h.slave)
    (hreader : h'.reader = h.reader) : h'.NoGap := by
  intro r hr i hi
  rw [hreader] at hr
  rw [Fetched, hslave, hlines]
  by_cases hlt : i < h.lines.length
  · -- up to an old record nothing has changed
    rw [take_append_of_le_length hlt, take_append_of_le_length hlt.le, getElem?_append_left hlt]
    exact hinv.noGap r hr i hlt
  · refine Or.inr ((hinv.finished r hr).2.trans ?_)
    have htake : h.lines <+: (h.lines ++ ls).take i :=
      prefix_take_iff.2 ⟨prefix_append _ _, Nat.le_of_not_lt hlt⟩
    obtain ⟨u, hu⟩ := htake
    rw [hinv.logs.file, ← hu, textOf_append, length_append]
    have hle := textOf_take_length_le h.lines hinv.le_length
    rw [take_length] at hle
    omega

lemma Inv.writes {c : BinlogCtx} {d' : ℕ} (ls : List (RecordLine mounts))
    (hlogs : Logs c (h.lines ++ ls) d')
    (hroom : c.wcacheBuff.length + 256 ≤ binlogCacheBufferSize) (hdd : d ≤ d')
    (hd' : d' ≤ (h.lines ++ ls).length) :
    Inv { h with bctx := c, lines := h.lines ++ ls } d' k := by
  have hk : k ≤ h.lines.length := hinv.le_flushed.trans hinv.le_length
  refine ⟨hlogs, hroom, hd', hinv.le_flushed.trans hdd, ?_, ?_, hinv.noGap_of_append rfl rfl rfl⟩
  · rw [take_append_of_le_length hk]
    exact hinv.clean
  · intro r hr
    obtain ⟨hpc, hle⟩ := hinv.finished r hr
    refine ⟨hpc, hle.trans ?_⟩
    show (h.bctx.files 0).length ≤ (c.files 0).length
    have hle := textOf_take_length_le (h.lines ++ ls) hdd
    rw [take_append_of_le_length hinv.le_length] at hle
    rwa [hlogs.file, hinv.logs.file]

lemma Inv.step_upload (line : RecordLine mounts)
    (hrot : (h.step (.upload line)).bctx.currBinlogFileIndex = 0) :
    ∃ d' k', Inv (h.step (.upload line)) d' k' := by
  obtain ⟨c, hwrite, hlogs⟩ := hinv.logs.write hinv.room hinv.le_length line
  have hstep : h.step (.upload line) = { h with bctx := c, lines := h.lines ++ [line] } := by
    rw [step, hwrite]
  rw [hstep] at hrot ⊢
  obtain ⟨d', hdd, hd', hlogs', hroom⟩ := hlogs hrot
  exact ⟨d', k, hinv.writes [line] hlogs' hroom hdd hd'⟩

lemma Inv.step_flush (hrot : (h.step .flush).bctx.currBinlogFileIndex = 0) :
    ∃ d' k', Inv (h.step .flush) d' k' := by
  obtain ⟨hlogs, hcache⟩ := hinv.logs.flush hrot
  have hroom : (h.bctx.binlogFlush .ok).2.wcacheBuff.length + 256 ≤ binlogCacheBufferSize := by
    rw [hcache]
    decide
  have hinv' := hinv.writes [] (by rwa [append_nil]) hroom hinv.le_length (by simp)
  simp only [append_nil] at hinv'
  exact ⟨_, k, hinv'⟩

/-- A step of the full synchronisation: the part that is copied is fixed when the file is
requested. -/
lemma Inv.step_fullSync : ∃ d' k', Inv (h.step .fullSync) d' k' := by
  have hfinished : ∀ r ∈ h.reader, h.slave.step mounts h.master (.next .ok) = h.slave := by
    intro r hr
    simp only [Slave.step, (hinv.finished r hr).1]
  -- the rest of the invariant does not depend on the part
  have hrest : ∀ k', k' ≤ d → Clean ⟨[h.lines.take k'], h.remotes⟩
      (h.slave.step mounts h.master (.next .ok)) → Inv (h.step .fullSync) d k' := by
    intro k' hk' hclean
    refine ⟨hinv.logs, hinv.room, hinv.le_length, hk', hclean, ?_, ?_⟩
    · intro r hr
      simpa only [step, hfinished r hr] using hinv.finished r hr
    · intro r hr
      have hnogap := hinv.noGap r hr
      simpa only [step, Fetched, hfinished r hr] using hnogap
  by_cases hbefore : BeforeCopy h.slave
  · have hmaster : h.master = toMaster ⟨[h.lines.take d], h.remotes⟩ := by
      simp [master, toMaster, hinv.logs.index, hinv.logs.file]
    refine ⟨d, d, hrest d le_rfl ?_⟩
    rw [hmaster]
    exact (clean_of_beforeCopy hinv.clean hbefore).step
  · refine ⟨d, k, hrest k hinv.le_flushed ?_⟩
    rw [step_of_not_beforeCopy hinv.clean hbefore h.master
      (toMaster ⟨[h.lines.take k], h.remotes⟩)]
    exact hinv.clean.step

lemma Inv.step_report : ∃ d' k', Inv (h.step .report) d' k' := by
  refine ⟨d, k, ?_⟩
  rw [step]
  split_ifs
  · exact ⟨hinv.logs, hinv.room, hinv.le_length, hinv.le_flushed, hinv.clean, hinv.finished,
      hinv.noGap⟩
  · exact hinv

lemma Inv.step_asyncStart (hnogap : (h.step .asyncStart).NoGap) :
    ∃ d' k', Inv (h.step .asyncStart) d' k' := by
  refine ⟨d, k, ?_⟩
  by_cases hstart : h.slave.pc = .returned .finish ∧ h.reader = none
  · have hstep : h.step .asyncStart
        = { h with reader := some (asyncctxInit h.lastSyncSequence h.bctx none) } := by
      rw [step, if_pos hstart]
    rw [hstep] at hnogap ⊢
    refine ⟨hinv.logs, hinv.room, hinv.le_length, hinv.le_flushed, hinv.clean, ?_, hnogap⟩
    intro r hr
    obtain rfl := Option.some.inj hr
    refine ⟨hstart.1, ?_⟩
    obtain ⟨u, hu⟩ := takeWhile_prefix (l := h.lines.take d) fun l : RecordLine mounts =>
      decide (l.record.sequence ≤ h.lastSyncSequence)
    have hlen := congrArg (fun ls => (textOf ls).length) hu
    simp only [textOf_append, length_append] at hlen
    show (asyncctxInit h.lastSyncSequence h.bctx none).bOffset ≤ (h.bctx.files 0).length
    rw [asyncctxInit_bOffset hinv.logs.file_curr, hinv.logs.file]
    omega
  · rw [step, if_neg hstart]
    exact hinv

lemma Inv.covered_iff {op : HandoverOp mounts}
    (hrot : (h.step op).bctx.currBinlogFileIndex = 0) : h.Covered op ↔ (h.step op).NoGap := by
  cases op with
  | upload line =>
    obtain ⟨d', k', hinv'⟩ := hinv.step_upload line hrot
    exact ⟨fun _ => hinv'.noGap, fun _ => trivial⟩
  | flush =>
    obtain ⟨d', k', hinv'⟩ := hinv.step_flush hrot
    exact ⟨fun _ => hinv'.noGap, fun _ => trivial⟩
  | fullSync =>
    obtain ⟨d', k', hinv'⟩ := hinv.step_fullSync
    exact ⟨fun _ => hinv'.noGap, fun _ => trivial⟩
  | report =>
    obtain ⟨d', k', hinv'⟩ := hinv.step_report
    exact ⟨fun _ => hinv'.noGap, fun _ => trivial⟩
  | asyncStart =>
    by_cases hstart : h.slave.pc = .returned .finish ∧ h.reader = none
    · rw [hinv.noGap_asyncStart_iff hstart]
      exact ⟨fun hcov => hcov hstart, fun hhand _ => hhand⟩
    · rw [step, if_neg hstart]
      exact ⟨fun _ => hinv.noGap, fun _ hs => absurd hs hstart⟩

lemma Inv.step {op : HandoverOp mounts}
    (hrot : (h.step op).bctx.currBinlogFileIndex = 0) (hop : h.Covered op) :
    ∃ d' k', Inv (h.step op) d' k' := by
  cases op with
  | upload line => exact hinv.step_upload line hrot
  | flush => exact hinv.step_flush hrot
  | fullSync => exact hinv.step_fullSync
  | report => exact hinv.step_report
  | asyncStart => exact hinv.step_asyncStart ((hinv.covered_iff hrot).1 hop)

end

lemma inv_start {flushed : List (RecordLine mounts)} (remotes : List (List (RecordLine mounts)))
    (hsize : (textOf flushed).length < binlogMaxFileSize) :
    Inv (start flushed remotes) flushed.length 0 where
  logs := by
    refine ⟨rfl, rfl, by simp [start], hsize, ?_, ?_⟩
    · simp [start]
    · simp [start, fresh]
  room := Nat.le_of_ble_eq_true rfl
  le_length := le_rfl
  le_flushed := Nat.zero_le _
  clean := .copy (.connect rfl)
  finished := by simp [start]
  noGap := by simp [NoGap, start]

end Handover

/-- **The handover from the full synchronisation to the asynchronous copy.**  In every run
in which the master does not go on to a second binlog file, at every start of the
asynchronous reader no record has been flushed after the copy or one of the records up to
the first such one has a greater sequence than the slave has reported, if and only if at
every point every record of the master's local binlog was fetched by the full
synchronisation or is at or after the position at which the reader started. -/
theorem handover_noGap_iff {mounts : Mounts} (flushed : List (RecordLine mounts))
    (remotes : List (List (RecordLine mounts))) (ops : List (HandoverOp mounts))
    (hsize : (textOf flushed).length < binlogMaxFileSize)
    (hrot : Along Handover.step (fun _ _ h' => h'.bctx.currBinlogFileIndex = 0)
      (Handover.start flushed remotes) ops) :
    Along Handover.step (fun h op _ => h.Covered op) (Handover.start flushed remotes) ops ↔
      Along Handover.step (fun _ _ h' => h'.NoGap) (Handover.start flushed remotes) ops := by
  refine Along.iff_of_inv (I := fun h => ∃ d k, h.Inv d k) ?_ hrot ?_ ?_
  · exact ⟨_, _, Handover.inv_start remotes hsize⟩
  · rintro h op ⟨d, k, hinv⟩ hr
    exact hinv.covered_iff hr
  · rintro h op ⟨d, k, hinv⟩ hr hop
    exact hinv.step hr hop

/-- An upload that is flushed before the slave copies the binlog. -/
def uploadBeforeCopy : List (HandoverOp [[47, 109]]) :=
  [.upload lineB, .flush] ++ replicate 11 .fullSync ++ [.report, .asyncStart]

theorem handover_noGap_uploadBeforeCopy :
    Along Handover.step (fun _ _ h' => h'.NoGap) (Handover.start [lineA] [[]]) uploadBeforeCopy ∧
      (run Handover.step (Handover.start [lineA] [[]]) uploadBeforeCopy).reader ≠ none :=
  ⟨(handover_noGap_iff [lineA] [[]] uploadBeforeCopy (by decide) (by decide)).1 (by decide),
    by decide⟩

/-- An upload of the same second as the last record, which is still in the cache when the
slave copies the binlog. -/
def flushAfterCopy : List (HandoverOp [[47, 109]]) :=
  .upload lineC :: replicate 10 .fullSync ++ [.flush, .report, .asyncStart]

/-- The slave has not fetched the record, and the reader starts behind it. -/
theorem flushAfterCopy_gap : Along Handover.step (fun _ _ h' => h'.bctx.currBinlogFileIndex = 0)
        (Handover.start [lineA] [[]]) flushAfterCopy ∧
      ¬ Along Handover.step (fun _ _ h' => h'.NoGap) (Handover.start [lineA] [[]])
        flushAfterCopy := by
  decide

end Lfs.FullSync
