/-
The copy of the master's local binlogs under failures.

What is wanted is that once `b_curr_sync_index` has reached `b_file_count` the files of the
remote binlog hold, behind the remote files of the master, the bytes of the master's local
files, each once.  Three things break it: a receive that fails in the middle of a file, because
the loop then returns `F_SYNC_OK`; a restart after a part of a file has been appended, because
`b_offset` is not in the mark file; and appending through a descriptor whose file
`client_recvfile` has removed.
-/
import Lfs.Base.Text
import Lfs.Binlog.ReaderSpec
import Lfs.FullSync.Machine

namespace Lfs.FullSync

open Lfs.Binlog Lfs.Lib List Option Function BinlogCtx

/-- The remote file `i` of the master. -/
def Master.remoteFile (m : Master) (i : ℕ) : List Byte := (m.remotes[i]?).getD []

namespace Slave

/-- What the files of the remote binlog hold behind the remote files of the master. -/
def behindRemotes (m : Master) (s : Slave) : List Byte :=
  BinlogCtx.binlogText { s.rbctx with
    files := fun i => (s.rbctx.files i).drop (m.remoteFile i).length }

/-- Once all local files have been copied, they are what stands in the files of the remote binlog behind the
remote files of the master. -/
def Exact (m : Master) (s : Slave) : Prop :=
  s.fmark.bFileCount ≠ 0 → s.fmark.bCurrSyncIndex = s.fmark.bFileCount →
    (∀ i < s.rbctx.currBinlogFileIndex + 1, m.remoteFile i <+: s.rbctx.files i) ∧
      s.behindRemotes m = m.locals.flatten

instance (m : Master) (s : Slave) : Decidable (Exact m s) :=
  inferInstanceAs (Decidable (_ → _ → _))

/-- No bytes are lost by a step at `pc`: in the loop that appends, the bytes are received and
written to a file that is in the directory. -/
def LosslessAt (s : Slave) (o : Outcome) : Pc → Prop
  | .appendBinlog remain => remain = [] ∨ (o = .ok ∧ s.alive = true ∧ s.linked = true)
  | _ => True

/-- The condition on a step: it loses no bytes of a local file, and the process is restarted
only while nothing of the current local file has been appended and the index of the file that is
open is an `int`. -/
def Lossless (s : Slave) : SyncOp → Prop
  | .restart _ => s.bOffset = 0 ∧ s.rbctx.currBinlogFileIndex < 2 ^ 31
  | .next o => s.LosslessAt o s.pc

instance (s : Slave) (o : Outcome) : (pc : Pc) → Decidable (s.LosslessAt o pc)
  | .appendBinlog _ => inferInstanceAs (Decidable (_ ∨ _ ∧ _ ∧ _))
  | .connect | .binlogs | .remoteFiles | .localFiles | .data | .returned _ => isTrue trivial

instance (s : Slave) : (op : SyncOp) → Decidable (Lossless s op)
  | .restart _ => inferInstanceAs (Decidable (_ ∧ _))
  | .next o => inferInstanceAs (Decidable (s.LosslessAt o s.pc))

/-! ### The invariant -/

/-- The local file `i` of the master. -/
def localFile (m : Master) (i : ℕ) : List Byte := (m.locals[i]?).getD []

/-- The number of local files that the mark file has as copied. -/
def markedIndex (s : Slave) : ℕ := (s.markFile.map FullSyncMark.bCurrSyncIndex).getD 0

/-- The number of remote files that the mark file has as copied. -/
def markedRemote (s : Slave) : ℕ := (s.markFile.map FullSyncMark.rbCurrSyncIndex).getD 0

/-- The directory holds the remote files that the mark file has as copied, and behind them what was
appended, cut where the next file was opened. -/
def OnDisk (m : Master) (s : Slave) : Prop :=
  ∃ segs : ℕ → List Byte,
    (∀ i, s.rbctx.files i = (if i < s.markedRemote then m.remoteFile i else []) ++ segs i) ∧
      BinlogCtx.Writes { s.rbctx with files := segs } s.appended

/-- The invariant: the mark in memory is the one in the file or has not been loaded, what
was appended are the files that the mark file has as copied and the first `b_offset` bytes
of the next one, and there are no such bytes outside of the loop that appends them.  No local file
is appended before all remote ones have been copied. -/
structure Inv (m : Master) (s : Slave) : Prop where
  fd : s.rbctx.binlogFd = some s.rbctx.currBinlogFileIndex
  cache : s.rbctx.wcacheBuff = []
  index : s.rbctx.indexFile = some (decimal s.rbctx.currBinlogFileIndex)
  count : ∀ f ∈ s.markFile, f.bFileCount = m.locals.length ∧ f.rbFileCount = m.remotes.length
  mark : s.fmark = ⟨0, 0, 0, 0⟩ ∨ s.markFile = some s.fmark
  appended : s.appended = (m.locals.take s.markedIndex).flatten ++
    (localFile m s.markedIndex).take s.bOffset
  offset : (∀ remain, s.pc ≠ .appendBinlog remain) → s.bOffset = 0
  loaded : s.pc ≠ .connect ∧ s.pc ≠ .binlogs ∧ (∀ st, s.pc ≠ .returned st) →
    s.markFile = some s.fmark
  remain : ∀ remain, s.pc = .appendBinlog remain →
    remain = (localFile m s.fmark.bCurrSyncIndex).drop s.bOffset
  ready : s.markedIndex ≠ 0 ∨ s.pc = .localFiles ∨ (∃ remain, s.pc = .appendBinlog remain) →
    m.remotes.length ≤ s.markedRemote
  disk : s.OnDisk m

variable {m : Master} {s : Slave} {mounts : Mounts} {o : Outcome}

lemma onDisk_of_nil (hfd : s.rbctx.binlogFd = some s.rbctx.currBinlogFileIndex)
    (hcache : s.rbctx.wcacheBuff = []) (happ : s.appended = [])
    (hfiles : ∀ i, s.rbctx.files i = if i < s.markedRemote then m.remoteFile i else []) :
    s.OnDisk m := by
  refine ⟨fun _ => [], fun i => by rw [append_nil, hfiles i], ?_, fun _ _ => rfl, ?_⟩
  · simp [hfd]
  · simp [binlogText, hcache, happ]

/-- As long as nothing has been appended there are only the remote files. -/
lemma OnDisk.files_eq (h : s.OnDisk m) (happ : s.appended = []) (i : ℕ) :
    s.rbctx.files i = if i < s.markedRemote then m.remoteFile i else [] := by
  obtain ⟨segs, hfiles, hwrites⟩ := h
  have htext := (append_eq_nil_iff.1 (hwrites.text_eq.trans happ)).1
  have hseg : segs i = [] := by
    rcases lt_or_ge s.rbctx.currBinlogFileIndex i with hlt | hle
    · exact hwrites.beyond i hlt
    · exact flatten_eq_nil_iff.1 htext _
        (List.mem_map_of_mem (mem_range.2 (Nat.lt_succ_of_le hle)))
  rw [hfiles i, hseg, append_nil]

lemma inv_fresh (m : Master) : Inv m fresh where
  fd := rfl
  cache := rfl
  index := rfl
  count := by simp [fresh]
  mark := Or.inl rfl
  appended := by simp [fresh, markedIndex]
  offset := fun _ => rfl
  loaded := fun h => absurd rfl h.1
  remain := by simp [fresh]
  ready := by simp [fresh, markedIndex]
  disk := onDisk_of_nil rfl rfl rfl fun _ => rfl

lemma take_succ_flatten (m : Master) (k : ℕ) :
    (m.locals.take (k + 1)).flatten = (m.locals.take k).flatten ++ localFile m k := by
  rw [take_add_one, flatten_append, localFile]
  cases m.locals[k]? <;> simp

lemma Inv.exact (h : Inv m s) : Exact m s := by
  intro hcount hcurr
  have hmark : s.markFile = some s.fmark := by
    refine h.mark.resolve_left fun hzero => hcount ?_
    rw [hzero]
  have hlen : s.fmark.bFileCount = m.locals.length := (h.count _ hmark).1
  have hk : s.markedIndex = m.locals.length := by simp [markedIndex, hmark, hcurr, hlen]
  have hnone : localFile m m.locals.length = [] := by simp [localFile]
  have happ : s.appended = m.locals.flatten := by
    rw [h.appended, hk, hnone, take_length, take_nil, append_nil]
  have hready := h.ready (.inl (hk.trans_ne (hlen ▸ hcount)))
  obtain ⟨segs, hfiles, hwrites⟩ := h.disk
  have hsplit (i : ℕ) : s.rbctx.files i = m.remoteFile i ++ segs i := by
    rw [hfiles i, ite_eq_left_iff.2]
    intro hi
    rw [Master.remoteFile, getElem?_eq_none (by omega), getD_none]
  refine ⟨fun i _ => hsplit i ▸ prefix_append _ _, ?_⟩
  have hsegs : (fun i => (s.rbctx.files i).drop (m.remoteFile i).length) = segs :=
    funext fun i => by rw [hsplit i, drop_left]
  have htext := hwrites.text_eq
  rw [h.cache, append_nil, happ] at htext
  rw [behindRemotes, hsegs, htext]

/-! ### The steps -/

section

variable (h : Inv m s)
include h

/-- A step that leaves the marks, the appended bytes and the binlog alone and goes to a
place outside of the loop that appends. -/
lemma Inv.move (hoff : s.bOffset = 0) {pc : Pc} {n : ℕ} {alive : Bool} {sctx : SyncCtx}
    {sequence : ℤ} {requested : List (List Byte)} (hpc : ∀ remain, pc ≠ .appendBinlog remain)
    (hload : pc = .connect ∨ pc = .binlogs ∨ (∃ st, pc = .returned st) ∨ s.markFile = some s.fmark)
    (hready : pc = .localFiles → m.remotes.length ≤ s.markedRemote) :
    Inv m { s with pc := pc, nfaildCount := n, alive := alive, sctx := sctx,
                   lastSyncSequence := sequence, requested := requested } := by
  refine { h with
    offset := fun _ => hoff, loaded := ?_, remain := fun r hr => absurd hr (hpc r), ready := ?_ }
  · rintro ⟨hc, hb, hr⟩
    rcases hload with hl | hl | ⟨st, hl⟩ | hl
    · exact absurd hl hc
    · exact absurd hl hb
    · exact absurd hl (hr st)
    · exact hl
  · rintro (hne | hl | ⟨remain, hr⟩)
    · exact h.ready (.inl hne)
    · exact hready hl
    · exact absurd hr (hpc remain)

lemma Inv.connectMaster (hpc : s.pc = .connect) : Inv m (s.connectMaster o) := by
  have hoff : s.bOffset = 0 := h.offset (by simp [hpc])
  unfold Slave.connectMaster
  split_ifs
  · exact h.move hoff (by simp) (by simp) (by simp)
  · exact h.move hoff (by simp) (by simp) (by simp)
  · exact h.move hoff (by simp [hpc]) (by simp [hpc]) (by simp [hpc])

lemma Inv.markInitload (hpc : s.pc = .binlogs) :
    Inv m s.markInitload ∧ (s.markInitload.fmark.bCurrSyncIndex = s.markInitload.markedIndex ∧
      s.markInitload.fmark.rbCurrSyncIndex = s.markInitload.markedRemote) ∧
      s.markInitload.pc = .binlogs := by
  rcases hmf : s.markFile with _ | f
  · have hzero : s.fmark = ⟨0, 0, 0, 0⟩ := h.mark.resolve_right (by simp [hmf])
    have hload : s.markInitload = s := by simp [Slave.markInitload, hmf]
    rw [hload]
    exact ⟨h, by simp [markedIndex, markedRemote, hmf, hzero], hpc⟩
  · have hload : s.markInitload = { s with fmark := f } := by simp [Slave.markInitload, hmf]
    rw [hload]
    exact ⟨{ h with mark := .inr hmf, loaded := fun _ => hmf, remain := by simp [hpc] },
      by simp [markedIndex, markedRemote, hmf], hpc⟩

/-- The mark is written with other numbers of files. -/
lemma Inv.markWrite {f : FullSyncMark}
    (hcount : f.bFileCount = m.locals.length ∧ f.rbFileCount = m.remotes.length)
    (hindex : f.bCurrSyncIndex = s.markedIndex ∧ f.rbCurrSyncIndex = s.markedRemote)
    (hoff : s.bOffset = 0) : Inv m (Slave.markWrite { s with pc := .remoteFiles, fmark := f }) := by
  have hk : (Slave.markWrite { s with pc := .remoteFiles, fmark := f }).markedIndex = s.markedIndex := hindex.1
  have hj : (Slave.markWrite { s with pc := .remoteFiles, fmark := f }).markedRemote = s.markedRemote :=
    hindex.2
  refine ⟨h.fd, h.cache, h.index, ?_, .inr rfl, hk ▸ h.appended, fun _ => hoff, fun _ => rfl,
    by simp [Slave.markWrite], ?_, ?_⟩
  · rintro g hg
    obtain rfl : f = g := some.inj hg
    exact hcount
  · rw [hk, hj]
    rintro (hne | hl | ⟨remain, hr⟩)
    · exact h.ready (.inl hne)
    · exact absurd hl (by simp [Slave.markWrite])
    · exact absurd hr (by simp [Slave.markWrite])
  · rw [OnDisk, hj]
    exact h.disk

lemma Inv.binlogFromMaster (hpc : s.pc = .binlogs) : Inv m (s.binlogFromMaster m o) := by
  obtain ⟨ht, hindex, hpc'⟩ := h.markInitload hpc
  have hoff : s.markInitload.bOffset = 0 := ht.offset (by simp [hpc'])
  unfold Slave.binlogFromMaster
  dsimp only
  split_ifs with hsum
  · exact ht.markWrite ⟨rfl, rfl⟩ hindex hoff
  · exact ht.move hoff (by simp) (by simp) (by simp)
  · -- the mark has been loaded from the file
    have hmark : s.markInitload.markFile = some s.markInitload.fmark :=
      ht.mark.resolve_left fun hzero => hsum (by simp [hzero])
    exact ht.move hoff (by simp) (by simp [hmark]) (by simp)

/-- A remote file is received, as a whole or not. -/
lemma Inv.recvfile (hpc : s.pc = .remoteFiles)
    (hlt : s.fmark.rbCurrSyncIndex < s.fmark.rbFileCount) :
    (o = .ok → Inv m (Slave.markWrite { s.recvfile m o s.fmark.rbCurrSyncIndex with
      fmark := { s.fmark with rbCurrSyncIndex := s.fmark.rbCurrSyncIndex + 1 } })) ∧
    (o ≠ .ok → Inv m (s.recvfile m o s.fmark.rbCurrSyncIndex)) := by
  have hoff : s.bOffset = 0 := h.offset (by simp [hpc])
  have hmark : s.markFile = some s.fmark := h.loaded (by simp [hpc])
  have hk : s.markedIndex = s.fmark.bCurrSyncIndex := by simp [markedIndex, hmark]
  have hj : s.markedRemote = s.fmark.rbCurrSyncIndex := by simp [markedRemote, hmark]
  have hcount := h.count s.fmark hmark
  have hzero : s.fmark.bCurrSyncIndex = 0 := by
    by_contra hne
    have hready := h.ready (.inl (hk.trans_ne hne))
    omega
  have happ : s.appended = [] := by simp [h.appended, hk, hzero, hoff]
  have hfiles := h.disk.files_eq happ
  rw [hj] at hfiles
  constructor
  · rintro rfl
    refine ⟨h.fd, h.cache, h.index, ?_, .inr rfl, ?_, fun _ => hoff, fun _ => rfl,
      by simp [Slave.markWrite, Slave.recvfile, hpc], ?_, onDisk_of_nil h.fd h.cache happ fun i => ?_⟩
    · rintro f hf
      obtain rfl := some.inj hf
      exact hcount
    · show s.appended = _
      rw [h.appended, hk]
      rfl
    · rintro (hne | hl | ⟨remain, hr⟩)
      · exact absurd hzero hne
      · exact absurd (hpc.symm.trans hl) (by decide)
      · exact absurd (hpc.symm.trans hr) (by simp)
    · show update s.rbctx.files s.fmark.rbCurrSyncIndex (m.remoteFile _) i =
        if i < s.fmark.rbCurrSyncIndex + 1 then m.remoteFile i else []
      by_cases hi : i = s.fmark.rbCurrSyncIndex
      · rw [hi, update_self, if_pos (Nat.lt_succ_self _)]
      · simp only [update_of_ne hi, hfiles i, Nat.lt_succ_iff_lt_or_eq, hi, or_false]
  · intro hne
    cases o with
    | ok => exact absurd rfl hne
    | refused => exact h
    | broken =>
      refine { h with disk := onDisk_of_nil h.fd h.cache happ fun i => ?_ }
      show update s.rbctx.files s.fmark.rbCurrSyncIndex [] i =
        if i < s.markedRemote then m.remoteFile i else []
      by_cases hi : i = s.fmark.rbCurrSyncIndex
      · rw [hi, update_self, hj, if_neg (lt_irrefl _)]
      · rw [update_of_ne hi, hfiles i, hj]

lemma Inv.syncRemoteBinlogData (hpc : s.pc = .remoteFiles) :
    Inv m (s.syncRemoteBinlogData m o) := by
  have hoff : s.bOffset = 0 := h.offset (by simp [hpc])
  have hmark : s.markFile = some s.fmark := h.loaded (by simp [hpc])
  unfold Slave.syncRemoteBinlogData
  dsimp only
  split_ifs with hlt hok
  · subst hok
    exact (h.recvfile hpc hlt).1 rfl
  · have hrecv := (h.recvfile hpc hlt).2 hok
    have hoff' : (s.recvfile m o s.fmark.rbCurrSyncIndex).bOffset = 0 := by cases o <;> exact hoff
    exact hrecv.move hoff' (by simp) (by simp) (by simp)
  · refine h.move hoff (by simp) (by simp [hmark]) fun _ => ?_
    rw [← (h.count s.fmark hmark).2]
    simpa [markedRemote, hmark] using hlt

lemma Inv.syncLocalBinlogData (hpc : s.pc = .localFiles) : Inv m (s.syncLocalBinlogData m o) := by
  have hoff : s.bOffset = 0 := h.offset (by simp [hpc])
  have hmark : s.markFile = some s.fmark := h.loaded (by simp [hpc])
  unfold Slave.syncLocalBinlogData
  split_ifs with hlt hok hsum
  · rw [binlogFlush_of_nil h.cache]
    exact { h with
      offset := fun _ => hoff
      loaded := fun _ => hmark
      remain := fun remain hr => (Pc.appendBinlog.inj hr).symm
      ready := fun _ => h.ready (.inr (.inl hpc)) }
  · exact h.move hoff (by simp) (by simp) (by simp)
  · exact h.move hoff (by simp) (by simp [hmark]) (by simp)
  · exact h.move hoff (by simp) (by simp) (by simp)

end

lemma flushReceived_linked (hfd : s.rbctx.binlogFd = some s.rbctx.currBinlogFileIndex)
    (hlinked : s.linked = true) (bytes : List Byte) :
    s.flushReceived bytes = (lfsOk, { s with
      rbctx := ((s.rbctx.withCache bytes).binlogFlush .ok).2
      appended := s.appended ++ bytes }) := by
  have hret : ((s.rbctx.withCache bytes).binlogFlush .ok).1 = lfsOk :=
    (binlogFlush_ok (c := s.rbctx.withCache bytes) hfd).1
  simp [flushReceived, hlinked, hret]

lemma appendRemoteBinlog_ok {remain : List Byte}
    (hfd : s.rbctx.binlogFd = some s.rbctx.currBinlogFileIndex) (halive : s.alive = true)
    (hlinked : s.linked = true) (hne : remain ≠ []) :
    s.appendRemoteBinlog .ok remain = { s with
      rbctx := ((s.rbctx.withCache (remain.take binlogCacheBufferSize)).binlogFlush .ok).2
      appended := s.appended ++ remain.take binlogCacheBufferSize
      pc := .appendBinlog (remain.drop binlogCacheBufferSize)
      bOffset := s.bOffset + (remain.take binlogCacheBufferSize).length } := by
  have hlen : remain.length ≠ 0 := by simpa using hne
  simp [Slave.appendRemoteBinlog, hlen, halive, flushReceived_linked hfd hlinked]

/-- Received bytes go behind what is in the directory. -/
lemma OnDisk.flush {bytes : List Byte} (h : s.OnDisk m)
    (hfd : s.rbctx.binlogFd = some s.rbctx.currBinlogFileIndex) (hcache : s.rbctx.wcacheBuff = [])
    (hne : bytes ≠ []) :
    OnDisk m { s with
      rbctx := ((s.rbctx.withCache bytes).binlogFlush .ok).2
      appended := s.appended ++ bytes } := by
  obtain ⟨segs, hfiles, hwrites⟩ := h
  have hflushed := binlogFlush_of_complete (c := s.rbctx.withCache bytes) hne
    (complete_ok (by simp [hfd]))
  have htext := hwrites.text_eq
  rw [hcache, append_nil] at htext
  have hcached : BinlogCtx.Writes { s.rbctx.withCache bytes with files := segs } (s.appended ++ bytes) :=
    ⟨hwrites.fd, hwrites.beyond, congrArg (· ++ bytes) htext⟩
  refine ⟨update segs s.rbctx.currBinlogFileIndex (segs s.rbctx.currBinlogFileIndex ++ bytes),
    fun i => ?_, hcached.flushed (by simp [hfd]) ⟨?_, hflushed.cache, hflushed.index⟩⟩
  · show ((s.rbctx.withCache bytes).binlogFlush .ok).2.files i =
      (if i < s.markedRemote then m.remoteFile i else []) ++ _
    rw [hflushed.files, appendFd_some (c := s.rbctx.withCache bytes) hfd]
    by_cases hi : i = s.rbctx.currBinlogFileIndex
    · rw [hi, update_self, ← append_assoc, ← hfiles]
      exact update_self ..
    · rw [update_of_ne hi, ← hfiles]
      exact update_of_ne hi ..
  · rw [appendFd_some (c := { s.rbctx.withCache bytes with files := segs }) hfd]
    rfl

lemma Inv.appendRemoteBinlog {remain : List Byte} (h : Inv m s) (hpc : s.pc = .appendBinlog remain)
    (hop : remain = [] ∨ (o = .ok ∧ s.alive = true ∧ s.linked = true)) :
    Inv m (s.appendRemoteBinlog o remain) := by
  have hmark : s.markFile = some s.fmark := h.loaded (by simp [hpc])
  have hk : s.markedIndex = s.fmark.bCurrSyncIndex := by simp [markedIndex, hmark]
  have hj : s.markedRemote = s.fmark.rbCurrSyncIndex := by simp [markedRemote, hmark]
  have hready := h.ready (.inr (.inr ⟨remain, hpc⟩))
  have hremain := h.remain remain hpc
  have happ := h.appended
  rw [hk] at happ
  by_cases hnil : remain = []
  · -- the file has been received: the mark moves on
    have hall : (localFile m s.fmark.bCurrSyncIndex).take s.bOffset
        = localFile m s.fmark.bCurrSyncIndex := by
      have := take_append_drop s.bOffset (localFile m s.fmark.bCurrSyncIndex)
      rwa [← hremain, hnil, append_nil] at this
    have hstep : s.appendRemoteBinlog o remain = s.nextLocalFile := by
      simp [Slave.appendRemoteBinlog, hnil]
    rw [hstep]
    refine ⟨h.fd, h.cache, h.index, ?_, Or.inr rfl, ?_, fun _ => rfl, fun _ => rfl,
      by simp [nextLocalFile, Slave.markWrite], fun _ => hready.trans_eq hj, ?_⟩
    · rintro f hf
      obtain rfl := some.inj hf
      exact h.count s.fmark hmark
    · show s.appended = (m.locals.take (s.fmark.bCurrSyncIndex + 1)).flatten ++ List.take 0 _
      rw [take_succ_flatten, take_zero, append_nil, happ, hall]
    · obtain ⟨segs, hfiles, hwrites⟩ := h.disk
      rw [hj] at hfiles
      exact ⟨segs, hfiles, hwrites⟩
  · obtain ⟨rfl, halive, hlinked⟩ := hop.resolve_left hnil
    rw [appendRemoteBinlog_ok h.fd halive hlinked hnil]
    have hfd := (binlogFlush_ok
      (c := s.rbctx.withCache (remain.take binlogCacheBufferSize)) h.fd).2
    have hne : remain.take binlogCacheBufferSize ≠ [] := by simp [hnil, binlogCacheBufferSize]
    have hcache := (binlogFlush_of_complete
      (c := s.rbctx.withCache (remain.take binlogCacheBufferSize)) hne
      (complete_ok (by simp [h.fd]))).cache
    refine ⟨hfd, hcache, indexFile_binlogFlush_ok (by simp [h.fd]) h.index, h.count, Or.inr hmark,
      ?_, ?_, fun _ => hmark, ?_, fun _ => hready, h.disk.flush h.fd h.cache hne⟩
    · show s.appended ++ remain.take binlogCacheBufferSize =
        (m.locals.take s.markedIndex).flatten ++ (localFile m s.markedIndex).take
          (s.bOffset + (remain.take binlogCacheBufferSize).length)
      rw [hk, happ, append_assoc, take_add, ← hremain, length_take, ← take_eq_take_min]
    · intro hno
      exact absurd rfl (hno _)
    · rintro r hr
      obtain rfl := Pc.appendBinlog.inj hr
      show remain.drop binlogCacheBufferSize = (localFile m s.fmark.bCurrSyncIndex).drop
        (s.bOffset + (remain.take binlogCacheBufferSize).length)
      rw [← drop_drop, ← hremain, length_take]
      rcases le_total binlogCacheBufferSize remain.length with hle | hle
      · rw [min_eq_left hle]
      · rw [min_eq_right hle, drop_of_length_le hle, drop_length]

def written (r : SyncCtx) : SyncCtx := { r with markFile := some r.batdata, lastSyncCount := r.syncCount }

/-- The reader when a record of `n` bytes has been counted. -/
def counted (n : ℕ) (r : SyncCtx) : SyncCtx :=
  { r with bOffset := r.bOffset + n, syncCount := r.syncCount + 1 }

lemma batdataWrite_eq (s : Slave) : s.batdataWrite = { s with sctx := written s.sctx } := by
  rw [batdataWrite, readFull, SyncCtx.syncMarkFileBatdataWrite_readSizes]
  rfl

lemma endData_cases (s : Slave) : s.endData = s ∨ s.endData = { s with sctx := written s.sctx } := by
  unfold endData
  split_ifs
  · exact .inr s.batdataWrite_eq
  · exact .inl rfl

lemma countRecord_cases (n : ℕ) (s : Slave) :
    s.countRecord n = { s with sctx := counted n s.sctx } ∨
      s.countRecord n = { s with sctx := written (counted n s.sctx) } := by
  unfold countRecord
  dsimp only
  split_ifs
  · exact .inr (batdataWrite_eq { s with sctx := counted n s.sctx })
  · exact .inl rfl

lemma endData_eq (s : Slave) : ∃ sctx, s.endData = { s with sctx := sctx } := by
  rcases s.endData_cases with heq | heq
  · exact ⟨s.sctx, heq⟩
  · exact ⟨_, heq⟩

lemma countRecord_eq (n : ℕ) (s : Slave) : ∃ sctx, s.countRecord n = { s with sctx := sctx } ∧
    sctx.bFd = s.sctx.bFd ∧ sctx.fdOffset = s.sctx.fdOffset ∧ sctx.bBuff = s.sctx.bBuff ∧
      sctx.bIndex = s.sctx.bIndex := by
  rcases s.countRecord_cases n with heq | heq
  · exact ⟨_, heq, rfl, rfl, rfl, rfl⟩
  · exact ⟨_, heq, rfl, rfl, rfl, rfl⟩

/-- The data phase neither writes the mark nor appends anything. -/
lemma Inv.fullSyncData (h : Inv m s) (hpc : s.pc = .data) : Inv m (s.fullSyncData mounts o) := by
  have hoff : s.bOffset = 0 := h.offset (by simp [hpc])
  have hmark : s.markFile = some s.fmark := h.loaded (by simp [hpc])
  have hctx : (binlogRead mounts readFull s.rbctx s.sctx).ctx = s.rbctx :=
    SyncCtx.binlogRead_ctx _ h.fd s.sctx
  -- whatever is read, the step ends in the loop, in a new round or in the result
  have hmove {sctx : SyncCtx} {sequence : ℤ} {requested : List (List Byte)} {alive : Bool} {pc : Pc}
      (hne : ∀ remain, pc ≠ .appendBinlog remain) (hnl : pc ≠ .localFiles) : Inv m { s with
        pc := pc, sctx := sctx, lastSyncSequence := sequence, requested := requested,
        alive := alive } :=
    h.move hoff hne (.inr (.inr (.inr hmark))) fun hl => absurd hl hnl
  have hdata : ∀ remain, s.pc ≠ .appendBinlog remain := by simp [hpc]
  unfold Slave.fullSyncData
  generalize binlogRead mounts readFull s.rbctx s.sctx = r at hctx ⊢
  obtain ⟨sctx, hend⟩ := endData_eq { s with sctx := r.sctx }
  dsimp only
  rw [hctx]
  split
  · split_ifs
    · obtain ⟨sctx, heq, -⟩ := countRecord_eq r.brecordSize { s with
        sctx := r.sctx
        requested := s.requested ++ [‹BinlogRecord›.fBlockMapName]
        lastSyncSequence := max s.lastSyncSequence ‹BinlogRecord›.sequence }
      rw [heq]
      exact hmove hdata (by simp [hpc])
    · exact hend ▸ hmove (by simp) (by simp)
  · exact hend ▸ hmove (by simp) (by simp)
  · exact hend ▸ hmove (by simp) (by simp)
  · obtain ⟨sctx, heq, -⟩ := countRecord_eq r.brecordSize { s with sctx := r.sctx }
    rw [heq]
    exact hmove hdata (by simp [hpc])

/-- The binlog is opened again at the file that its index file names. -/
lemma binlogInit_decimal {c : BinlogCtx} (hindex : c.indexFile = some (decimal c.currBinlogFileIndex))
    (hlt : c.currBinlogFileIndex < 2 ^ 31) :
    c.binlogInit = some { c with
      binlogFd := some c.currBinlogFileIndex
      binlogFileSize := (c.files c.currBinlogFileIndex).length
      wcacheBuff := [] } := by
  have hlength := length_decimal_le (n := c.currBinlogFileIndex) (k := 63) (by decide) (by omega)
  have hatoi : atoi (decimal c.currBinlogFileIndex ++ []) = c.currBinlogFileIndex :=
    atoi_decimalInt (z := c.currBinlogFileIndex) (by omega) (by omega) (by simp)
  have hnul : (0 : Byte) ∉ decimal c.currBinlogFileIndex := fun hmem =>
    absurd (isDigit_of_mem_decimal hmem) (by decide)
  rw [append_nil] at hatoi
  simp [binlogInit, hindex, take_of_length_le hlength, cstr_of_notMem hnul, hatoi, decimal_ne_nil]

lemma Inv.restart (h : Inv m s) (hoff : s.bOffset = 0) (hlt : s.rbctx.currBinlogFileIndex < 2 ^ 31)
    (sequence : ℤ) : Inv m (s.restart sequence) := by
  have happ := h.appended
  rw [hoff] at happ
  obtain ⟨segs, hfiles, hwrites⟩ := h.disk
  have hwrites' : BinlogCtx.Writes { s.rbctx with
      files := segs, binlogFd := some s.rbctx.currBinlogFileIndex, wcacheBuff := [] } s.appended :=
    ⟨by simp, hwrites.beyond, h.cache ▸ hwrites.text_eq⟩
  unfold Slave.restart
  rw [binlogInit_decimal h.index hlt]
  refine ⟨rfl, rfl, h.index, h.count, .inl rfl, happ, fun _ => rfl, fun hc => absurd rfl hc.1, by simp, ?_,
    segs, hfiles, hwrites'.fd, hwrites'.beyond, hwrites'.text_eq⟩
  rintro (hne | hl | ⟨remain, hr⟩)
  · exact h.ready (.inl hne)
  · exact absurd hl (by simp)
  · exact absurd hr (by simp)

lemma Inv.step {op : SyncOp} (h : Inv m s) (hop : Lossless s op) : Inv m (s.step mounts m op) := by
  cases op with
  | restart sequence => exact h.restart hop.1 hop.2 sequence
  | next o =>
    rcases hpc : s.pc with _ | _ | _ | _ | remain | _ | st
    · simpa only [Slave.step, hpc] using h.connectMaster hpc
    · simpa only [Slave.step, hpc] using h.binlogFromMaster hpc
    · simpa only [Slave.step, hpc] using h.syncRemoteBinlogData hpc
    · simpa only [Slave.step, hpc] using h.syncLocalBinlogData hpc
    · simp only [Lossless, LosslessAt, hpc] at hop
      simpa only [Slave.step, hpc] using h.appendRemoteBinlog hpc hop
    · simpa only [Slave.step, hpc] using h.fullSyncData hpc
    · simpa only [Slave.step, hpc] using h

end Slave

/-- **The local binlogs are copied exactly.**  In every run of the full synchronisation of a
fresh slave, with any failures of the connection and any restarts, in which no step loses
bytes (`Slave.Lossless`), the files of the remote binlog hold, behind the master's remote files, its
local binlog files, each once and in order, as soon as all of them have been copied. -/
theorem fullSync_copy_exact (mounts : Mounts) (m : Master) (ops : List SyncOp)
    (hops : Along (Slave.step mounts m) (fun s op _ => s.Lossless op) Slave.fresh ops) :
    Along (Slave.step mounts m) (fun _ _ s' => s'.Exact m) Slave.fresh ops := by
  refine Along.of_inv (Slave.inv_fresh m) hops ?_
  intro s op hinv hop
  have hinv' : Slave.Inv m (s.step mounts m op) := hinv.step hop
  exact ⟨hinv', hinv'.exact⟩

/-- A master with one local binlog file of two bytes and an empty remote one. -/
def twoByteMaster : Master := ⟨[[97, 10]], [[]]⟩

/-- A run with a failed connection and a restart between the copy of the remote file and
that of the local one. -/
def restartedCopy : List SyncOp :=
  [.next .refused, .next .ok, .next .ok, .next .ok, .restart 0, .next .ok, .next .ok, .next .ok,
    .next .ok, .next .ok, .next .ok]

theorem fullSync_copy_exact_restartedCopy :
    Along (Slave.step [] twoByteMaster) (fun _ _ s' => s'.Exact twoByteMaster) Slave.fresh
        restartedCopy ∧
      (run (Slave.step [] twoByteMaster) Slave.fresh restartedCopy).fmark = ⟨1, 1, 1, 1⟩ :=
  ⟨fullSync_copy_exact [] twoByteMaster restartedCopy (by decide), by decide⟩

/-- A run in which the receive of the local file fails: the file counts as copied, and
nothing of it has been appended. -/
theorem brokenReceive_not_exact :
    ¬ Along (Slave.step [] twoByteMaster) (fun _ _ s' => s'.Exact twoByteMaster) Slave.fresh
      [.next .ok, .next .ok, .next .ok, .next .ok, .next .ok, .next .broken] := by
  decide

end Lfs.FullSync
