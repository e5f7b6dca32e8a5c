/-
The slave's remote binlog while the binlogs of the master are copied.

The remote files of the master are copied under their own indices, while `rbctx` stays at
its first file, to which the bytes of the local files are appended in pieces of the size of the
cache, until its size, counted from zero, reaches the limit (`Master.binlog_files_zero`).  The files may
hold any bytes.
-/
import Lfs.FullSync.Copy

namespace Lfs.FullSync

open Lfs.Binlog Lfs.Lib List Function Slave

/-- The bytes that go to the file that is open before the next one is opened, when the
pieces `cs` are flushed one by one to a file of size `size`. -/
def beforeRotation : ℕ → List (List Byte) → List Byte
  | _, [] => []
  | size, b :: cs =>
    if binlogMaxFileSize ≤ size + b.length then b
    else b ++ beforeRotation (size + b.length) cs

/-- Received bytes are flushed. -/
def receive (c : BinlogCtx) (bytes : List Byte) : BinlogCtx := ((c.withCache bytes).binlogFlush .ok).2

section Receive

variable {c : BinlogCtx} {bytes : List Byte} {cs : List (List Byte)}

section

variable (hfd : c.binlogFd = some c.currBinlogFileIndex)
include hfd

lemma receive_flushed (hne : bytes ≠ []) :
    BinlogCtx.Flushed (c.withCache bytes) (receive c bytes) :=
  BinlogCtx.binlogFlush_of_complete hne (BinlogCtx.complete_ok (by simp [hfd]))

lemma receive_fd : (receive c bytes).binlogFd = some (receive c bytes).currBinlogFileIndex :=
  (BinlogCtx.binlogFlush_ok (c := c.withCache bytes) hfd).2

lemma receive_files (hne : bytes ≠ []) :
    (receive c bytes).files = update c.files c.currBinlogFileIndex
      (c.files c.currBinlogFileIndex ++ bytes) := by
  rw [(receive_flushed hfd hne).files, BinlogCtx.appendFd_some (c := c.withCache bytes) hfd]
  rfl

end

lemma foldl_receive_fd (cs : List (List Byte)) (hfd : c.binlogFd = some c.currBinlogFileIndex) :
    (cs.foldl receive c).binlogFd = some (cs.foldl receive c).currBinlogFileIndex := by
  induction cs generalizing c with
  | nil => exact hfd
  | cons b cs ih => exact ih (receive_fd hfd)

lemma foldl_receive_cache (hcs : ∀ b ∈ cs, b ≠ []) (hfd : c.binlogFd = some c.currBinlogFileIndex)
    (hcache : c.wcacheBuff = []) : (cs.foldl receive c).wcacheBuff = [] := by
  induction cs generalizing c with
  | nil => exact hcache
  | cons b cs ih =>
    exact ih (fun b' hb' => hcs b' (by simp [hb'])) (receive_fd hfd)
      (receive_flushed hfd (hcs b (by simp))).cache

lemma foldl_receive_files_zero_of_pos (hcs : ∀ b ∈ cs, b ≠ [])
    (hfd : c.binlogFd = some c.currBinlogFileIndex) (hpos : 0 < c.currBinlogFileIndex) :
    (cs.foldl receive c).files 0 = c.files 0 := by
  induction cs generalizing c with
  | nil => rfl
  | cons b cs ih =>
    have hb : b ≠ [] := hcs b (by simp)
    have hpos' : 0 < (receive c b).currBinlogFileIndex := by
      rcases (receive_flushed hfd hb).index with ⟨hi, -⟩ | ⟨hi, -⟩
      · rw [hi]; exact hpos
      · rw [hi]; exact Nat.succ_pos _
    rw [foldl_cons, ih (fun b' hb' => hcs b' (by simp [hb'])) (receive_fd hfd) hpos',
      receive_files hfd hb, update_of_ne (ne_of_lt hpos)]

/-- The first file gets the pieces up to the first rotation. -/
lemma foldl_receive_files_zero (hcs : ∀ b ∈ cs, b ≠ [])
    (hfd : c.binlogFd = some c.currBinlogFileIndex) (hzero : c.currBinlogFileIndex = 0) :
    (cs.foldl receive c).files 0 = c.files 0 ++ beforeRotation c.binlogFileSize cs := by
  induction cs generalizing c with
  | nil => simp [beforeRotation]
  | cons b cs ih =>
    have hb : b ≠ [] := hcs b (by simp)
    have hcs' : ∀ b' ∈ cs, b' ≠ [] := fun b' hb' => hcs b' (by simp [hb'])
    have hfile : (receive c b).files 0 = c.files 0 ++ b := by
      rw [receive_files hfd hb, hzero, update_self]
    rw [foldl_cons, beforeRotation]
    obtain ⟨-, ⟨hsize, hindex⟩ | ⟨hsize, hindex, hlen⟩⟩ :=
      BinlogCtx.binlogFlush_ok_cases (c := c.withCache b) hfd hb
    · -- the next file is opened
      have hpos : 0 < (receive c b).currBinlogFileIndex := by
        rw [receive, hindex]
        exact Nat.succ_pos _
      have hfull : binlogMaxFileSize ≤ c.binlogFileSize + b.length := hsize
      rw [if_pos hfull, foldl_receive_files_zero_of_pos hcs' (receive_fd hfd) hpos, hfile]
    · have hlen' : (receive c b).binlogFileSize = c.binlogFileSize + b.length := hlen
      have hroom : ¬ binlogMaxFileSize ≤ c.binlogFileSize + b.length := Nat.not_le.2 hsize
      rw [if_neg hroom, ih hcs' (receive_fd hfd) (hindex.trans hzero), hfile, hlen', append_assoc]

lemma beforeRotation_prefix (size : ℕ) (cs : List (List Byte)) :
    beforeRotation size cs <+: cs.flatten := by
  induction cs generalizing size with
  | nil => exact prefix_rfl
  | cons b cs ih =>
    rw [beforeRotation, flatten_cons]
    split_ifs
    · exact prefix_append _ _
    · exact (prefix_append_right_inj b).2 (ih _)

end Receive

/-! ### The files of a master -/

namespace Master

variable {m : Master} {k : ℕ} {cs : List (List Byte)}

/-- The pieces in which the local files below `k` are received. -/
def localPieces (m : Master) (k : ℕ) : List (List Byte) :=
  (m.locals.take k).flatMap (pieces binlogCacheBufferSize)

/-- What the first file of the slave's remote binlog holds after the copy. -/
def firstFileText (m : Master) : List Byte :=
  m.remoteFile 0 ++ beforeRotation 0 (m.localPieces m.locals.length)

/-- The slave's remote binlog when the remote files below `j` have been copied. -/
def copied (m : Master) (j : ℕ) : BinlogCtx :=
  { BinlogCtx.fresh with files := fun i => if i < j then m.remoteFile i else [] }

/-- The slave's remote binlog after the copy of all remote files and of the pieces `cs`. -/
def received (m : Master) (cs : List (List Byte)) : BinlogCtx :=
  cs.foldl receive (m.copied m.remotes.length)

/-- The slave's remote binlog after the copy of all files. -/
def binlog (m : Master) : BinlogCtx := m.received (m.localPieces m.locals.length)

lemma ne_nil_of_mem_localPieces (m : Master) (k : ℕ) : ∀ b ∈ m.localPieces k, b ≠ [] := by
  intro b hb
  obtain ⟨t, -, ht⟩ := mem_flatMap.1 hb
  exact ne_nil_of_mem_pieces ht

lemma localPieces_succ (hk : k < m.locals.length) :
    m.localPieces (k + 1) = m.localPieces k ++ pieces binlogCacheBufferSize (localFile m k) := by
  have hget : m.locals[k]? = some (localFile m k) := by simp [localFile, hk]
  rw [localPieces, take_add_one, hget, flatMap_append]
  simp [localPieces]

lemma localPieces_flatten (m : Master) : (m.localPieces m.locals.length).flatten = m.locals.flatten := by
  rw [localPieces, take_length]
  induction m.locals with
  | nil => rfl
  | cons t ts ih =>
    rw [flatMap_cons, flatten_append, pieces_flatten (by decide), ih, flatten_cons]

lemma received_fd (m : Master) (cs : List (List Byte)) :
    (m.received cs).binlogFd = some (m.received cs).currBinlogFileIndex :=
  foldl_receive_fd cs rfl

lemma received_cache (m : Master) (hcs : ∀ b ∈ cs, b ≠ []) : (m.received cs).wcacheBuff = [] :=
  foldl_receive_cache hcs rfl rfl

lemma received_append_singleton (m : Master) (cs : List (List Byte)) (b : List Byte) :
    m.received (cs ++ [b]) = receive (m.received cs) b := by
  simp [received]

lemma copied_succ (m : Master) (j : ℕ) :
    { m.copied j with files := update (m.copied j).files j (m.remoteFile j) }
      = m.copied (j + 1) := by
  have hfiles : update (m.copied j).files j (m.remoteFile j) = (m.copied (j + 1)).files := by
    ext1 i
    by_cases hi : i = j
    · subst hi
      simp [copied]
    · have hlt : i < j + 1 ↔ i < j := by omega
      simp only [copied, update_of_ne hi, hlt]
  rw [hfiles]
  rfl

lemma binlog_files_zero (m : Master) : m.binlog.files 0 = m.firstFileText := by
  have hremote : (m.copied m.remotes.length).files 0 = m.remoteFile 0 := by
    rcases eq_zero_or_pos m.remotes.length with hzero | hpos
    · simp [copied, remoteFile, hzero]
    · simp [copied, hpos]
  rw [binlog, received, foldl_receive_files_zero (m.ne_nil_of_mem_localPieces _) rfl rfl, hremote]
  rfl

lemma firstFileText_eq_nil (hl : m.locals = []) (hr : m.remotes = []) : m.firstFileText = [] := by
  simp [firstFileText, remoteFile, localPieces, hl, hr, beforeRotation]

end Master

/-! ### The copy -/

/-- The slave is copying the binlogs: `j` remote files are copied, `k` local ones are, the
context is `c`, and `bytes` have been appended. -/
structure Copying (m : Master) (s : Slave) (k j : ℕ) (c : BinlogCtx) (bytes : List Byte) : Prop where
  alive : s.alive = true
  linked : s.linked = true
  fmark : s.fmark = ⟨m.locals.length, k, m.remotes.length, j⟩
  markFile : s.markFile = some s.fmark
  rbctx : s.rbctx = c
  sctx : s.sctx = zeroSyncCtx none
  appended : s.appended = bytes
  requested : s.requested = []

/-- The states of a full synchronisation without failures before the data phase. -/
inductive InCopy (m : Master) (s : Slave) : Prop
  | connect (h : s = fresh)
  | binlogs (h : s = { fresh with pc := .binlogs, alive := true })
  | remoteFiles (j : ℕ) (hpc : s.pc = .remoteFiles) (hoff : s.bOffset = 0)
      (hj : j ≤ m.remotes.length) (h : Copying m s 0 j (m.copied j) [])
  | localFiles (k : ℕ) (hpc : s.pc = .localFiles) (hoff : s.bOffset = 0) (hk : k ≤ m.locals.length)
      (h : Copying m s k m.remotes.length (m.received (m.localPieces k)) (m.localPieces k).flatten)
  | appendBinlog (k : ℕ) (done : List (List Byte)) (remain : List Byte)
      (hpc : s.pc = .appendBinlog remain) (hk : k < m.locals.length)
      (hpieces : pieces binlogCacheBufferSize (localFile m k)
        = done ++ pieces binlogCacheBufferSize remain)
      (h : Copying m s k m.remotes.length (m.received (m.localPieces k ++ done))
        (m.localPieces k ++ done).flatten)

/-- How many steps the copy of the local files from the `k`-th on takes at most. -/
def localTodo (m : Master) (k : ℕ) : ℕ := ((m.locals.drop k).map fun t => t.length + 2).sum

/-- How many steps the copy takes at most. -/
def copyTodo (m : Master) (s : Slave) : ℕ :=
  match s.pc with
  | .connect => localTodo m 0 + m.remotes.length + 3
  | .binlogs => localTodo m 0 + m.remotes.length + 2
  | .remoteFiles => localTodo m 0 + (m.remotes.length - s.fmark.rbCurrSyncIndex) + 1
  | .localFiles => localTodo m s.fmark.bCurrSyncIndex
  | .appendBinlog remain => localTodo m (s.fmark.bCurrSyncIndex + 1) + remain.length + 1
  | _ => 0

/-- The slave goes on with the copy. -/
structure Copies (m : Master) (s s' : Slave) : Prop where
  next : InCopy m s'
  todo_lt : copyTodo m s' < copyTodo m s

namespace InCopy

open Slave

variable {mounts : Mounts} {m : Master} {s : Slave} {j k : ℕ}

lemma pc_ne (h : InCopy m s) : s.pc ≠ .data ∧ ∀ st, s.pc ≠ .returned st := by
  cases h with
  | connect h | binlogs h => subst h; simp [fresh]
  | remoteFiles j hpc | localFiles k hpc | appendBinlog k done remain hpc => simp [hpc]

lemma localTodo_eq (hk : k < m.locals.length) :
    localTodo m k = (localFile m k).length + 2 + localTodo m (k + 1) := by
  have hget : localFile m k = m.locals[k] := by simp [localFile, hk]
  rw [localTodo, drop_eq_getElem_cons hk, map_cons, sum_cons, hget, localTodo]

lemma copies_remoteFiles (hpc : s.pc = .remoteFiles) (hoff : s.bOffset = 0)
    (hj : j ≤ m.remotes.length) (h : Copying m s 0 j (m.copied j) []) :
    Copies m s (s.syncRemoteBinlogData m .ok) := by
  by_cases hlt : j < m.remotes.length
  · have hstep : s.syncRemoteBinlogData m .ok = { s with
        rbctx := m.copied (j + 1)
        fmark := ⟨m.locals.length, 0, m.remotes.length, j + 1⟩
        markFile := some ⟨m.locals.length, 0, m.remotes.length, j + 1⟩ } := by
      rw [← m.copied_succ j, ← h.rbctx]
      simp [syncRemoteBinlogData, h.fmark, hlt, recvfile, markWrite, Master.remoteFile]
    rw [hstep]
    refine ⟨.remoteFiles (j + 1) hpc hoff hlt
      ⟨h.alive, h.linked, rfl, rfl, rfl, h.sctx, h.appended, h.requested⟩, ?_⟩
    simp only [copyTodo, hpc, h.fmark]
    omega
  · obtain rfl : j = m.remotes.length := by omega
    have hstep : s.syncRemoteBinlogData m .ok = { s with pc := .localFiles } := by
      simp [syncRemoteBinlogData, h.fmark]
    rw [hstep]
    refine ⟨.localFiles 0 rfl hoff (Nat.zero_le _)
      ⟨h.alive, h.linked, h.fmark, h.markFile, h.rbctx, h.sctx, h.appended, h.requested⟩, ?_⟩
    simp only [copyTodo, hpc, h.fmark]
    omega

lemma copies_localFiles (hpc : s.pc = .localFiles) (hoff : s.bOffset = 0) (hk : k < m.locals.length)
    (h : Copying m s k m.remotes.length (m.received (m.localPieces k)) (m.localPieces k).flatten) :
    Copies m s (s.syncLocalBinlogData m .ok) := by
  have hcache : s.rbctx.wcacheBuff = [] := by
    rw [h.rbctx]
    exact m.received_cache (m.ne_nil_of_mem_localPieces k)
  have hstep : s.syncLocalBinlogData m .ok = { s with pc := .appendBinlog (localFile m k) } := by
    simp [syncLocalBinlogData, h.fmark, hk, h.alive, hoff, BinlogCtx.binlogFlush_of_nil hcache,
      localFile]
  rw [hstep]
  refine ⟨.appendBinlog k [] (localFile m k) rfl hk rfl ?_, ?_⟩
  · rw [append_nil]
    exact ⟨h.alive, h.linked, h.fmark, h.markFile, h.rbctx, h.sctx, h.appended, h.requested⟩
  · simp only [copyTodo, hpc, h.fmark, localTodo_eq hk]
    omega

lemma copies_appendBinlog {done : List (List Byte)} {remain : List Byte}
    (hpc : s.pc = .appendBinlog remain) (hk : k < m.locals.length)
    (hpieces : pieces binlogCacheBufferSize (localFile m k)
      = done ++ pieces binlogCacheBufferSize remain)
    (h : Copying m s k m.remotes.length (m.received (m.localPieces k ++ done))
      (m.localPieces k ++ done).flatten) :
    Copies m s (s.appendRemoteBinlog .ok remain) := by
  by_cases hnil : remain = []
  · subst hnil
    rw [pieces_nil, append_nil] at hpieces
    have hstep : s.appendRemoteBinlog .ok [] = { s with
        pc := .localFiles
        fmark := ⟨m.locals.length, k + 1, m.remotes.length, m.remotes.length⟩
        markFile := some ⟨m.locals.length, k + 1, m.remotes.length, m.remotes.length⟩
        bOffset := 0 } := by
      simp [appendRemoteBinlog, nextLocalFile, markWrite, h.fmark]
    rw [hstep]
    refine ⟨.localFiles (k + 1) rfl rfl hk ?_, ?_⟩
    · rw [Master.localPieces_succ hk, hpieces]
      exact ⟨h.alive, h.linked, rfl, rfl, h.rbctx, h.sctx, h.appended, h.requested⟩
    · simp only [copyTodo, hpc, h.fmark]
      omega
  · have hfd : s.rbctx.binlogFd = some s.rbctx.currBinlogFileIndex := by
      rw [h.rbctx]
      exact m.received_fd _
    rw [appendRemoteBinlog_ok hfd h.alive h.linked hnil]
    refine ⟨.appendBinlog k (done ++ [remain.take binlogCacheBufferSize])
      (remain.drop binlogCacheBufferSize) rfl hk ?_
      ⟨h.alive, h.linked, h.fmark, h.markFile, ?_, h.sctx, ?_, h.requested⟩, ?_⟩
    · rw [hpieces, pieces_of_ne_nil (by decide) hnil, append_assoc]
      rfl
    · rw [h.rbctx, ← append_assoc, Master.received_append_singleton]
      rfl
    · simp [h.appended]
    · have hpos : 0 < remain.length := length_pos_iff.2 hnil
      have hcache : 0 < binlogCacheBufferSize := by decide
      simp only [copyTodo, hpc, length_drop]
      omega

/-- A step goes on with the copy, or finds that all files have been copied. -/
lemma copies_or_copied (h : InCopy m s) : Copies m s (s.step mounts m (.next .ok)) ∨
    s.pc = .localFiles ∧
      Copying m s m.locals.length m.remotes.length m.binlog m.locals.flatten := by
  cases h with
  | connect h =>
    subst h
    exact .inl ⟨.binlogs rfl, Nat.lt_succ_self _⟩
  | binlogs h =>
    subst h
    have hstep : step mounts m { fresh with pc := .binlogs, alive := true } (.next .ok) =
        { fresh with
          pc := .remoteFiles
          alive := true
          fmark := ⟨m.locals.length, 0, m.remotes.length, 0⟩
          markFile := some ⟨m.locals.length, 0, m.remotes.length, 0⟩ } := by
      simp [step, binlogFromMaster, markInitload, markWrite, fresh]
    rw [hstep]
    exact .inl ⟨.remoteFiles 0 rfl rfl (Nat.zero_le _) ⟨rfl, rfl, rfl, rfl, rfl, rfl, rfl, rfl⟩,
      Nat.lt_succ_self _⟩
  | remoteFiles j hpc hoff hj h =>
    simp only [step, hpc]
    exact .inl (copies_remoteFiles hpc hoff hj h)
  | localFiles k hpc hoff hk h =>
    rcases hk.lt_or_eq with hlt | rfl
    · simp only [step, hpc]
      exact .inl (copies_localFiles hpc hoff hlt h)
    · rw [m.localPieces_flatten] at h
      exact .inr ⟨hpc, h⟩
  | appendBinlog k done remain hpc hk hpieces h =>
    simp only [step, hpc]
    exact .inl (copies_appendBinlog hpc hk hpieces h)

end InCopy

lemma Slave.fullSyncData_ok {mounts : Mounts} {s : Slave} {r : SyncCtx} {brecord : BinlogRecord}
    {n : ℕ} (halive : s.alive = true)
    (h : binlogRead mounts readFull s.rbctx s.sctx = ⟨some .ok, some brecord, n, s.rbctx, r⟩) :
    s.fullSyncData mounts .ok = { s with
      sctx := r
      requested := s.requested ++ [brecord.fBlockMapName]
      lastSyncSequence := max s.lastSyncSequence brecord.sequence }.countRecord n := by
  unfold fullSyncData
  simp only [h]
  exact if_pos ⟨trivial, halive⟩

end Lfs.FullSync
