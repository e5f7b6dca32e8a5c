/-
The write cache of a binlog and what is written into it.

`binlog_write` prints a line behind what is in the cache, without looking at how much room there is.
It relies on the flush at its end, which it makes when fewer than 256 bytes are left: a line has at
most 255 bytes.  `__full_sync_append_remote_binlog` receives into the cache from its front on, as much
as the cache can hold, and flushes.  A flush that fails keeps what is in the cache, and the next line
goes past its end.
-/
import Lfs.Binlog.Ctx
import Lfs.Binlog.Record
import Lfs.Lib.Run

namespace Lfs.Binlog

open Lfs.Lib List Option

/-- The result of `recvdata_nblock`: it receives everything, or fails after some bytes. -/
inductive RecvRes where
  | all
  | failed (k : ℕ)
deriving DecidableEq

namespace BinlogCtx

/-- The bytes that are received to the front of the cache before a receive fails. -/
def overwriteCache (bytes : List Byte) (c : BinlogCtx) : BinlogCtx :=
  c.withCache (bytes.take c.wcacheBuff.length ++ c.wcacheBuff.drop bytes.length)

/-- The loop of `__full_sync_append_remote_binlog` with the bytes `remain` still to come.  When the
outcomes are used up, the next receive fails before any byte. -/
def appendRemoteBinlogLoop : List (RecvRes × FlushIo) → List Byte → BinlogCtx → BinlogCtx
  | [], _, c => c
  | (r, io) :: rounds, remain, c =>
    if remain.length = 0 then c
    else
      let bytes := remain.take binlogCacheBufferSize
      match r with
      | .failed k => c.overwriteCache (bytes.take k)
      | .all =>
        let (ret, c) := (c.withCache bytes).binlogFlush io
        if ret = lfsOk then
          appendRemoteBinlogLoop rounds (remain.drop binlogCacheBufferSize) c
        else c

/-- `__full_sync_append_remote_binlog`, which does not look at the result of its first flush. -/
def fullSyncAppendRemoteBinlog (io : FlushIo) (rounds : List (RecvRes × FlushIo))
    (remain : List Byte) (c : BinlogCtx) : BinlogCtx :=
  (c.binlogFlush io).2.appendRemoteBinlogLoop rounds remain

/-- The numbers of bytes that the receives of the loop ask for. -/
def recvBytes : List (RecvRes × FlushIo) → List Byte → BinlogCtx → List ℕ
  | [], remain, _ => if remain.length = 0 then [] else [(remain.take binlogCacheBufferSize).length]
  | (r, io) :: rounds, remain, c =>
    if remain.length = 0 then []
    else
      let bytes := remain.take binlogCacheBufferSize
      bytes.length ::
        match r with
        | .failed _ => []
        | .all =>
          let (ret, c) := (c.withCache bytes).binlogFlush io
          if ret = lfsOk then recvBytes rounds (remain.drop binlogCacheBufferSize) c else []

/-- The cache has room for every line. -/
def Room (c : BinlogCtx) : Prop :=
  ∀ line : CString, line.bytes.length ≤ binlogRecordSize - 1 →
    c.wcacheBuff.length + line.bytes.length + 1 ≤ binlogCacheBufferSize

/-- Of the bytes that the loop receives, it flushes those that leave no room for a line. -/
def AppendDrains : List (RecvRes × FlushIo) → List Byte → BinlogCtx → Prop
  | [], _, _ => True
  | (r, io) :: rounds, remain, c =>
    if remain.length = 0 then True
    else
      let bytes := remain.take binlogCacheBufferSize
      match r with
      | .failed _ => True
      | .all =>
        (bytes.length + 256 ≤ binlogCacheBufferSize ∨ (c.withCache bytes).Complete io) ∧
          (((c.withCache bytes).binlogFlush io).1 = lfsOk →
            AppendDrains rounds (remain.drop binlogCacheBufferSize)
              ((c.withCache bytes).binlogFlush io).2)

end BinlogCtx

/-- A call on the context. -/
inductive CacheOp where
  | write (line : CString) (io : FlushIo)
  | flush (io : FlushIo)
  | lockFlush (io : FlushIo)
  | append (io : FlushIo) (rounds : List (RecvRes × FlushIo)) (remain : List Byte)

namespace CacheOp

/-- The lines have at most `BINLOG_RECORD_SIZE - 1` bytes. -/
def Valid : CacheOp → Prop
  | .write line _ => line.bytes.length ≤ binlogRecordSize - 1
  | _ => True

/-- The context after a call, `none` once a line has been printed past the end of the cache. -/
def step : Option BinlogCtx → CacheOp → Option BinlogCtx
  | none, _ => none
  | some c, .write line io => (c.binlogWriteLocked io line).map Prod.snd
  | some c, .flush io => some (c.binlogFlush io).2
  | some c, .lockFlush io => some (c.binlogLockFlush io).2
  | some c, .append io rounds remain => some (c.fullSyncAppendRemoteBinlog io rounds remain)

/-- The line, or what is received, fits into the cache. -/
def Fits : Option BinlogCtx → CacheOp → Prop
  | none, _ => False
  | some c, .write line _ => c.wcacheBuff.length + line.bytes.length + 1 ≤ binlogCacheBufferSize
  | some c, .append io rounds remain =>
    ∀ n ∈ (c.binlogFlush io).2.recvBytes rounds remain, n ≤ binlogCacheBufferSize
  | some _, _ => True

/-- Every line that may come next fits into the cache. -/
def Ready (s : Option BinlogCtx) : Prop := ∃ c, s = some c ∧ c.Room

/-- The condition on a call: the flush that it makes because there is no room for another line writes
and syncs everything. -/
def Drains : Option BinlogCtx → CacheOp → Prop
  | none, _ => True
  | some c, .write line io =>
    binlogCacheBufferSize < c.wcacheBuff.length + line.bytes.length + 256 →
      (c.withCache (c.wcacheBuff ++ line.bytes)).Complete io
  | some c, .append io rounds remain => (c.binlogFlush io).2.AppendDrains rounds remain
  | some _, _ => True

end CacheOp

/-- The letter `a`, some times. -/
def fillLine (n : ℕ) : CString := ⟨replicate n 97, by simp [mem_replicate]⟩

lemma length_fillLine (n : ℕ) : (fillLine n).bytes.length = n := length_replicate

namespace BinlogCtx

variable {c : BinlogCtx} {io : FlushIo} {rounds : List (RecvRes × FlushIo)} {remain : List Byte}

lemma room_iff : c.Room ↔ c.wcacheBuff.length + 256 ≤ binlogCacheBufferSize := by
  constructor
  · intro h
    have hlong := h (fillLine 255) (by rw [length_fillLine, binlogRecordSize])
    rwa [length_fillLine] at hlong
  · intro h line hline
    rw [binlogRecordSize] at hline
    omega

lemma wcacheBuff_binlogFlush (io : FlushIo) (c : BinlogCtx) :
    (c.binlogFlush io).2.wcacheBuff = if c.Complete io then [] else c.wcacheBuff := by
  by_cases hnil : c.wcacheBuff = []
  · rw [binlogFlush_of_nil hnil, hnil, ite_self]
  · split_ifs with hio
    · exact (binlogFlush_of_complete hnil hio).cache
    · obtain ⟨k, hflush, -⟩ := binlogFlush_of_not_complete hnil hio
      rw [hflush]
      unfold appendFd
      split <;> rfl

lemma Room.binlogFlush (h : c.Room) (io : FlushIo) : (c.binlogFlush io).2.Room := by
  rw [room_iff] at h ⊢
  rw [wcacheBuff_binlogFlush]
  split_ifs
  · decide
  · exact h

lemma room_binlogFlush_iff : (c.binlogFlush io).2.Room ↔
      c.wcacheBuff.length + 256 ≤ binlogCacheBufferSize ∨ c.Complete io := by
  rw [room_iff, wcacheBuff_binlogFlush]
  split_ifs with hio
  · exact iff_of_true (by decide) (.inr hio)
  · exact ⟨.inl, fun h => h.resolve_right hio⟩

lemma ret_of_not_complete (hne : c.wcacheBuff ≠ []) (hio : ¬ c.Complete io) :
    (c.binlogFlush io).1 ≠ lfsOk := by
  obtain ⟨k, hflush, -⟩ := binlogFlush_of_not_complete hne hio
  rw [hflush]
  show lfsError ≠ lfsOk
  decide

lemma length_overwriteCache (bytes : List Byte) :
    (c.overwriteCache bytes).wcacheBuff.length = c.wcacheBuff.length := by
  rw [overwriteCache, withCache_wcacheBuff, length_append, length_take, length_drop]
  omega

/-- The loop of `__full_sync_append_remote_binlog` leaves room for a line exactly if it drains the
cache. -/
lemma room_appendRemoteBinlogLoop_iff (h : c.Room) :
    (c.appendRemoteBinlogLoop rounds remain).Room ↔ c.AppendDrains rounds remain := by
  induction rounds generalizing remain c with
  | nil => exact iff_of_true h trivial
  | cons round rounds ih =>
    obtain ⟨r, io⟩ := round
    rw [appendRemoteBinlogLoop, AppendDrains]
    by_cases hremain : remain.length = 0
    · rw [if_pos hremain, if_pos hremain]
      exact iff_of_true h trivial
    rw [if_neg hremain, if_neg hremain]
    cases r with
    | failed k =>
      refine iff_of_true ?_ trivial
      rw [room_iff] at h ⊢
      rwa [length_overwriteCache]
    | all =>
      dsimp only
      set d := c.withCache (remain.take binlogCacheBufferSize) with hd
      have hne : d.wcacheBuff ≠ [] := by
        intro hnil
        have hzero := congrArg List.length hnil
        rw [hd, withCache_wcacheBuff, length_take, length_nil, binlogCacheBufferSize] at hzero
        omega
      have hroom : (d.binlogFlush io).2.Room ↔ _ := room_binlogFlush_iff
      rw [hd, withCache_wcacheBuff, ← hd] at hroom
      by_cases hret : (d.binlogFlush io).1 = lfsOk
      · -- the flush is complete, and the loop goes on
        have hio : d.Complete io := by
          by_contra hio
          exact ret_of_not_complete hne hio hret
        rw [if_pos hret, ih (hroom.2 (.inr hio))]
        exact ⟨fun hrest => ⟨.inr hio, fun _ => hrest⟩, fun hall => hall.2 hret⟩
      · rw [if_neg hret, hroom]
        exact ⟨fun hor => ⟨hor, fun hok => absurd hok hret⟩, And.left⟩

lemma recvBytes_le : ∀ n ∈ c.recvBytes rounds remain, n ≤ binlogCacheBufferSize := by
  induction rounds generalizing remain c with
  | nil =>
    intro n hn
    rw [recvBytes] at hn
    split_ifs at hn
    · exact absurd hn not_mem_nil
    · rw [mem_singleton.1 hn]
      exact length_take_le ..
  | cons round rounds ih =>
    obtain ⟨r, io⟩ := round
    intro n hn
    rw [recvBytes] at hn
    split_ifs at hn
    · exact absurd hn not_mem_nil
    rcases mem_cons.1 hn with rfl | hn
    · exact length_take_le ..
    · cases r with
      | failed k => exact absurd hn not_mem_nil
      | all =>
        dsimp only at hn
        split_ifs at hn
        · exact ih n hn
        · exact absurd hn not_mem_nil

/-- A line fits into a cache that has room, and there is room for another one exactly if the flush,
should there be one, is complete. -/
lemma room_binlogWriteLocked_iff {line : CString} (h : c.Room)
    (hline : line.bytes.length ≤ binlogRecordSize - 1) :
    ∃ r, c.binlogWriteLocked io line = some r ∧
      (r.2.Room ↔ (binlogCacheBufferSize < c.wcacheBuff.length + line.bytes.length + 256 →
        (c.withCache (c.wcacheBuff ++ line.bytes)).Complete io)) := by
  refine ⟨_, by rw [binlogWriteLocked, appendCache_of_fits (h line hline)]; rfl, ?_⟩
  dsimp only
  rw [withCache_wcacheBuff, length_append]
  split_ifs with hfull
  · -- there is a flush
    rw [room_binlogFlush_iff, withCache_wcacheBuff, length_append]
    constructor
    · intro hor _
      exact hor.resolve_left (by omega)
    · exact fun hio => .inr (hio hfull)
  · refine iff_of_true ?_ fun hfull' => absurd hfull' hfull
    rw [room_iff, withCache_wcacheBuff, length_append]
    omega

end BinlogCtx

namespace CacheOp

open BinlogCtx

/-- **One call** on a cache with room: what it writes fits, and it leaves room exactly if it drains the
cache. -/
lemma step_iff {s : Option BinlogCtx} {op : CacheOp} (h : Ready s) (hop : op.Valid) :
    Fits s op ∧ Ready (step s op) ↔ Drains s op := by
  obtain ⟨c, rfl, hroom⟩ := h
  have hready {c' : BinlogCtx} : Ready (some c') ↔ c'.Room := by
    refine ⟨?_, fun h => ⟨c', rfl, h⟩⟩
    rintro ⟨c'', hc'', h⟩
    rwa [some.inj hc'']
  cases op with
  | write line io =>
    obtain ⟨r, hwrite, hiff⟩ : ∃ r, c.binlogWriteLocked io line = some r ∧ _ :=
      room_binlogWriteLocked_iff hroom hop
    have hstep : step (some c) (.write line io) = some r.2 := by rw [step, hwrite, map_some]
    rw [hstep, hready, hiff]
    exact and_iff_right (hroom line hop)
  | flush io | lockFlush io => exact iff_of_true ⟨trivial, _, rfl, hroom.binlogFlush io⟩ trivial
  | append io rounds remain =>
    rw [step, hready, fullSyncAppendRemoteBinlog,
      room_appendRemoteBinlogLoop_iff (hroom.binlogFlush io)]
    exact and_iff_right recvBytes_le

/-- **The bound of the cache.**  Along a run of calls from an empty cache, everything that is written or
received fits into the cache and there is always room for one more line, exactly if each flush that is
made for want of room writes and syncs everything. -/
theorem cache_bound_iff (c : BinlogCtx) (hempty : c.wcacheBuff = []) (ops : List CacheOp)
    (hops : ∀ op ∈ ops, op.Valid) :
    Along step (fun s op s' => Fits s op ∧ Ready s') (some c) ops ↔
      Along step (fun s op _ => Drains s op) (some c) ops := by
  have hready : Ready (some c) := ⟨c, rfl, room_iff.2 (by rw [hempty]; decide)⟩
  exact Along.iff_of_inv (I := Ready) hready (Along.of_forall_mem hops) (fun s op hs hop => step_iff hs hop)
    fun s op _ _ h => h.2

def Opened (s : Option BinlogCtx) : Prop := ∀ c ∈ s, c.binlogFd = some c.currBinlogFileIndex

lemma Opened.step_ok {s : Option BinlogCtx} (h : Opened s) (line : CString) :
    Opened (step s (.write line .ok)) ∧ Drains s (.write line .ok) := by
  rcases s with _ | c
  · exact ⟨h, trivial⟩
  have hfd := h c rfl
  refine ⟨fun c' hc' => ?_, fun _ => complete_ok (by simp [hfd])⟩
  obtain ⟨r, hr, rfl⟩ := map_eq_some_iff.1 hc'
  obtain ⟨d, hd, rfl⟩ := map_eq_some_iff.1 hr
  have hfd' : d.binlogFd = some d.currBinlogFileIndex := by
    rw [appendCache, Option.ite_none_right_eq_some] at hd
    rwa [← some.inj hd.2]
  split_ifs
  · exact (binlogFlush_ok hfd').2
  · exact hfd'

/-- Seventy lines, with a flush on the way. -/
theorem cache_bound_seventy : Along step (fun s op s' => Fits s op ∧ Ready s') (some .fresh)
    (replicate 70 (.write (fillLine 255) .ok)) := by
  have hops {op : CacheOp} (hop : op ∈ replicate 70 (.write (fillLine 255) .ok)) :
      op = .write (fillLine 255) .ok := eq_of_mem_replicate hop
  refine (cache_bound_iff .fresh rfl _ fun op hop => ?_).2 ?_
  · rw [hops hop]
    simp [Valid, length_fillLine, binlogRecordSize]
  · refine (Along.of_forall_mem fun op => hops).of_inv (I := Opened) (fun c hc => ?_) ?_
    · obtain rfl := some.inj hc
      rfl
    · rintro s _ hs rfl
      exact hs.step_ok _

/-- A flush whose `write` fails. -/
def noWrite : FlushIo := { FlushIo.ok with write := .error }

lemma step_noWrite {c : BinlogCtx} {line : CString}
    (hfits : c.wcacheBuff.length + line.bytes.length + 1 ≤ binlogCacheBufferSize) :
    step (some c) (.write line noWrite) = some (c.withCache (c.wcacheBuff ++ line.bytes)) := by
  rw [step, binlogWriteLocked, appendCache_of_fits hfits]
  generalize c.withCache (c.wcacheBuff ++ line.bytes) = d
  have hcache : d.writeCache noWrite.write = (none, d) := by
    unfold writeCache
    split
    · rename_i hcount
      exact absurd hcount (by simp [noWrite, WriteOutcome.count])
    · rfl
  have hflush : (d.binlogFlush noWrite).2 = d := by
    by_cases hnil : d.wcacheBuff = []
    · rw [binlogFlush_of_nil hnil]
    · simp [binlogFlush, hnil, hcache]
  rw [map_some, map_some]
  split_ifs
  · exact congrArg some hflush
  · rfl

lemma run_noWrite {m n : ℕ} (hfits : m + n * 255 < binlogCacheBufferSize) :
    run step (some (BinlogCtx.fresh.withCache (replicate m 97)))
        (replicate n (.write (fillLine 255) noWrite)) =
      some (BinlogCtx.fresh.withCache (replicate (m + n * 255) 97)) := by
  induction n generalizing m with
  | zero => rw [zero_mul, add_zero, replicate_zero, run_nil]
  | succ n ih =>
    rw [replicate_succ, run_cons, step_noWrite]
    · have hline : replicate m 97 ++ (fillLine 255).bytes = replicate (m + 255) 97 :=
        replicate_append_replicate
      rw [withCache_wcacheBuff, hline]
      have hrest : m + 255 + n * 255 = m + (n + 1) * 255 := by omega
      rw [← hrest]
      exact ih (by omega)
    · rw [withCache_wcacheBuff, length_replicate, length_fillLine]
      omega

lemma not_fits_after {n : ℕ} (hfits : n * 255 < binlogCacheBufferSize)
    (hfull : binlogCacheBufferSize < n * 255 + 256) :
    ¬ Along step (fun s op _ => Fits s op) (some .fresh)
      (replicate n (.write (fillLine 255) noWrite) ++ [.write (fillLine 255) .ok]) := by
  intro h
  have hrun := run_noWrite (m := 0) (n := n) (by omega)
  obtain ⟨hline, -⟩ := (Along.append_iff.1 h).2
  have hfresh : BinlogCtx.fresh.withCache (replicate 0 97) = .fresh := rfl
  rw [hfresh] at hrun
  rw [hrun, Fits, withCache_wcacheBuff, length_replicate, length_fillLine] at hline
  omega

/-- After 64 lines and a flush that writes nothing, the next line goes past the end of the cache. -/
theorem cache_overflow : ¬ Along step (fun s op _ => Fits s op) (some .fresh)
      (replicate 64 (.write (fillLine 255) noWrite) ++ [.write (fillLine 255) .ok]) :=
  not_fits_after (by decide) (by decide)

end CacheOp

end Lfs.Binlog
