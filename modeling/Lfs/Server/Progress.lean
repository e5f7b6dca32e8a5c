/-
The progress of a dataserver that it reports to the tracker (`ctxs.last_sync_sequence`).

The mark is the highest sequence of a record that the full synchronisation has fetched, or of
a file that a peer has copied to this server.  It is kept in memory; `ctx_snapshot_batdata_flush`
writes it to a file when the full synchronisation is complete.  Nothing calls
`ctx_snapshot_batdata_load`, which would read it back.
-/
import Lfs.Base.Text
import Lfs.Lib.Run
import Lfs.Tracker.Service

namespace Lfs.Server

open Lfs.Lib Lfs.Tracker

/-- The part of `ctxs` that `ctx_snapshot_batdata_flush` writes. -/
structure SyncCtxs where
  registerTimestamp : ℤ
  isFullsyncdone : Bool
  lastSyncSequence : ℤ
deriving DecidableEq

namespace SyncCtxs

def ctxsInit : SyncCtxs := ⟨0, false, 0⟩

def columns (c : SyncCtxs) : List (List Byte) :=
  [decimalInt c.registerTimestamp, decimal c.isFullsyncdone.toNat, decimalInt c.lastSyncSequence]

/-- The text that `ctx_snapshot_batdata_flush` writes. -/
def batdata (c : SyncCtxs) : List Byte :=
  List.intercalate [batDataSeperator] c.columns ++ [newline]

/-- What `main` does to these fields before the threads are started: it calls `ctxs_init`, and
nothing that it calls reads the file. -/
def mainInit (_snapshot : Option (List Byte)) : SyncCtxs := ctxsInit

/-- The mark after a record or a file with this sequence. -/
def advance (sequence : ℤ) (c : SyncCtxs) : SyncCtxs :=
  if c.lastSyncSequence < sequence then { c with lastSyncSequence := sequence } else c

end SyncCtxs

/-! ### Runs -/

/-- A dataserver with its file and its block at the tracker, and a record of what it has
done. -/
structure Progress where
  ctxs : SyncCtxs
  /-- `ctxsnapshot.bat`. -/
  snapshot : Option (List Byte)
  /-- The block of this server at the tracker. -/
  block : DatasevrBlock
  /-- The mark that was sent in the last report. -/
  reported : Option ℤ
  /-- The sequences of the records and files of this process. -/
  applied : List ℤ
deriving DecidableEq

inductive ProgressOp where
  /-- A record of `__full_sync_data_from_master`. -/
  | record (sequence : Int64)
  /-- A file in `asyncfile_done_callback`. -/
  | copied (createTimestamp : Int64)
  | registered (time : Int32)
  /-- `full_sync_from_master` returns `F_SYNC_FINISH`.  The file cannot be opened, or so many
  bytes are written to it. -/
  | finished (written : Option ℕ)
  /-- `__tracker_report_syncinfo`; the request reaches the tracker or not. -/
  | report (arrives : Bool) (now : ℤ)
  | restart
deriving DecidableEq

namespace Progress

/-- A dataserver at its first start, which has just been registered. -/
def start (vid bid : UInt32) (req : DatasevrRegBodyReq) : Progress where
  ctxs := .mainInit none
  snapshot := none
  block := .ofRegister vid bid req
  reported := none
  applied := []

/-- A record or a file with this sequence. -/
def apply (sequence : ℤ) (s : Progress) : Progress :=
  { s with ctxs := s.ctxs.advance sequence, applied := sequence :: s.applied }

def step (s : Progress) : ProgressOp → Progress
  | .record sequence => s.apply sequence.toInt
  | .copied createTimestamp => s.apply createTimestamp.toInt
  | .registered time => { s with ctxs := { s.ctxs with registerTimestamp := time.toInt } }
  | .finished written =>
    let ctxs := { s.ctxs with isFullsyncdone := true }
    { s with
      ctxs := ctxs
      snapshot := match written with
        | none => s.snapshot
        | some k => some (ctxs.batdata.take k) }
  | .report arrives now =>
    let lastSyncSequence := long2buff s.ctxs.lastSyncSequence
    { s with
      reported := some s.ctxs.lastSyncSequence
      block := if arrives then s.block.syncreport now (buff2long lastSyncSequence) else s.block }
  | .restart => { s with ctxs := .mainInit s.snapshot, applied := [] }

/-- Neither the marks that are sent nor the one that the tracker stores go back. -/
def NonDecreasing (s s' : Progress) : Prop :=
  (∀ w ∈ s.reported, ∀ v ∈ s'.reported, w ≤ v) ∧
    s.block.lastSyncSequence ≤ s'.block.lastSyncSequence

/-- The condition on a step: at a report, this process has come as far as the last report. -/
def CaughtUp (s : Progress) : ProgressOp → Prop
  | .report _ _ => ∀ w ∈ s.reported, w ≤ 0 ∨ ∃ a ∈ s.applied, w ≤ a
  | _ => True

instance (s s' : Progress) : Decidable (s.NonDecreasing s') :=
  inferInstanceAs (Decidable (_ ∧ _))

/-- What the mark of a process is. -/
structure Inv (s : Progress) : Prop where
  /-- The mark is the highest sequence of this process. -/
  mark : ∀ w, w ≤ s.ctxs.lastSyncSequence ↔ w ≤ 0 ∨ ∃ a ∈ s.applied, w ≤ a
  lt : s.ctxs.lastSyncSequence < 2 ^ 63
  /-- The tracker has no later mark than the one of the last report. -/
  stored : s.block.lastSyncSequence ≤ s.reported.getD 0

variable {s : Progress} {op : ProgressOp}

lemma Inv.nonneg (h : s.Inv) : 0 ≤ s.ctxs.lastSyncSequence := (h.mark 0).2 (.inl le_rfl)

lemma mainInit_lt (file : Option (List Byte)) : (SyncCtxs.mainInit file).lastSyncSequence < 2 ^ 63 := by
  change (0 : ℤ) < 2 ^ 63
  decide

lemma inv_start (vid bid : UInt32) (req : DatasevrRegBodyReq) : (start vid bid req).Inv :=
  ⟨fun w => by simp [start, SyncCtxs.mainInit, SyncCtxs.ctxsInit], mainInit_lt none, le_rfl⟩

lemma Inv.apply (h : s.Inv) {sequence : ℤ} (hlt : sequence < 2 ^ 63) : (s.apply sequence).Inv := by
  have hmark : (s.ctxs.advance sequence).lastSyncSequence =
      max s.ctxs.lastSyncSequence sequence := by
    rw [SyncCtxs.advance]
    split_ifs with hlt
    · exact (max_eq_right hlt.le).symm
    · exact (max_eq_left (not_lt.1 hlt)).symm
  refine ⟨fun w => ?_, ?_, h.stored⟩
  · simp only [Progress.apply, hmark, le_max_iff, h.mark w, List.mem_cons, exists_eq_or_imp]
    rw [or_right_comm, or_assoc]
  · simp only [Progress.apply, hmark]
    exact max_lt h.lt hlt

lemma Inv.buff2long_mark (h : s.Inv) :
    buff2long (long2buff s.ctxs.lastSyncSequence) = s.ctxs.lastSyncSequence := by
  have hnonneg := h.nonneg
  simpa using buff2long_long2buff_append (by omega) h.lt []

lemma Inv.reported_le_iff (h : s.Inv) (arrives : Bool) (now : ℤ) :
    s.CaughtUp (.report arrives now) ↔ s.reported.getD 0 ≤ s.ctxs.lastSyncSequence := by
  rw [CaughtUp]
  cases s.reported with
  | none => simpa using h.nonneg
  | some w => simpa using (h.mark w).symm

lemma Inv.block_report (h : s.Inv) (arrives : Bool) (now : ℤ) :
    (s.step (.report arrives now)).block.lastSyncSequence =
      if arrives then s.ctxs.lastSyncSequence else s.block.lastSyncSequence := by
  cases arrives with
  | true =>
    have hblock : (s.step (.report true now)).block =
        s.block.syncreport now (buff2long (long2buff s.ctxs.lastSyncSequence)) := rfl
    rw [hblock, h.buff2long_mark]
    rfl
  | false => rfl

lemma Inv.step (h : s.Inv) (hcaught : s.CaughtUp op) : (s.step op).Inv := by
  cases op with
  | record sequence => exact h.apply sequence.toInt_lt
  | copied createTimestamp => exact h.apply createTimestamp.toInt_lt
  | registered time | finished written => exact ⟨h.mark, h.lt, h.stored⟩
  | restart =>
    refine ⟨fun w => ?_, mainInit_lt s.snapshot, h.stored⟩
    simp [Progress.step, SyncCtxs.mainInit, SyncCtxs.ctxsInit]
  | report arrives now =>
    refine ⟨h.mark, h.lt, ?_⟩
    rw [h.block_report]
    split_ifs
    · exact le_rfl
    · exact h.stored.trans ((h.reported_le_iff arrives now).1 hcaught)

lemma Inv.nonDecreasing_iff (h : s.Inv) (op : ProgressOp) :
    s.CaughtUp op ↔ s.NonDecreasing (s.step op) := by
  -- a step other than a report sends nothing
  have hother {s' : Progress} (hreported : s'.reported = s.reported) (hblock : s'.block = s.block) :
      s.NonDecreasing s' := by
    refine ⟨fun w hw v hv => ?_, hblock ▸ le_rfl⟩
    rw [hreported] at hv
    exact (Option.some.inj (hw.symm.trans hv)).le
  cases op with
  | record sequence | copied createTimestamp | registered time | finished written
  | restart => exact iff_of_true trivial (hother rfl rfl)
  | report arrives now =>
    constructor
    · intro hcaught
      have hle := (h.reported_le_iff arrives now).1 hcaught
      refine ⟨fun w hw v hv => ?_, ?_⟩
      · obtain rfl := Option.some.inj hv
        simpa [Option.mem_def.1 hw] using hle
      · rw [h.block_report]
        split_ifs
        · exact h.stored.trans hle
        · exact le_rfl
    · rintro ⟨hreported, -⟩ w hw
      exact (h.mark w).1 (hreported w hw _ rfl)

end Progress

/-- **Reported progress.**  In every run of a dataserver, restarts included, the marks that it
sends and the mark that the tracker stores do not go back, if and only if at every report the
process has, since its own start, fetched a record or received a file with a sequence as high
as the mark of the last report, unless that mark is zero. -/
theorem reports_nondecreasing_iff (vid bid : UInt32) (req : DatasevrRegBodyReq)
    (ops : List ProgressOp) :
    Along Progress.step (fun s op _ => s.CaughtUp op) (Progress.start vid bid req) ops ↔
      Along Progress.step (fun s _ s' => s.NonDecreasing s') (Progress.start vid bid req) ops :=
  Along.iff_of_inv' (Progress.inv_start vid bid req) (fun _ op h => h.nonDecreasing_iff op)
    fun _ _ h hcaught => h.step hcaught

/-- A server copies a record, completes the full synchronisation, whose state it writes to the
file, and reports.  It is started again and reports. -/
def restartedRun : List ProgressOp :=
  [.record 5, .finished (some 100), .report true 1, .restart, .report true 2]

/-- The second report says that the server has nothing. -/
theorem restartedRun_not_nondecreasing : ¬ Along Progress.step (fun s _ s' => s.NonDecreasing s')
      (Progress.start 1 2 ⟨[65], [49], 80, 1, 30, 7, 8⟩) restartedRun := by
  decide +kernel

end Lfs.Server
