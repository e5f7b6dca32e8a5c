/-
The handlers of the tracker for the reports of a dataserver (`ts_service.c`), and the choice
of a server to read from (`ts_cluster_datasevr.c`).

They work on the volume of the request, after it has been found.  A block is named by its
index in the volume.
-/
import Lfs.Tracker.Types

namespace Lfs.Tracker

open Lfs.Lib List Option

/-- `datasevr_reg_body_req`, with its numbers decoded by `buff2long` and cast as
`handle_cmd_register` casts them. -/
structure DatasevrRegBodyReq where
  mapInfo : List Byte
  dsIpaddr : List Byte
  dsPort : Int32
  weight : Int32
  heartBeatInterval : Int32
  regTime : Int64
  startedTime : Int64
deriving DecidableEq

namespace DatasevrBlock

/-- The block that `handle_cmd_register` makes for a server it does not know. -/
def ofRegister (vid bid : UInt32) (req : DatasevrRegBodyReq) : DatasevrBlock :=
  { blockNew with
    state := .init
    ipAddr := req.dsIpaddr
    mapInfo := req.mapInfo
    port := req.dsPort.toInt
    weight := req.weight.toInt
    heartBeatInterval := req.heartBeatInterval.toInt
    regTime := req.regTime.toInt
    startedTime := req.startedTime.toInt
    blockId := bid
    parentVolumeId := vid }

/-- The end of `handle_cmd_register`, for a new block and for one that is there. -/
def register (req : DatasevrRegBodyReq) (b : DatasevrBlock) : DatasevrBlock :=
  { b with
    state := .init
    weight := req.weight.toInt
    heartBeatInterval := req.heartBeatInterval.toInt }

/-- What `handle_cmd_heartbeat` does to the block of the sender. -/
def heartbeat (time : ℤ) (b : DatasevrBlock) : DatasevrBlock :=
  { b with lastHeartbeatTime := time, state := .active }

/-- `handle_cmd_syncreport`. -/
def syncreport (time sequence : ℤ) (b : DatasevrBlock) : DatasevrBlock :=
  { b with lastSyncSequence := sequence, lastHeartbeatTime := time, state := .active }

/-- `handle_cmd_statreport`, less the skip list. -/
def statreport (time conns totalMb freeMb : ℤ) (b : DatasevrBlock) : DatasevrBlock :=
  { b with
    currConns := conns
    totalMb := totalMb
    freeMb := freeMb
    lastStatreporttimestamp := time
    lastHeartbeatTime := time
    state := .active }

def setOffLine (b : DatasevrBlock) : DatasevrBlock := { b with state := .offLine }

end DatasevrBlock

lemma map_modify_frame {α β : Type} {f : α → α} (π : α → β) (hf : ∀ a, π (f a) = π a) (l : List α)
    (i : ℕ) : (l.modify i f).map π = l.map π := by
  refine ext_getElem? fun j => ?_
  rw [getElem?_map, getElem?_map, getElem?_modify]
  cases l[j]? with
  | none => rfl
  | some a =>
    simp only [Option.map_eq_map, map_some]
    split_ifs
    · rw [hf]
    · rfl

namespace DatasevrVolume

/-- The block `i` of a volume is changed in place. -/
def modifyBlock (i : ℕ) (f : DatasevrBlock → DatasevrBlock) (dv : DatasevrVolume) :
    DatasevrVolume := { dv with blocks := dv.blocks.modify i f }

/-- The block `i` can be read from: it is neither the master nor the block of the last read,
its heartbeat is recent, and it has synchronised up to `sequence`.  The time is taken anew
for each block. -/
def readable (heartBeatInterval : ℤ) (now : ℕ → ℤ) (sequence : ℤ) (dv : DatasevrVolume) (i : ℕ) :
    Bool :=
  if (i : ℤ) = dv.masterBlockIndex ∨ (i : ℤ) = dv.lastReadBlockIndex then false
  else match dv.blocks[i]? with
    | none => false
    | some b => now i - b.lastHeartbeatTime ≤ heartBeatInterval ∧ sequence ≤ b.lastSyncSequence

/-- `cluster_readdatasevrblock_get` on the volume: the index of the block that it returns, and
the volume after it.  The index is `none` where the master's index is not one. -/
def readdatasevrblockGet (heartBeatInterval : ℤ) (now : ℕ → ℤ) (sequence : ℤ)
    (dv : DatasevrVolume) : Option ℕ × DatasevrVolume :=
  match (List.range dv.blocks.length).find? (dv.readable heartBeatInterval now sequence) with
  | some i => (some i, { dv with lastReadBlockIndex := i })
  | none => (if 0 ≤ dv.masterBlockIndex then some dv.masterBlockIndex.toNat else none, dv)

variable {heartBeatInterval sequence : ℤ} {now : ℕ → ℤ} {dv : DatasevrVolume} {i : ℕ}

lemma readable_iff : dv.readable heartBeatInterval now sequence i = true ↔
    (i : ℤ) ≠ dv.masterBlockIndex ∧ (i : ℤ) ≠ dv.lastReadBlockIndex ∧
      ∃ b, dv.blocks[i]? = some b ∧ now i - b.lastHeartbeatTime ≤ heartBeatInterval ∧
        sequence ≤ b.lastSyncSequence := by
  rw [readable]
  split_ifs with hskip
  · rw [false_iff]
    rintro ⟨hmaster, hlast, -⟩
    exact hskip.elim hmaster hlast
  · rw [not_or] at hskip
    rw [and_iff_right hskip.1, and_iff_right hskip.2]
    cases dv.blocks[i]? with
    | none | some b => simp

/-- **The choice.**  It is the first block that can be read from, or the master if there is none. -/
lemma readdatasevrblockGet_cases (dv : DatasevrVolume) (heartBeatInterval : ℤ) (now : ℕ → ℤ)
    (sequence : ℤ) :
    (∃ i < dv.blocks.length, dv.readable heartBeatInterval now sequence i = true ∧
      dv.readdatasevrblockGet heartBeatInterval now sequence =
        (some i, { dv with lastReadBlockIndex := i })) ∨
    ((∀ i < dv.blocks.length, ¬ dv.readable heartBeatInterval now sequence i = true) ∧
      dv.readdatasevrblockGet heartBeatInterval now sequence =
        (if 0 ≤ dv.masterBlockIndex then some dv.masterBlockIndex.toNat else none, dv)) := by
  unfold readdatasevrblockGet
  cases hfind : (List.range dv.blocks.length).find? (dv.readable heartBeatInterval now sequence) with
  | some i =>
    exact .inl ⟨i, mem_range.1 (mem_of_find?_eq_some hfind), find?_some hfind, rfl⟩
  | none =>
    exact .inr ⟨fun i hi => find?_eq_none.1 hfind i (mem_range.2 hi), rfl⟩

/-- A block other than the master that is returned has reported a mark of at least
`sequence`. -/
lemma of_readdatasevrblockGet
    (h : (dv.readdatasevrblockGet heartBeatInterval now sequence).1 = some i)
    (hi : (i : ℤ) ≠ dv.masterBlockIndex) :
    ∃ b, dv.blocks[i]? = some b ∧ sequence ≤ b.lastSyncSequence := by
  obtain ⟨j, -, hread, hget⟩ | ⟨-, hget⟩ :=
    dv.readdatasevrblockGet_cases heartBeatInterval now sequence
  · rw [hget] at h
    obtain rfl := some.inj h
    obtain ⟨-, -, b, hb, -, hsequence⟩ := readable_iff.1 hread
    exact ⟨b, hb, hsequence⟩
  · -- the master is returned
    rw [hget] at h
    dsimp only at h
    split_ifs at h with hmaster
    obtain rfl := some.inj h
    exact absurd (Int.toNat_of_nonneg hmaster) hi

lemma readdatasevrblockGet_frame (dv : DatasevrVolume) (heartBeatInterval : ℤ) (now : ℕ → ℤ)
    (sequence : ℤ) :
    (dv.readdatasevrblockGet heartBeatInterval now sequence).2.blocks = dv.blocks ∧
      (dv.readdatasevrblockGet heartBeatInterval now sequence).2.masterBlockIndex
        = dv.masterBlockIndex := by
  obtain ⟨i, -, -, hget⟩ | ⟨-, hget⟩ :=
    dv.readdatasevrblockGet_cases heartBeatInterval now sequence
  · rw [hget]
    exact ⟨rfl, rfl⟩
  · rw [hget]
    exact ⟨rfl, rfl⟩

end DatasevrVolume

end Lfs.Tracker
