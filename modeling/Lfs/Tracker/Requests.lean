/-
The requests to the tracker that read or write the load of the dataservers (`ts_service.c`).

The handlers reach a block by its volume and its address, and the skip list keeps pointers to
blocks.  The state is the blocks in the order in which they were registered, and the skip list;
a pointer to a block is its index.  A request is handled at one time of the clock.
-/
import Lfs.Tracker.Service
import Lfs.Tracker.Wlc

namespace Lfs.Tracker

open Lfs.Lib List

/-- The blocks of `clusters`, and `clusters.wlcsl`. -/
structure Clusters where
  blocks : List DatasevrBlock
  wlcsl : WlcSkiplist

/-- The state of a tracker that has just been started. -/
def Clusters.start : Clusters := ⟨[], wlcslCreate⟩

inductive Req where
  | register (req : DatasevrRegBodyReq)
  | heartbeat (mapInfo dsIpaddr : List Byte)
  | syncreport (mapInfo dsIpaddr : List Byte) (lastSyncSequence : ℤ)
  /-- The level of a new node is drawn with `draws`. -/
  | statreport (mapInfo dsIpaddr : List Byte) (conns totalMb freeMb : ℤ) (draws : ℕ)
  | quited (mapInfo dsIpaddr : List Byte)
  | writetracker
deriving DecidableEq

namespace Clusters

/-- The block behind a pointer. -/
def block (t : Clusters) (i : ℕ) : DatasevrBlock := t.blocks.getD i blockNew

/-- `dblk->block_id`. -/
def blockId (t : Clusters) (i : ℕ) : UInt32 := (t.block i).blockId

/-- `curr_conns * weight`. -/
def load (t : Clusters) (i : ℕ) : ℤ := (t.block i).currConns * (t.block i).weight

/-- The block `i` is changed in place. -/
def modifyBlock (i : ℕ) (f : DatasevrBlock → DatasevrBlock) (t : Clusters) : Clusters :=
  { t with blocks := t.blocks.modify i f }

/-- `cluster_datasevrblock_byid_find`. -/
def datasevrblockByidFind (t : Clusters) (vid bid : UInt32) : Option ℕ :=
  t.blocks.findIdx? fun b => b.parentVolumeId = vid && b.blockId = bid

variable (hashFunc : List Byte → UInt32) (heartBeatInterval : ℤ)

/-- `cluster_datasevrblock_find`. -/
def datasevrblockFind (t : Clusters) (mapInfo dsIpaddr : List Byte) : Option ℕ :=
  t.datasevrblockByidFind (hashFunc mapInfo) (hashFunc dsIpaddr)

def handleCmdRegister (req : DatasevrRegBodyReq) (t : Clusters) : Clusters :=
  match t.datasevrblockFind hashFunc req.mapInfo req.dsIpaddr with
  | some i => t.modifyBlock i (.register req)
  | none =>
    let dblk := DatasevrBlock.ofRegister (hashFunc req.mapInfo) (hashFunc req.dsIpaddr) req
    { t with blocks := t.blocks ++ [dblk.register req] }

/-- What `handle_cmd_heartbeat` does to the other blocks of the volume. -/
def heartbeatPeers (now : ℤ) (mapInfo dsIpaddr : List Byte) (i : ℕ) (t : Clusters) : Clusters :=
  { t with
    blocks := t.blocks.map fun b =>
      if b.parentVolumeId = hashFunc mapInfo ∧ b.ipAddr ≠ dsIpaddr ∧
          heartBeatInterval < now - (t.block i).lastHeartbeatTime then
        b.setOffLine
      else b }

/-- `handle_cmd_heartbeat`, less the reply. -/
def handleCmdHeartbeat (now : ℤ) (mapInfo dsIpaddr : List Byte) (t : Clusters) : Clusters :=
  match t.datasevrblockFind hashFunc mapInfo dsIpaddr with
  | some i =>
    (t.modifyBlock i (.heartbeat now)).heartbeatPeers hashFunc heartBeatInterval now mapInfo
      dsIpaddr i
  | none => t

def handleCmdSyncreport (now : ℤ) (mapInfo dsIpaddr : List Byte) (lastSyncSequence : ℤ)
    (t : Clusters) : Clusters :=
  match t.datasevrblockFind hashFunc mapInfo dsIpaddr with
  | some i => t.modifyBlock i (.syncreport now lastSyncSequence)
  | none => t

/-- `handle_cmd_statreport` for the block `i`. -/
def statreport (now : ℤ) (i : ℕ) (conns totalMb freeMb : ℤ) (draws : ℕ) (t : Clusters) : Clusters :=
  let weight := (t.block i).weight
  let wctx : WlcCtx := ⟨i, (t.block i).currConns * weight, conns * weight⟩
  { t.modifyBlock i (.statreport now conns totalMb freeMb) with
    wlcsl := t.wlcsl.clusterWlcBlockAdd t.blockId (wlcslRandomLevel draws) wctx }

def handleCmdStatreport (now : ℤ) (mapInfo dsIpaddr : List Byte) (conns totalMb freeMb : ℤ)
    (draws : ℕ) (t : Clusters) : Clusters :=
  match t.datasevrblockFind hashFunc mapInfo dsIpaddr with
  | some i => t.statreport now i conns totalMb freeMb draws
  | none => t

def handleCmdQuited (mapInfo dsIpaddr : List Byte) (t : Clusters) : Clusters :=
  match t.datasevrblockFind hashFunc mapInfo dsIpaddr with
  | some i => t.modifyBlock i .setOffLine
  | none => t

/-- The last heartbeat of the block is longer ago than `heart_beat_interval`. -/
def expired (now : ℤ) (t : Clusters) (i : ℕ) : Bool :=
  heartBeatInterval < now - (t.block i).lastHeartbeatTime

/-- `handle_cmd_writetracker`: the block that it returns, and the state after it; `none` if freed
memory is read. -/
def handleCmdWritetracker (now : ℤ) (t : Clusters) : Option (Option ℕ × Clusters) :=
  (t.wlcsl.clusterWlcWriteBlockGet t.blockId (t.expired heartBeatInterval now)).map fun w =>
    (w.dblk, { w.offLine.foldl (fun t i => t.modifyBlock i .setOffLine) t with wlcsl := w.wlcsl })

def handle (now : ℤ) (t : Clusters) : Req → Option Clusters
  | .register req => some (t.handleCmdRegister hashFunc req)
  | .heartbeat mapInfo dsIpaddr =>
    some (t.handleCmdHeartbeat hashFunc heartBeatInterval now mapInfo dsIpaddr)
  | .syncreport mapInfo dsIpaddr sequence =>
    some (t.handleCmdSyncreport hashFunc now mapInfo dsIpaddr sequence)
  | .statreport mapInfo dsIpaddr conns totalMb freeMb draws =>
    some (t.handleCmdStatreport hashFunc now mapInfo dsIpaddr conns totalMb freeMb draws)
  | .quited mapInfo dsIpaddr => some (t.handleCmdQuited hashFunc mapInfo dsIpaddr)
  | .writetracker => (t.handleCmdWritetracker heartBeatInterval now).map Prod.snd

/-! ### What the requests keep -/

variable {hashFunc heartBeatInterval} {t t' : Clusters} {f : DatasevrBlock → DatasevrBlock} {i j : ℕ}

lemma block_eq_of_map {β : Type} (π : DatasevrBlock → β) (h : t'.blocks.map π = t.blocks.map π) (j : ℕ) :
    π (t'.block j) = π (t.block j) := by
  have hget := congrArg (fun l => l[j]?.getD (π blockNew)) h
  simpa only [block, getElem?_map, Option.getD_map, ← getD_eq_getElem?_getD] using hget

lemma map_modifyBlock {β : Type} (π : DatasevrBlock → β) (hf : ∀ b, π (f b) = π b) :
    (t.modifyBlock i f).blocks.map π = t.blocks.map π :=
  map_modify_frame π hf t.blocks i

lemma map_handleCmdHeartbeat {β : Type} (π : DatasevrBlock → β) {now : ℤ}
    (hheartbeat : ∀ b, π (b.heartbeat now) = π b) (hoffLine : ∀ b, π b.setOffLine = π b)
    (mapInfo dsIpaddr : List Byte) :
    (t.handleCmdHeartbeat hashFunc heartBeatInterval now mapInfo dsIpaddr).blocks.map π =
      t.blocks.map π := by
  rw [handleCmdHeartbeat]
  cases t.datasevrblockFind hashFunc mapInfo dsIpaddr with
  | none => rfl
  | some i =>
    rw [← map_modifyBlock (t := t) (i := i) π hheartbeat]
    simp only [heartbeatPeers, List.map_map]
    refine map_congr_left fun b _ => ?_
    simp only [Function.comp_apply]
    split_ifs
    · exact hoffLine b
    · rfl

lemma map_offLine {β : Type} (π : DatasevrBlock → β) (hπ : ∀ b, π b.setOffLine = π b) (l : List ℕ) :
    (l.foldl (fun t i => t.modifyBlock i .setOffLine) t).blocks.map π = t.blocks.map π := by
  induction l generalizing t with
  | nil => rfl
  | cons i l ih => exact ih.trans (map_modifyBlock π hπ)

lemma block_modifyBlock_self (hi : i < t.blocks.length) :
    (t.modifyBlock i f).block i = f (t.block i) := by
  rw [block, block, modifyBlock, getD_eq_getElem?_getD, getD_eq_getElem?_getD,
    getElem?_modify, getElem?_eq_getElem hi]
  simp

lemma block_modifyBlock_ne (hij : i ≠ j) : (t.modifyBlock i f).block j = t.block j := by
  rw [block, block, modifyBlock, getD_eq_getElem?_getD, getD_eq_getElem?_getD, getElem?_modify]
  simp [hij]

lemma length_modifyBlock : (t.modifyBlock i f).blocks.length = t.blocks.length :=
  length_modify ..

lemma lt_of_datasevrblockFind {mapInfo dsIpaddr : List Byte}
    (h : t.datasevrblockFind hashFunc mapInfo dsIpaddr = some i) : i < t.blocks.length :=
  (findIdx?_eq_some_iff_getElem.1 h).1

/-- The loop of a heartbeat looks at the last heartbeat of the sender, which is the time. -/
lemma blocks_handleCmdHeartbeat {mapInfo dsIpaddr : List Byte}
    (h : t.datasevrblockFind hashFunc mapInfo dsIpaddr = some i) (now : ℤ) :
    (t.handleCmdHeartbeat hashFunc heartBeatInterval now mapInfo dsIpaddr).blocks =
      (t.blocks.modify i (.heartbeat now)).map fun b =>
        if b.parentVolumeId = hashFunc mapInfo ∧ b.ipAddr ≠ dsIpaddr ∧ heartBeatInterval < 0 then
          b.setOffLine
        else b := by
  have htime : ((t.modifyBlock i (.heartbeat now)).block i).lastHeartbeatTime = now := by
    rw [block_modifyBlock_self (lt_of_datasevrblockFind h)]
    rfl
  simp only [handleCmdHeartbeat, h, heartbeatPeers, htime, sub_self]
  rfl

/-- The blocks of `t` are still there in `t'`, with their ids, and the skip list is the same. -/
structure Extends (t t' : Clusters) : Prop where
  wlcsl : t'.wlcsl = t.wlcsl
  length_le : t.blocks.length ≤ t'.blocks.length
  blockId : ∀ j < t.blocks.length, t'.blockId j = t.blockId j

lemma Extends.refl (t : Clusters) : t.Extends t := ⟨rfl, le_rfl, fun _ _ => rfl⟩

lemma Extends.trans {t'' : Clusters} (h : t.Extends t') (h' : t'.Extends t'') : t.Extends t'' :=
  ⟨h'.wlcsl.trans h.wlcsl, h.length_le.trans h'.length_le, fun j hj =>
    (h'.blockId j (hj.trans_le h.length_le)).trans (h.blockId j hj)⟩

lemma extends_of_map (hwlcsl : t'.wlcsl = t.wlcsl)
    (h : t'.blocks.map DatasevrBlock.blockId = t.blocks.map DatasevrBlock.blockId) : t.Extends t' := by
  have hlength := congrArg List.length h
  rw [length_map, length_map] at hlength
  exact ⟨hwlcsl, hlength.ge, fun j _ => block_eq_of_map DatasevrBlock.blockId h j⟩

lemma extends_modifyBlock (hf : ∀ b, (f b).blockId = b.blockId) : t.Extends (t.modifyBlock i f) :=
  extends_of_map rfl (map_modifyBlock DatasevrBlock.blockId hf)

lemma block_append {b : DatasevrBlock} {s : WlcSkiplist} (hj : j < t.blocks.length) :
    block ⟨t.blocks ++ [b], s⟩ j = t.block j := by
  rw [block, block, getD_eq_getElem?_getD, getD_eq_getElem?_getD, getElem?_append_left hj]

lemma extends_handleCmdRegister (req : DatasevrRegBodyReq) :
    t.Extends (t.handleCmdRegister hashFunc req) := by
  rw [handleCmdRegister]
  cases t.datasevrblockFind hashFunc req.mapInfo req.dsIpaddr with
  | some i => exact extends_modifyBlock fun _ => rfl
  | none =>
    refine ⟨rfl, ?_, fun j hj => congrArg DatasevrBlock.blockId (block_append hj)⟩
    rw [length_append]
    exact Nat.le_add_right _ _

lemma extends_handleCmdHeartbeat (now : ℤ) (mapInfo dsIpaddr : List Byte) :
    t.Extends (t.handleCmdHeartbeat hashFunc heartBeatInterval now mapInfo dsIpaddr) := by
  refine extends_of_map ?_ (map_handleCmdHeartbeat _ (fun _ => rfl) (fun _ => rfl) mapInfo dsIpaddr)
  rw [handleCmdHeartbeat]
  cases t.datasevrblockFind hashFunc mapInfo dsIpaddr <;> rfl

lemma extends_offLine (l : List ℕ) :
    t.Extends (l.foldl (fun t i => t.modifyBlock i .setOffLine) t) := by
  induction l generalizing t with
  | nil => exact Extends.refl t
  | cons i l ih => exact (extends_modifyBlock (f := .setOffLine) fun _ => rfl).trans ih

/-! ### What only a registration writes -/

/-- A part of a block that the reports do not write. -/
structure Untouched {β : Type} (π : DatasevrBlock → β) : Prop where
  heartbeat : ∀ now b, π (b.heartbeat now) = π b
  syncreport : ∀ now sequence b, π (b.syncreport now sequence) = π b
  statreport : ∀ now conns totalMb freeMb b, π (b.statreport now conns totalMb freeMb) = π b
  setOffLine : ∀ b, π b.setOffLine = π b

section Frame

variable {β : Type} {π : DatasevrBlock → β} (hπ : Untouched π) {now : ℤ}

include hπ

lemma Untouched.handleCmdHeartbeat (mapInfo dsIpaddr : List Byte) :
    (t.handleCmdHeartbeat hashFunc heartBeatInterval now mapInfo dsIpaddr).blocks.map π =
      t.blocks.map π :=
  map_handleCmdHeartbeat π (hπ.heartbeat now) hπ.setOffLine mapInfo dsIpaddr

lemma Untouched.handleCmdSyncreport (mapInfo dsIpaddr : List Byte) (sequence : ℤ) :
    (t.handleCmdSyncreport hashFunc now mapInfo dsIpaddr sequence).blocks.map π =
      t.blocks.map π := by
  rw [Clusters.handleCmdSyncreport]
  cases t.datasevrblockFind hashFunc mapInfo dsIpaddr with
  | none => rfl
  | some i => exact map_modifyBlock π (hπ.syncreport now sequence)

lemma Untouched.handleCmdStatreport (mapInfo dsIpaddr : List Byte) (conns totalMb freeMb : ℤ)
    (draws : ℕ) :
    (t.handleCmdStatreport hashFunc now mapInfo dsIpaddr conns totalMb freeMb draws).blocks.map π =
      t.blocks.map π := by
  rw [Clusters.handleCmdStatreport]
  cases t.datasevrblockFind hashFunc mapInfo dsIpaddr with
  | none => rfl
  | some i => exact map_modifyBlock π (hπ.statreport now conns totalMb freeMb)

lemma Untouched.handleCmdQuited (mapInfo dsIpaddr : List Byte) :
    (t.handleCmdQuited hashFunc mapInfo dsIpaddr).blocks.map π = t.blocks.map π := by
  rw [Clusters.handleCmdQuited]
  cases t.datasevrblockFind hashFunc mapInfo dsIpaddr with
  | none => rfl
  | some i => exact map_modifyBlock π hπ.setOffLine

lemma Untouched.handleCmdWritetracker {dblk : Option ℕ}
    (h : t.handleCmdWritetracker heartBeatInterval now = some (dblk, t')) :
    t'.blocks.map π = t.blocks.map π := by
  rw [Clusters.handleCmdWritetracker, Option.map_eq_some_iff] at h
  obtain ⟨w, -, hw⟩ := h
  obtain ⟨-, rfl⟩ := Prod.mk.inj hw
  exact map_offLine π hπ.setOffLine w.offLine

lemma Untouched.handle {req : Req} (hreq : ∀ r, req ≠ .register r)
    (h : t.handle hashFunc heartBeatInterval now req = some t') :
    t'.blocks.map π = t.blocks.map π := by
  cases req with
  | register r => exact absurd rfl (hreq r)
  | heartbeat mapInfo dsIpaddr =>
    obtain rfl := Option.some.inj h
    exact hπ.handleCmdHeartbeat mapInfo dsIpaddr
  | syncreport mapInfo dsIpaddr sequence =>
    obtain rfl := Option.some.inj h
    exact hπ.handleCmdSyncreport mapInfo dsIpaddr sequence
  | statreport mapInfo dsIpaddr conns totalMb freeMb draws =>
    obtain rfl := Option.some.inj h
    exact hπ.handleCmdStatreport mapInfo dsIpaddr conns totalMb freeMb draws
  | quited mapInfo dsIpaddr =>
    obtain rfl := Option.some.inj h
    exact hπ.handleCmdQuited mapInfo dsIpaddr
  | writetracker =>
    obtain ⟨⟨dblk, t₁⟩, hw, rfl⟩ := Option.map_eq_some_iff.1 h
    exact hπ.handleCmdWritetracker hw

end Frame

end Clusters

end Lfs.Tracker
